/-!
# Command-line arguments

A command line is a list of words: flags, then a command, then the flags, the option and the path of
that command. Words are taken from left to right and the first refusal wins. The value of an option
or a path is judged only once the next recognised word, or the end, settles it.
-/

namespace SchemaBindings.CommandLine

/-- How a report is printed. -/
inductive Format where
  | plain
  | json
deriving DecidableEq

/-- The word for a format. -/
def Format.word : Format → String
  | .plain => "text"
  | .json => "json"

/-- The format of a word. -/
def Format.ofWord? (word : String) : Option Format :=
  [Format.plain, Format.json].find? fun format => format.word = word

/-- The commands. -/
inductive Action where
  | info
  | generate
deriving DecidableEq

/-- The word for a command. -/
def Action.word : Action → String
  | .info => "info"
  | .generate => "generate"

/-- The command of a word. -/
def Action.ofWord? (word : String) : Option Action :=
  [Action.info, Action.generate].find? fun action => action.word = word

/-- What is to be done. Without a path the working directory is meant. -/
inductive Command where
  | info (path? : Option String) (format : Format)
  | generate (path? : Option String)
deriving DecidableEq

/-- An accepted command line. -/
structure Invocation where
  verbose : Bool
  command : Command
deriving DecidableEq

/-- Why a command line is not carried out. The first two are requests for a text, not mistakes. -/
inductive Refusal where
  | helpWanted
  | versionWanted
  | nothingGiven
  | commandMissing
  | commandUnknown
  | argumentUnknown
  | valueInvalid
  | givenTwice
  | valueSurplus
deriving DecidableEq

/-- The shapes of words. -/
inductive Word where
  | separator
  | long (name : String) (value? : Option String)
  | short (flags : List Char)
  | plain (content : String)
deriving DecidableEq

/-- Reads a word that starts with two hyphens, given what follows them. -/
def Word.ofLong (content : List Char) : Word :=
  let name := content.takeWhile (· ≠ '=')
  .long (String.ofList name) <|
    match content.drop name.length with
    | [] => none
    | _ :: value => some (String.ofList value)

/-- The shape of a word. A lone hyphen is an ordinary word. -/
def Word.ofText (text : String) : Word :=
  match text.toList with
  | ['-', '-'] => .separator
  | '-' :: '-' :: content => .ofLong content
  | ['-'] => .plain text
  | '-' :: flags => .short flags
  | _ => .plain text

/-- A value that was given but not yet judged. -/
inductive Pending where
  | settled
  | formatAwaited
  | formatGiven (value : String)
  | pathGiven (value : String)
deriving DecidableEq

/-- What the words of a command have given so far. -/
structure Given where
  verbose : Bool
  path? : Option String
  format? : Option Format
  pending : Pending
  pathSeen : Bool
  trailing : Bool
deriving DecidableEq

/-- Before the first word of a command. -/
def Given.start : Given := ⟨false, none, none, .settled, false, false⟩

/-- Takes over the value of the format option, which may be given once. -/
def Given.withFormat (given : Given) (value : String) : Except Refusal Given :=
  if given.format?.isSome then .error .givenTwice
  else
    match Format.ofWord? value with
    | some format => .ok { given with format? := some format }
    | none => .error .valueInvalid

/-- Judges the value that is pending. -/
def Given.settle (given : Given) : Except Refusal Given :=
  let settled := { given with pending := .settled }
  match given.pending with
  | .settled => .ok given
  | .formatAwaited => .error .valueInvalid
  | .formatGiven value => settled.withFormat value
  | .pathGiven value =>
    if value.isEmpty then .error .valueInvalid else .ok { settled with path? := some value }

/-- Takes a flag for more log output, which may be given once. -/
def Given.withVerbose (given : Given) : Except Refusal Given := do
  let given ← given.settle
  if given.verbose then .error .givenTwice else .ok { given with verbose := true }

/-- Takes a request for help. -/
def Given.withHelp (given : Given) : Except Refusal Given := do
  let _ ← given.settle
  .error .helpWanted

/-- Takes a bundle of one-letter flags. -/
def Given.withShort : List Char → Given → Except Refusal Given
  | [], given => .ok given
  | 'v' :: flags, given => given.withVerbose >>= Given.withShort flags
  | 'h' :: _, given => given.withHelp
  | _ :: _, _ => .error .argumentUnknown

/-- Takes a word with two hyphens, within a command. -/
def Given.withLong (action : Action) (name : String) (value? : Option String) (given : Given) :
    Except Refusal Given :=
  match name, value? with
  | "verbose", none => given.withVerbose
  | "help", none => given.withHelp
  | "verbose", some _ => .error .valueSurplus
  | "help", some _ => .error .valueSurplus
  | "format", value? =>
    if action = .info then do
      let given ← given.settle
      match value? with
      | some value => given.withFormat value
      | none => .ok { given with pending := .formatAwaited }
    else .error .argumentUnknown
  | _, _ => .error .argumentUnknown

/-- Takes a path, of which there is at most one. -/
def Given.withPath (content : String) (given : Given) : Except Refusal Given :=
  if given.pathSeen then .error .argumentUnknown
  else do
    let given ← given.settle
    .ok { given with pending := .pathGiven content, pathSeen := true }

/-- Takes an ordinary word: the value that an option awaits, or a path. -/
def Given.withPlain (content : String) (given : Given) : Except Refusal Given :=
  if given.pending = .formatAwaited then .ok { given with pending := .formatGiven content }
  else given.withPath content

/-- Takes one word of a command. -/
def Given.withWord (action : Action) (text : String) (given : Given) : Except Refusal Given :=
  if given.trailing then given.withPath text
  else
    match Word.ofText text with
    | .separator => .ok { given with trailing := true }
    | .long name value? => given.withLong action name value?
    | .short flags => given.withShort flags
    | .plain content => given.withPlain content

/-- Reads the words of a command. -/
def readCommand (action : Action) (verbose : Bool) (words : List String) :
    Except Refusal Invocation := do
  let given ← words.foldlM (fun given word => given.withWord action word) Given.start
  let given ← given.settle
  let command :=
    match action with
    | .info => .info given.path? (given.format?.getD .plain)
    | .generate => .generate given.path?
  return ⟨verbose || given.verbose, command⟩

/-- Asks for help about a command. The command `help` may be asked about too, and none has commands
of its own. -/
def readHelp : List String → Refusal
  | [] => .helpWanted
  | [word] =>
    if (Action.ofWord? word).isSome || word = "help" then .helpWanted else .commandUnknown
  | _ :: _ :: _ => .commandUnknown

/-- Takes a bundle of one-letter flags in front of the command. -/
def readShort : List Char → Bool → Except Refusal Bool
  | [], verbose => .ok verbose
  | 'v' :: flags, verbose => if verbose then .error .givenTwice else readShort flags true
  | 'h' :: _, _ => .error .helpWanted
  | 'V' :: _, _ => .error .versionWanted
  | _ :: _, _ => .error .argumentUnknown

/-- Takes a word with two hyphens in front of the command. -/
def readLong (name : String) (value? : Option String) (verbose : Bool) : Except Refusal Bool :=
  if ["verbose", "help", "version"].contains name then
    if value?.isSome then .error .valueSurplus
    else if name = "help" then .error .helpWanted
    else if name = "version" then .error .versionWanted
    else if verbose then .error .givenTwice
    else .ok true
  else .error .argumentUnknown

/-- Why a word that is no flag ends the search for a command. After a separator the name of a
command is an argument that nothing takes. -/
def strayWord (trailing : Bool) (content : String) : Refusal :=
  if trailing && ((Action.ofWord? content).isSome || content = "help") then .argumentUnknown
  else .commandUnknown

/-- Reads words up to the command, and then the command. -/
def readWords (verbose trailing : Bool) : List String → Except Refusal Invocation
  | [] => .error (if verbose then .commandMissing else .nothingGiven)
  | text :: rest =>
    if trailing then .error (strayWord true text)
    else
      match Word.ofText text with
      | .separator => readWords verbose true rest
      | .long name value? => do readWords (← readLong name value? verbose) false rest
      | .short flags => do readWords (← readShort flags verbose) false rest
      | .plain content =>
        match Action.ofWord? content with
        | some action => readCommand action verbose rest
        | none =>
          if content = "help" then .error (readHelp rest) else .error (strayWord false content)

/-- Reads a command line, without the name of the program. -/
def Invocation.ofWords (words : List String) : Except Refusal Invocation :=
  readWords false false words

end SchemaBindings.CommandLine
