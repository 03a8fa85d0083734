import SchemaBindings.Manifest.Scalar

/-!
# Reading the parts of a TOML document

Strings, keys, arrays and inline tables. A reader starts at a cursor and returns what it read with
the cursor behind it, or the place at which the text cannot go on.
-/

namespace SchemaBindings.Manifest

open SchemaBindings.Text (Position)

/-- A place in the text and what stands behind it. -/
structure Cursor where
  place : Position
  rest : List Char

/-- What a reader returns: its result and the cursor behind it, or the place where it failed. -/
abbrev Reading (α : Type) := Except Position (α × Cursor)

/-- The cursor behind some characters. -/
def Cursor.skip (cursor : Cursor) (taken rest : List Char) : Cursor :=
  ⟨cursor.place.afterText taken, rest⟩

/-- The cursor behind the longest run of characters with a property. -/
def Cursor.skipWhile (p : Char → Bool) (cursor : Cursor) : Cursor :=
  cursor.skip (cursor.rest.takeWhile p) (cursor.rest.dropWhile p)

/-- Spaces and tabs. -/
def isSpace (c : Char) : Bool :=
  c = ' ' || c = '\t'

/-- The cursor behind spaces and tabs. -/
def Cursor.skipSpaces (cursor : Cursor) : Cursor :=
  cursor.skipWhile isSpace

/-- Characters that comments and strings may hold. -/
def isPlain (c : Char) : Bool :=
  c = '\t' || (0x20 ≤ c.toNat && c ≠ '\x7f')

/-- The cursor behind a comment, if one starts here. -/
def Cursor.skipComment (cursor : Cursor) : Cursor :=
  match cursor.rest with
  | '#' :: _ => cursor.skipWhile isPlain
  | _ => cursor

/-- The cursor behind a line ending, if one starts here. -/
def Cursor.skipNewline? (cursor : Cursor) : Option Cursor :=
  match cursor.rest with
  | '\n' :: rest => some (cursor.skip ['\n'] rest)
  | '\r' :: '\n' :: rest => some (cursor.skip ['\r', '\n'] rest)
  | _ => none

/-- Reads one given character. -/
def readChar (c : Char) (cursor : Cursor) : Reading Unit :=
  match cursor.rest with
  | first :: rest => if first = c then .ok ((), cursor.skip [c] rest) else .error cursor.place
  | [] => .error cursor.place

/-! ## Strings -/

/-- The character of a one-letter escape. -/
def shortEscape? : Char → Option Char
  | 'b' => some '\x08'
  | 't' => some '\t'
  | 'n' => some '\n'
  | 'f' => some '\x0c'
  | 'r' => some '\r'
  | '"' => some '"'
  | '\\' => some '\\'
  | _ => none

/-- The character of a code written with the given count of hexadecimal digits. -/
def codeEscape? (count : Nat) (text : List Char) : Option Char :=
  let digits := text.take count
  let code := valueInBase 16 digits
  if digits.length = count ∧ digits.all (isDigitOf 16) ∧ code.isValidChar then
    some (Char.ofNat code)
  else none

/-- Reads an escape behind its backslash: the character, and how many characters the escape has. -/
def escape? : List Char → Option (Char × Nat)
  | 'u' :: rest => (codeEscape? 4 rest).map fun c => (c, 5)
  | 'U' :: rest => (codeEscape? 8 rest).map fun c => (c, 9)
  | c :: _ => (shortEscape? c).map fun c => (c, 1)
  | [] => none

/-- Adds a character in front of what a reader returned. -/
def consChar (c : Char) : Reading (List Char) → Reading (List Char)
  | .ok (content, cursor) => .ok (c :: content, cursor)
  | .error place => .error place

/-- Reads the content of a string on one line and its closing quote. While `skipping` is positive,
characters belong to an escape that was read. -/
def readLine (quote : Char) (escapes : Bool) : (skipping : Nat) → Position → List Char →
    Reading (List Char)
  | _, place, [] => .error place
  | skipping + 1, place, c :: rest => readLine quote escapes skipping (place.after c) rest
  | 0, place, c :: rest =>
    if c = quote then .ok ([], ⟨place.after c, rest⟩)
    else if escapes ∧ c = '\\' then
      match escape? rest with
      | some (plain, count) => consChar plain (readLine quote escapes count (place.after c) rest)
      | none => .error (place.after c)
    else if isPlain c then consChar c (readLine quote escapes 0 (place.after c) rest)
    else .error place

/-- How a string over several lines goes on. -/
inductive BlockMode where
  | content
  | escape (left : Nat)
  | joining
  | quotes (left : Nat)
deriving DecidableEq

/-- Whether a backslash ends its line, apart from blanks. -/
def endsLine (text : List Char) : Bool :=
  match text.dropWhile isSpace with
  | '\n' :: _ => true
  | '\r' :: '\n' :: _ => true
  | _ => false

/-- Reads the content of a string over several lines and its closing quotes. Up to two quotes may
stand in front of the closing three. A backslash at the end of a line joins it with the next
text. -/
def readBlock (quote : Char) (escapes : Bool) :
    BlockMode → Position → List Char → Reading (List Char)
  | _, place, [] => .error place
  | .escape (left + 1), place, c :: rest => readBlock quote escapes (.escape left)
      (place.after c) rest
  | .quotes (left + 1), place, c :: rest =>
    if left = 0 then .ok ([], ⟨place.after c, rest⟩)
    else readBlock quote escapes (.quotes left) (place.after c) rest
  | mode, place, c :: rest =>
    let crlf := c = '\r' && rest.head? = some '\n'
    if mode = .joining ∧ (isSpace c ∨ c = '\n' ∨ crlf) then
      readBlock quote escapes .joining (place.after c) rest
    else if c = quote then
      let count := ((c :: rest).takeWhile fun c => c = quote).length
      if 5 ≤ count then
        consChar c (consChar c (readBlock quote escapes (.quotes 4) (place.after c) rest))
      else if count = 4 then consChar c (readBlock quote escapes (.quotes 3) (place.after c) rest)
      else if count = 3 then readBlock quote escapes (.quotes 2) (place.after c) rest
      else consChar c (readBlock quote escapes .content (place.after c) rest)
    else if escapes ∧ c = '\\' then
      match escape? rest with
      | some (plain, count) =>
        consChar plain (readBlock quote escapes (.escape count) (place.after c) rest)
      | none =>
        if endsLine rest then readBlock quote escapes .joining (place.after c) rest
        else .error (place.after c)
    else if crlf then readBlock quote escapes .content (place.after c) rest
    else if c = '\n' ∨ isPlain c then
      consChar c (readBlock quote escapes .content (place.after c) rest)
    else .error place

/-- Drops a line ending right behind the opening quotes of a string over several lines. -/
def dropFirstNewline (cursor : Cursor) : Cursor :=
  cursor.skipNewline?.getD cursor

/-- Reads a string whose opening quote is ahead. -/
def readString (quote : Char) (block : Bool) (cursor : Cursor) : Reading (List Char) :=
  let escapes := quote = '"'
  match cursor.rest with
  | a :: b :: c :: rest =>
    if block ∧ a = quote ∧ b = quote ∧ c = quote then
      let inner := dropFirstNewline (cursor.skip [a, b, c] rest)
      readBlock quote escapes .content inner.place inner.rest
    else readLine quote escapes 0 (cursor.place.after a) (b :: c :: rest)
  | a :: rest => readLine quote escapes 0 (cursor.place.after a) rest
  | [] => .error cursor.place

/-! ## Keys -/

/-- The characters of bare keys. -/
def isKeyChar (c : Char) : Bool :=
  c.isAlphanum || c = '_' || c = '-'

/-- Reads one segment of a key. -/
def readKeySegment (cursor : Cursor) : Reading Key :=
  match cursor.rest with
  | '"' :: _ => quoted '"'
  | '\'' :: _ => quoted '\''
  | rest =>
    let name := rest.takeWhile isKeyChar
    if name.isEmpty then .error cursor.place
    else .ok (⟨String.ofList name, cursor.place⟩, cursor.skipWhile isKeyChar)
where
  /-- Reads a quoted segment. -/
  quoted (quote : Char) : Reading Key :=
    match readString quote false cursor with
    | .ok (content, next) => .ok (⟨String.ofList content, cursor.place⟩, next)
    | .error place => .error place

/-- Reads a key of one segment and more, with dots between them. Spaces may stand around each
segment. -/
def readKey : (fuel : Nat) → Cursor → Reading (List Key)
  | 0, cursor => .error cursor.place
  | fuel + 1, cursor =>
    match readKeySegment cursor.skipSpaces with
    | .error place => .error place
    | .ok (key, next) =>
      let next := next.skipSpaces
      match next.rest with
      | '.' :: rest =>
        match readKey fuel (next.skip ['.'] rest) with
        | .ok (keys, next) => .ok (key :: keys, next)
        | .error place => .error place
      | _ => .ok ([key], next)

/-- The most segments that a key may have. -/
def keyLimit : Nat := 79

/-! ## Values -/

/-- The cursor behind spaces, comments and line endings. -/
def skipBlanks : (fuel : Nat) → Cursor → Cursor
  | 0, cursor => cursor
  | fuel + 1, cursor =>
    let next := cursor.skipSpaces.skipComment
    match next.skipNewline? with
    | some next => skipBlanks fuel next
    | none => next

/-- The cursor behind spaces, comments and line endings. -/
def Cursor.skipBlanks (cursor : Cursor) : Cursor :=
  Manifest.skipBlanks (cursor.rest.length + 1) cursor

/-- Reads the items of an array behind its opening bracket or a comma. -/
def readItems (readItem : Cursor → Reading Item) : (fuel : Nat) → Cursor → Reading (List Item)
  | 0, cursor => .error cursor.place
  | fuel + 1, cursor =>
    let start := cursor.skipBlanks
    match start.rest with
    | ']' :: rest => .ok ([], start.skip [']'] rest)
    | _ =>
      match readItem start with
      | .error place => .error place
      | .ok (item, next) =>
        let next := next.skipBlanks
        match next.rest with
        | ',' :: rest =>
          match readItems readItem fuel (next.skip [','] rest) with
          | .ok (items, next) => .ok (item :: items, next)
          | .error place => .error place
        | ']' :: rest => .ok ([item], next.skip [']'] rest)
        | _ => .error next.place

/-- Reads the pairs of an inline table behind its opening brace. -/
def readPairs (readItem : Cursor → Reading Item) : (fuel : Nat) → Cursor →
    Reading (List (List Key × Item))
  | 0, cursor => .error cursor.place
  | fuel + 1, cursor =>
    match readKey keyLimit cursor with
    | .error place => .error place
    | .ok (keys, next) =>
      match readChar '=' next with
      | .error place => .error place
      | .ok (_, next) =>
        match readItem next.skipSpaces with
        | .error place => .error place
        | .ok (item, next) =>
          let next := next.skipSpaces
          match next.rest with
          | ',' :: rest =>
            match readPairs readItem fuel (next.skip [','] rest) with
            | .ok (pairs, next) => .ok ((keys, item) :: pairs, next)
            | .error place => .error place
          | '\x7d' :: rest => .ok ([(keys, item)], next.skip ['\x7d'] rest)
          | _ => .error next.place

/-- Adds a pair to the entries of an inline table. Only tables that dotted keys made may be
reopened. -/
def addPair (entries : Entries) (item : Item) : List Key → Option Entries
  | [] => none
  | [key] =>
    match findEntry? entries key.name with
    | some _ => none
    | none => some (entries ++ [(key, item)])
  | key :: rest =>
    match findEntry? entries key.name with
    | some (.table place? .dotted inner) =>
      (addPair inner item rest).map fun inner =>
        replaceEntry entries key.name (.table place? .dotted inner)
    | some _ => none
    | none => (addPair [] item rest).map fun inner => entries ++ [(key, .table none .dotted inner)]

/-- The entries of an inline table with the given pairs. -/
def pairEntries : Entries → List (List Key × Item) → Option Entries
  | entries, [] => some entries
  | entries, (keys, item) :: rest =>
    match addPair entries item keys with
    | some entries => pairEntries entries rest
    | none => none

/-- Reads a value. Arrays and inline tables may be nested to the given depth. -/
def readItem : (depth : Nat) → Cursor → Reading Item
  | depth, cursor =>
    match cursor.rest with
    | '"' :: _ => readText '"' cursor
    | '\'' :: _ => readText '\'' cursor
    | '[' :: rest =>
      match depth with
      | 0 => .error cursor.place
      | depth + 1 =>
        match readItems (readItem depth) (rest.length + 1) (cursor.skip ['['] rest) with
        | .ok (items, next) => .ok (.array cursor.place items, next)
        | .error place => .error place
    | '\x7b' :: rest =>
      match depth with
      | 0 => .error cursor.place
      | depth + 1 =>
        let start := cursor.skip ['\x7b'] rest
        match start.skipSpaces.rest with
        | '\x7d' :: rest =>
          .ok (.table (some cursor.place) .braces [], start.skipSpaces.skip ['\x7d'] rest)
        | _ =>
          match readPairs (readItem depth) (rest.length + 1) start with
          | .error place => .error place
          | .ok (pairs, next) =>
            match pairEntries [] pairs with
            | some entries => .ok (.table (some cursor.place) .braces entries, next)
            | none => .error start.place
    | rest =>
      let (taken, tail) := takeBare rest
      match bareItem? cursor.place taken with
      | some item => .ok (item, cursor.skip taken tail)
      | none => .error cursor.place
where
  /-- Reads a string value. -/
  readText (quote : Char) (cursor : Cursor) : Reading Item :=
    match readString quote true cursor with
    | .ok (content, next) => .ok (.text cursor.place (String.ofList content), next)
    | .error place => .error place

/-- How deep values may be nested. -/
def depthLimit : Nat := 79

/-- Reads the rest of a line: spaces, a comment, and the line ending or the end of the text. -/
def readLineEnd (cursor : Cursor) : Reading Unit :=
  let next := cursor.skipSpaces.skipComment
  match next.skipNewline? with
  | some next => .ok ((), next)
  | none => if next.rest.isEmpty then .ok ((), next) else .error next.place

end SchemaBindings.Manifest
