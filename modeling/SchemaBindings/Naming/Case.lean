import SchemaBindings.Text.LetterCase

/-!
# Words and cases of a name

A name is split into words at characters that are neither letters nor digits and where its case
changes: `HTTPServer` has the words `HTTP` and `Server`, and `vec2d` is one word. A case writes the
words again, each in its own way. Names without any word stay as they are.
-/

namespace SchemaBindings.Naming

open SchemaBindings.Text

/-- How the words of a name are put together. -/
inductive Case where
  | pascal
  | camel
  | snake
  | screamingSnake
  | preserve
deriving DecidableEq

/-- Whether a word starts at the upper-case letter `c` behind `previous` and in front of `rest`. -/
def startsWord (previous c : Char) (rest : List Char) : Bool :=
  isUppercase c &&
    (isLowercase previous || previous.isDigit ||
      (isUppercase previous && (rest.head?.map isLowercase).getD false))

/-- The words of a text that continues the word `current`, of which no character may be missing. -/
def wordsFrom (current : List Char) : List Char → List (List Char)
  | [] => if current.isEmpty then [] else [current]
  | c :: rest =>
    if !isAlphanumeric c then
      if current.isEmpty then wordsFrom [] rest else current :: wordsFrom [] rest
    else
      match current.getLast? with
      | some previous =>
        if startsWord previous c rest then current :: wordsFrom [c] rest
        else wordsFrom (current ++ [c]) rest
      | none => wordsFrom [c] rest

/-- The words of a name. -/
def splitWords (name : List Char) : List (List Char) :=
  wordsFrom [] name

/-- A word with its first letter raised and the others lowered one by one. -/
def capitalize : List Char → List Char
  | [] => []
  | first :: rest => upperOf first ++ rest.flatMap lowerOf

/-- Words with underscores between them. -/
def joinWords (words : List (List Char)) : List Char :=
  List.intercalate ['_'] words

/-- The words of a name in a case. -/
def Case.join (case : Case) (words : List (List Char)) : List Char :=
  match case, words with
  | .pascal, words => words.flatMap capitalize
  | .camel, [] => []
  | .camel, first :: rest => toLower first ++ rest.flatMap capitalize
  | .snake, words => joinWords (words.map toLower)
  | .screamingSnake, words => joinWords (words.map toUpper)
  | .preserve, words => words.flatten

/-- A name in a case. -/
def Case.applyChars (case : Case) (name : List Char) : List Char :=
  if case = .preserve ∨ (splitWords name).isEmpty then name else case.join (splitWords name)

/-- A name in a case. -/
def Case.apply (case : Case) (name : String) : String :=
  String.ofList (case.applyChars name.toList)

end SchemaBindings.Naming
