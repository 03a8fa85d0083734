import SchemaBindings.Glob.Pattern
import SchemaBindings.Path.Basic

/-!
# Globs

A glob is a pattern for paths, taken piece by piece. A piece without wildcards is a step as it
stands, so the paths that a glob finds keep such pieces as they are written.
-/

namespace SchemaBindings

namespace Glob

/-- One step on the way to what a glob finds. -/
inductive Step where
  | literal (name : String)
  | pattern (tokens : List Token)
  | anyDepth
deriving DecidableEq

/-- The character that a token stands for, if it is no wildcard. -/
def Token.char? : Token → Option Char
  | .char c => some c
  | _ => none

/-- The step for the tokens of a piece. -/
def Step.ofTokens (tokens : List Token) : Step :=
  if tokens = [.anyDepth] then .anyDepth
  else
    match tokens.mapM Token.char? with
    | some name => .literal (String.ofList name)
    | none => .pattern tokens

/-- Whether a name fits a step. -/
def Step.admits (step : Step) (name : String) : Bool :=
  match step with
  | .literal text => name = text
  | .pattern tokens => fits tokens name.toList
  | .anyDepth => true

/-- Steps in which any depth does not follow on any depth, which would mean nothing more. -/
def Step.collapse : List Step → List Step
  | .anyDepth :: .anyDepth :: rest => collapse (.anyDepth :: rest)
  | step :: rest => step :: collapse rest
  | [] => []

end Glob

/-- A glob. One that ends with a slash finds directories only. -/
structure Glob where
  absolute : Bool
  steps : List Glob.Step
  directoriesOnly : Bool
deriving DecidableEq

namespace Glob

/-- The pieces of a text, of which the last one does not count if it is empty. -/
def steps? (text : List Char) : Except PatternFault (List Step) :=
  let pieces := Path.split text
  let counted := if pieces.getLast? = some [] then pieces.dropLast else pieces
  (counted.mapM (readTokens true)).map fun tokens => Step.collapse (tokens.map .ofTokens)

/-- Reads a glob. The text has to be a pattern as a whole and in every piece. -/
def ofText (text : List Char) : Except PatternFault Glob := do
  let _ ← readTokens true text
  let directoriesOnly := text.getLast? = some '/'
  match text with
  | ['/'] => return ⟨true, [.literal ""], directoriesOnly⟩
  | '/' :: rest => return ⟨true, ← steps? rest, directoriesOnly⟩
  | text => return ⟨false, ← steps? text, directoriesOnly⟩

end Glob

end SchemaBindings
