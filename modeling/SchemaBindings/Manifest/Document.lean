import SchemaBindings.Number.Binary64
import SchemaBindings.Text.Position

/-!
# TOML documents

A document is a table of items. Items and keys remember where they stand, so that what is wrong with
them can be reported there. Tables also remember how they came about, because TOML forbids some ways
of reopening them.
-/

namespace SchemaBindings.Manifest

open SchemaBindings.Number (Binary64)
open SchemaBindings.Text (Position)

/-- A key and the place where it is written. -/
structure Key where
  name : String
  place : Position
deriving DecidableEq

/-- How a table came about: by its own header, by the header of a table inside it, by a dotted key,
or between braces. -/
inductive TableOrigin where
  | header
  | implied
  | dotted
  | braces
deriving DecidableEq

/-- An item of a document. Tables without a place of their own are those that no header and no brace
opens. Tables written one by one under the same doubled header make up an array of tables. -/
inductive Item where
  | text (place : Position) (content : String)
  | integer (place : Position) (value : Int)
  | float (place : Position) (value : Binary64)
  | boolean (place : Position) (value : Bool)
  | datetime (place : Position)
  | array (place : Position) (items : List Item)
  | table (place? : Option Position) (origin : TableOrigin) (entries : List (Key × Item))
  | tables (items : List Item)

/-- The entries of a table, in the order in which they were added. -/
abbrev Entries := List (Key × Item)

/-- The place where an item starts. -/
def Item.place? : Item → Option Position
  | .text place _ => some place
  | .integer place _ => some place
  | .float place _ => some place
  | .boolean place _ => some place
  | .datetime place => some place
  | .array place _ => some place
  | .table place? _ _ => place?
  | .tables [] => none
  | .tables (first :: _) =>
    match first with
    | .table place? _ _ => place?
    | _ => none

/-- The item under a name. -/
def findEntry? (entries : Entries) (name : String) : Option Item :=
  (entries.find? fun entry => entry.1.name = name).map Prod.snd

/-- Entries with the item under a name replaced. -/
def replaceEntry (entries : Entries) (name : String) (item : Item) : Entries :=
  entries.map fun entry => if entry.1.name = name then (entry.1, item) else entry

/-- Entries without a name. -/
def removeEntry (entries : Entries) (name : String) : Entries :=
  entries.filter fun entry => entry.1.name ≠ name

end SchemaBindings.Manifest
