import SchemaBindings.Manifest.Basic
import SchemaBindings.Manifest.Fault
import SchemaBindings.Manifest.Tables

/-!
# From documents to manifests

Entries are taken in the order of the document, and the first fault counts; what is missing is
noticed at the end of a table. A fault without a place of its own is reported where the innermost
item with a place starts. A record may also be written as an array of its fields in order.
-/

namespace SchemaBindings.Manifest

open SchemaBindings.Bindings (Language NamingOptions)
open SchemaBindings.Naming (Case)
open SchemaBindings.Text (Position)

/-- A decoded value or the first fault. -/
abbrev Decoded (α : Type) := Except Fault α

/-- Gives faults without a place the given one. -/
def locating {α : Type} (place? : Option Position) : Decoded α → Decoded α
  | .ok value => .ok value
  | .error fault => .error (fault.orAt place?)

/-- A fault whose place is still to be found. -/
def fault {α : Type} (cause : Cause) : Decoded α :=
  .error ⟨cause, none⟩

/-- How messages show an item of the wrong type. -/
def Item.found : Item → Found
  | .text _ content => .text content
  | .integer _ value => .integer value
  | .float _ value => .float value
  | .boolean _ value => .boolean value
  | .datetime _ => .map
  | .array _ _ => .sequence
  | .table _ _ _ => .map
  | .tables _ => .sequence

/-- The kind of an item, as one message names it. -/
def Item.kind : Item → String
  | .text _ _ => "string"
  | .integer _ _ => "integer"
  | .float _ _ => "float"
  | .boolean _ _ => "boolean"
  | .datetime _ => "datetime"
  | .array _ _ => "array"
  | .table _ .braces _ => "inline table"
  | .table _ _ _ => "table"
  | .tables _ => "array of tables"

/-- The items of an array of either form. -/
def Item.items? : Item → Option (List Item)
  | .array _ items => some items
  | .tables items => some items
  | _ => none

/-- Decodes a string. -/
def decodeText (wanted : Wanted) (item : Item) : Decoded String :=
  match item with
  | .text _ content => .ok content
  | item => locating item.place? (fault (.wrongType item.found wanted))

/-- Decodes an array, item by item. -/
def decodeList {α : Type} (decode : Item → Decoded α) (item : Item) : Decoded (List α) :=
  locating item.place?
    (match item.items? with
      | some items => items.mapM decode
      | none => fault (.wrongType item.found .sequence))

/-! ## Words -/

/-- The value that a word stands for. -/
def decodeWord {α : Type} (words : List (String × α)) (name : String) : Decoded α :=
  match words.lookup name with
  | some value => .ok value
  | none => fault (.unknownVariant name (words.map Prod.fst))

/-- Whether an item is an array or a table that holds nothing. -/
def ensureNoContent (item : Item) : Decoded Unit :=
  locating item.place?
    (match item with
      | .table _ _ entries => if entries.isEmpty then .ok () else fault (.variantWithContent none)
      | .array _ items => if items.isEmpty then .ok () else fault (.variantWithContent none)
      | .tables items => if items.isEmpty then .ok () else fault (.variantWithContent none)
      | item => fault (.variantWithContent (some item.kind)))

/-- Decodes one of several words. A word may also be the only key of a table, with nothing under
it. -/
def decodeVariant {α : Type} (words : List (String × α)) (item : Item) : Decoded α :=
  locating item.place?
    (match item with
      | .text _ content => decodeWord words content
      | .table _ _ [] => fault (.notOneVariant false)
      | .table _ _ [(key, content)] =>
        match locating (some key.place) (decodeWord words key.name) with
        | .error error => .error error
        | .ok value => (ensureNoContent content).map fun _ => value
      | .table _ _ _ => fault (.notOneVariant true)
      | _ => fault .notAWord)

/-- The languages with their words. -/
def languageWords : List (String × Language) :=
  Language.all.map fun language => (language.word, language)

/-- The cases with their words. -/
def caseWords : List (String × Case) :=
  [("pascal", .pascal), ("camel", .camel), ("snake", .snake), ("screaming-snake", .screamingSnake),
    ("preserve", .preserve)]

/-! ## Records -/

/-- The key under which a date shows itself to a record. -/
def datetimeKey : String := "$__toml_private_datetime"

/-- The entries of a record, and whether they were written as an array. -/
def recordEntries (fields : List String) (wanted : Wanted) (item : Item) :
    Decoded (Entries × Bool) :=
  match item with
  | .table _ _ entries => .ok (entries, false)
  | .datetime _ => fault (.unknownField datetimeKey fields)
  | item =>
    match item.items? with
    | some items => .ok ((fields.map fun name => (⟨name, .start⟩ : Key)).zip items, true)
    | none => fault (.wrongType item.found wanted)

/-- Decodes entries one by one into a record in the making. -/
def decodeEntries {σ : Type} (fields : List String) (set : σ → String → Item → Decoded σ) :
    σ → Entries → Decoded σ
  | state, [] => .ok state
  | state, (key, item) :: rest =>
    if key.name ∉ fields then locating (some key.place) (fault (.unknownField key.name fields))
    else
      match locating (item.place?.or (some key.place)) (set state key.name item) with
      | .ok state => decodeEntries fields set state rest
      | .error error => .error error

/-- A field that has to be there. -/
def required {α : Type} (name : String) (index : Nat) (wanted : Wanted) (size : Nat)
    (asArray : Bool) :
    Option α → Decoded α
  | some value => .ok value
  | none => fault (if asArray then .tooShort index wanted size else .missingField name)

/-- Decodes naming options. -/
def decodeNaming (item : Item) : Decoded NamingOptions :=
  let fields := ["types", "fields"]
  let set := fun (options : NamingOptions) (name : String) (item : Item) =>
    (decodeVariant caseWords item).map fun case =>
      if name = "types" then { options with types? := some case }
      else { options with fields? := some case }
  locating item.place? (do
    let (entries, _) ← recordEntries fields .naming item
    decodeEntries fields set .none entries)

/-- A target in the making. -/
structure TargetDraft where
  language? : Option Language
  output? : Option String
  naming : NamingOptions

/-- Decodes a target. -/
def decodeTarget (item : Item) : Decoded Target :=
  let fields := ["language", "output", "naming"]
  let set := fun (draft : TargetDraft) (name : String) (item : Item) =>
    if name = "language" then
      (decodeVariant languageWords item).map
        fun language => { draft with language? := some language }
    else if name = "output" then
      (decodeText .path item).map fun output => { draft with output? := some output }
    else (decodeNaming item).map fun naming => { draft with naming := naming }
  locating item.place? (do
    let (entries, asArray) ← recordEntries fields .target item
    let draft ← decodeEntries fields set ⟨none, none, .none⟩ entries
    let language ← required "language" 0 .target 3 asArray draft.language?
    let output ← required "output" 1 .target 3 asArray draft.output?
    return ⟨language, output, draft.naming⟩)

/-- A manifest in the making. -/
structure ManifestDraft where
  name? : Option String
  schemas? : Option (List String)
  targets : List Target

/-- Decodes the entries of a document. -/
def decodeManifest (entries : Entries) : Decoded Manifest :=
  let fields := ["name", "schemas", "targets"]
  let set := fun (draft : ManifestDraft) (name : String) (item : Item) =>
    if name = "name" then (decodeText .text item).map fun value =>
      { draft with name? := some value }
    else if name = "schemas" then
      (decodeList (decodeText .text) item).map fun value => { draft with schemas? := some value }
    else (decodeList decodeTarget item).map fun value => { draft with targets := value }
  match decodeEntries fields set ⟨none, none, []⟩ entries with
  | .error error => .error error
  | .ok draft =>
    match draft.name?, draft.schemas? with
    | some name, some schemas => .ok ⟨name, schemas, draft.targets⟩
    | none, _ => fault (.missingField "name")
    | some _, none => fault (.missingField "schemas")

/-- Reads a manifest from the text of a file. -/
def read (file : String) (text : String) : Except ManifestError Manifest :=
  match readDocument text.toList with
  | .error place => .error ⟨file, place, .malformed⟩
  | .ok entries =>
    match decodeManifest entries with
    | .ok manifest => .ok manifest
    | .error fault => .error ⟨file, fault.place?.getD .start, fault.cause⟩

end SchemaBindings.Manifest
