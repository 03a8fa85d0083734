import SchemaBindings.Manifest.Reader

/-!
# Putting a TOML document together

Keys belong to the table of the header above them. A table may be opened once only: by its header,
by dotted keys or between braces. A table that merely contains one with a header may still get a
header of its own, and a doubled header adds a table to an array.
-/

namespace SchemaBindings.Manifest

open SchemaBindings.Text (Position)

/-- Changes the entries of the table at a path and makes the tables on the way. A dotted path may
not enter tables with headers; no path may enter values. -/
def descend {α : Type} (dotted : Bool) (change : TableOrigin → Entries → Option (Entries × α)) :
    List Key → TableOrigin → Entries → Option (Entries × α)
  | [], origin, entries => change origin entries
  | key :: rest, _, entries =>
    match findEntry? entries key.name with
    | none =>
      let origin := if dotted then .dotted else .implied
      (descend dotted change rest origin []).map fun (inner, result) =>
        (entries ++ [(key, .table none origin inner)], result)
    | some (.table place? origin inner) =>
      if origin = .braces ∨ (dotted ∧ origin = .header) then none
      else
        (descend dotted change rest origin inner).map fun (inner, result) =>
          (replaceEntry entries key.name (.table place? origin inner), result)
    | some (.tables items) =>
      match items.getLast? with
      | some (.table place? origin inner) =>
        (descend dotted change rest origin inner).map fun (inner, result) =>
          (replaceEntry entries key.name (.tables (items.dropLast ++ [.table place? origin inner])),
            result)
      | _ => none
    | some _ => none

/-- A document in the making: the tables that are complete, and the table that keys are added to,
with the path and the place of its header. -/
structure Draft where
  root : Entries
  path : List Key
  doubled : Bool
  place : Position
  entries : Entries

/-- The document before its first line. -/
def Draft.empty : Draft := ⟨[], [], false, .start, []⟩

/-- Adds an item to the current table, under a key that may be dotted. -/
def Draft.add (draft : Draft) (keys : List Key) (item : Item) : Option Draft :=
  match keys.getLast? with
  | none => none
  | some last =>
    let path := keys.dropLast
    let insert := fun (origin : TableOrigin) (entries : Entries) =>
      if (origin = .dotted ↔ path.isEmpty) then none
      else
        match findEntry? entries last.name with
        | some _ => none
        | none => some (entries ++ [(last, item)], ())
    (descend true insert path .header draft.entries).map fun (entries, _) =>
      { draft with entries := entries }

/-- Adds the current table to the complete ones. -/
def Draft.close (draft : Draft) : Option Entries :=
  match draft.path.getLast? with
  | none => some draft.entries
  | some last =>
    let table : Item := .table (some draft.place) .header draft.entries
    let insert := fun (_ : TableOrigin) (entries : Entries) =>
      match findEntry? entries last.name with
      | none => some (entries ++ [(last, if draft.doubled then .tables [table] else table)], ())
      | some (.tables items) =>
        if draft.doubled then
          some (replaceEntry entries last.name (.tables (items ++ [table])), ())
        else none
      | some _ => none
    (descend false insert draft.path.dropLast .header draft.root).map Prod.fst

/-- Goes on with the table that a header at `place` opens. -/
def Draft.open (draft : Draft) (keys : List Key) (doubled : Bool) (place : Position) :
    Option Draft :=
  match draft.close, keys.getLast? with
  | some root, some last =>
    let prepare := fun (_ : TableOrigin) (entries : Entries) =>
      match findEntry? entries last.name with
      | none => some (if doubled then entries ++ [(last, .tables [])] else entries, ([] : Entries))
      | some (.tables _) => if doubled then some (entries, []) else none
      | some (.table _ .implied inner) =>
        if doubled then none else some (removeEntry entries last.name, inner)
      | some _ => none
    (descend false prepare keys.dropLast .header root).map fun (root, inner) =>
      ⟨root, keys, doubled, place, inner⟩
  | _, _ => none

/-- Reads a header whose opening brackets were read. -/
def readHeader (doubled : Bool) (cursor : Cursor) : Reading (List Key) :=
  match readKey keyLimit cursor with
  | .error place => .error place
  | .ok (keys, next) =>
    match readChar ']' next with
    | .error place => .error place
    | .ok (_, next) =>
      match if doubled then readChar ']' next else .ok ((), next) with
      | .error place => .error place
      | .ok (_, next) =>
        match readLineEnd next with
        | .error place => .error place
        | .ok (_, next) => .ok (keys, next)

/-- Reads a key and its value. -/
def readEntry (cursor : Cursor) : Reading (List Key × Item) :=
  match readKey keyLimit cursor with
  | .error place => .error place
  | .ok (keys, next) =>
    match readChar '=' next with
    | .error place => .error place
    | .ok (_, next) =>
      match readItem depthLimit next.skipSpaces with
      | .error place => .error place
      | .ok (item, next) =>
        match readLineEnd next with
        | .error place => .error place
        | .ok (_, next) => .ok ((keys, item), next)

/-- The result of an operation that must not reopen a table, or the place to report. -/
def orAt {α : Type} (place : Position) : Option α → Except Position α
  | some value => .ok value
  | none => .error place

/-- Reads lines into a draft. -/
def readLines : (fuel : Nat) → Draft → Cursor → Except Position Draft
  | 0, _, cursor => .error cursor.place
  | fuel + 1, draft, cursor =>
    let start := cursor.skipSpaces
    match start.rest with
    | [] => .ok draft
    | '[' :: '[' :: rest => do
      let (keys, next) ← readHeader true (start.skip ['[', '['] rest)
      readLines fuel (← orAt start.place (draft.open keys true start.place)) next
    | '[' :: rest => do
      let (keys, next) ← readHeader false (start.skip ['['] rest)
      readLines fuel (← orAt start.place (draft.open keys false start.place)) next
    | c :: _ => do
      if c = '#' ∨ c = '\n' ∨ c = '\r' then
        let (_, next) ← readLineEnd start
        readLines fuel draft next
      else
        let ((keys, item), next) ← readEntry start
        readLines fuel (← orAt start.place (draft.add keys item)) next

/-- Reads a document, or finds the place where it goes wrong. A byte order mark may stand in
front. -/
def readDocument (text : List Char) : Except Position Entries := do
  let start : Cursor := ⟨.start, text⟩
  let start :=
    match text with
    | '\uFEFF' :: rest => start.skip ['\uFEFF'] rest
    | _ => start
  let draft ← readLines (text.length + 1) .empty start
  orAt .start draft.close

end SchemaBindings.Manifest
