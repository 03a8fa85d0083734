import SchemaBindings.Proofs.Schema.Reading
import SchemaBindings.Schema.Parser

/-!
# The loop over the fields of a type decides the grammar of bodies

In front of its closing brace a body is read as the grammar derives it. The loop notes a fault for
everything that is not derived, and a declaration that starts inside a body leaves it unclosed, so
that a body without a fault is one that the grammar derives.
-/

namespace SchemaBindings.Schema

open SchemaBindings.Text (Position)

/-! ## Doc comments -/

/-- Whether a doc comment line is ahead. -/
def StartsWithDoc (ahead : Tokens) : Prop :=
  ∃ line, peek ahead = some (.doc line)

/-- Doc comment lines are split off up to the first other token. -/
theorem takeDocs_append {docs : Tokens} {lines : List String} (h : Grammar.Docs docs lines)
    (rest : Tokens) (hrest : ¬ StartsWithDoc rest) : takeDocs (docs ++ rest) = (lines, rest) := by
  induction h with
  | nil =>
    rw [List.nil_append, takeDocs.eq_def]
    split
    · next line _ => exact absurd ⟨line, rfl⟩ hrest
    · rfl
  | cons place line _ ih => simp [takeDocs, ih]

/-- What is split off are doc comment lines, and no further one is ahead. -/
theorem docs_of_takeDocs (ahead : Tokens) :
    ∃ docs, ahead = docs ++ (takeDocs ahead).2 ∧ Grammar.Docs docs (takeDocs ahead).1 := by
  fun_induction takeDocs ahead with
  | case1 place line rest lines left hread ih =>
    rw [hread] at ih
    obtain ⟨docs, hrest, hdocs⟩ := ih
    exact ⟨_, congrArg _ hrest, .cons place line hdocs⟩
  | case2 ahead _ => exact ⟨[], rfl, .nil⟩

/-! ## Bodies -/

/-- What a body does next depends on the first token behind the doc comments ahead. -/
theorem readBody_of_takeDocs (file : String) (finish : Position) (typeName : String)
    {ahead rest : Tokens} {lines : List String} {token : Located Token}
    (htake : takeDocs ahead = (lines, token :: rest)) :
    readBody file finish typeName ahead =
      if token.value = .symbol .rightBrace then ⟨[], [], .ok rest⟩
      else if startsDeclaration (token :: rest) then
        ⟨[], [], .error ⟨.unclosedAtDeclaration typeName, token :: rest⟩⟩
      else
        (readBody file finish typeName
          (readEntry file finish (joinDocs lines) token rest).ahead).after
          (readEntry file finish (joinDocs lines) token rest) := by
  conv => lhs; rw [readBody]
  split
  · next h => simp [htake] at h
  · next first others h =>
    obtain ⟨rfl, rfl⟩ : token = first ∧ rest = others := by simpa [htake] using h
    rw [htake]
    rfl

/-- A closing brace behind doc comments ends a body. -/
theorem readBody_close (file : String) (finish : Position) (typeName : String) {docs : Tokens}
    {lines : List String} (hdocs : Grammar.Docs docs lines) (closing : Position) (rest : Tokens) :
    readBody file finish typeName (docs ++ ⟨closing, .symbol .rightBrace⟩ :: rest) =
      ⟨[], [], .ok rest⟩ := by
  have htake :=
    takeDocs_append hdocs (⟨closing, .symbol .rightBrace⟩ :: rest) (by simp [StartsWithDoc])
  rw [readBody_of_takeDocs file finish typeName htake, if_pos rfl]

/-- Another declaration does not end a body. -/
theorem readBody_startsDeclaration (file : String) (finish : Position) (typeName : String)
    {ahead : Tokens} (hstart : startsDeclaration ahead = true) :
    (readBody file finish typeName ahead).close =
      .error ⟨.unclosedAtDeclaration typeName, ahead⟩ := by
  have hahead := hstart
  unfold startsDeclaration at hahead
  split at hahead
  · next place word typePlace name opening rest =>
    rw [readBody_of_takeDocs file finish typeName (takeDocs.eq_def _),
      if_neg (by simp), if_pos hstart]
  · contradiction

/-- A field at the start of a body is followed by the rest of the body. -/
theorem readBody_entry (file : String) (finish : Position) (typeName : String) {docs : Tokens}
    {lines : List String} (hdocs : Grammar.Docs docs lines) (place colon : Position) (name : String)
    (rest : Tokens) :
    let entry := readEntry file finish (joinDocs lines) ⟨place, .name name⟩
      (⟨colon, .symbol .colon⟩ :: rest)
    readBody file finish typeName (docs ++ ⟨place, .name name⟩ :: ⟨colon, .symbol .colon⟩ :: rest) =
      (readBody file finish typeName entry.ahead).after entry := by
  have htake := takeDocs_append hdocs (⟨place, .name name⟩ :: ⟨colon, .symbol .colon⟩ :: rest)
    (by simp [StartsWithDoc])
  rw [readBody_of_takeDocs file finish typeName htake, if_neg (by simp),
    if_neg (by simp [startsDeclaration])]

/-- Behind a field that is read, a comma is dropped and a closing brace is left. -/
theorem endField_of_endsField (finish : Position) {ahead : Tokens} (h : EndsField ahead) :
    endField finish ahead = ([], dropComma ahead) := by
  cases ahead with
  | nil => simp [EndsField] at h
  | cons token rest =>
    obtain ⟨place, value⟩ := token
    rcases h with h | h
    · simp [endField, h]
    · have hvalue : value = .symbol .rightBrace := by simpa using h
      simp [endField, hvalue, closesBody, dropComma]

/-- Behind a field a body goes on where the field ends. -/
theorem readBody_field_append {file : String} {tokens : Tokens} {field : Field}
    (h : Grammar.Field file tokens field) (finish : Position) (typeName : String) {rest : Tokens}
    (hrest : LeavesField rest) :
    readBody file finish typeName (tokens ++ rest) =
      (readBody file finish typeName (endField finish rest).2).after
        ⟨some field, (endField finish rest).1, (endField finish rest).2⟩ := by
  cases h with
  | @mk place colon name docs typeTokens optionalTokens defaultTokens validatorTokens
      lines type optional
      default? validators hdocs htype hoptional hdefault hvalidators hdifferent =>
    have hread := @readField_append name ⟨file, place⟩ (joinDocs lines) _ _ _ _ _ _ _ _ colon htype
      hoptional hdefault hvalidators hdifferent rest hrest
    have hentry := readBody_entry file finish typeName hdocs place colon name
      (typeTokens ++ (optionalTokens ++ (defaultTokens ++ (validatorTokens ++ rest))))
    simp only [List.append_assoc, List.cons_append] at hentry ⊢
    rw [hentry]
    simp [readEntry, hread]

/-- A field is followed by the other fields behind its comma, or by the closing brace. -/
theorem readBody_field {file : String} {tokens : Tokens} {field : Field}
    (h : Grammar.Field file tokens field) (finish : Position) (typeName : String) {rest : Tokens}
    (hrest : EndsField rest) :
    readBody file finish typeName (tokens ++ rest) =
      (readBody file finish typeName (dropComma rest)).after ⟨some field, [], dropComma rest⟩ := by
  rw [readBody_field_append h finish typeName hrest.leavesField, endField_of_endsField finish hrest]

/-- The fields of a body are read up to its closing brace. -/
theorem readBody_fields {file : String} {tokens : Tokens} {fields : List Field}
    (h : Grammar.Fields file tokens fields) (finish : Position) (typeName : String)
    (closing : Position) (rest : Tokens) :
    readBody file finish typeName (tokens ++ ⟨closing, .symbol .rightBrace⟩ :: rest) =
      ⟨fields, [], .ok rest⟩ := by
  induction h with
  | last hfield =>
    have hclose := readBody_close file finish typeName .nil closing rest
    rw [List.nil_append] at hclose
    rw [readBody_field hfield finish typeName (Or.inr rfl)]
    simp [dropComma, Body.after, hclose]
  | lastComma comma hfield hdocs =>
    have hclose := readBody_close file finish typeName hdocs closing rest
    rw [List.append_assoc, List.cons_append, readBody_field hfield finish typeName (Or.inl rfl)]
    simp [dropComma, Body.after, hclose]
  | cons comma hfield _ ih =>
    rw [List.append_assoc, List.cons_append, readBody_field hfield finish typeName (Or.inl rfl)]
    simp [dropComma, Body.after, ih]

/-- A body is read up to its closing brace. -/
theorem readBody_append {file : String} {tokens : Tokens} {fields : List Field}
    (h : Grammar.Body file tokens fields) (finish : Position) (typeName : String)
    (closing : Position) (rest : Tokens) :
    readBody file finish typeName (tokens ++ ⟨closing, .symbol .rightBrace⟩ :: rest) =
      ⟨fields, [], .ok rest⟩ := by
  cases h with
  | empty hdocs => exact readBody_close file finish typeName hdocs closing rest
  | fields hfields => exact readBody_fields hfields finish typeName closing rest

/-- A field entry without a fault is a field, behind which the entry ends as fields do. -/
theorem field_of_readEntry {file : String} {finish : Position} {docs rest : Tokens}
    {lines : List String} {token : Located Token} (hdocs : Grammar.Docs docs lines)
    (h : (readEntry file finish (joinDocs lines) token rest).faults = []) :
    ∃ field tokens left, token :: rest = tokens ++ left ∧
      Grammar.Field file (docs ++ tokens) field ∧
      (endField finish left).1 = [] ∧
        readEntry file finish (joinDocs lines) token rest =
          ⟨some field, [], (endField finish left).2⟩ := by
  obtain ⟨place, value⟩ := token
  unfold readEntry at h ⊢
  split
  · next name hname =>
    obtain rfl : value = .name name := hname
    dsimp only at h ⊢
    split at h
    · next faults field left hread =>
      obtain ⟨rfl, hend⟩ : faults = [] ∧ (endField finish left).1 = [] := by simpa using h
      obtain ⟨tokens, rfl, hfield⟩ := field_of_readField hdocs hread
      exact ⟨field, _, left, rfl, hfield, hend, by simp [hend]⟩
    · next faults stuck hread => simp at h
  · next hname =>
    split at h
    · next name hvalue => exact absurd hvalue (hname name)
    · simp at h

/-- A field ends without a fault at a comma, at a closing brace or where a declaration starts. -/
theorem endField_eq_nil {finish : Position} {ahead : Tokens} (h : (endField finish ahead).1 = []) :
    (∃ comma, ahead = ⟨comma, .symbol .comma⟩ :: (endField finish ahead).2) ∨
      ((∃ closing rest, ahead = ⟨closing, .symbol .rightBrace⟩ :: rest) ∨
        startsDeclaration ahead = true) ∧
        (endField finish ahead).2 = ahead := by
  unfold endField at h ⊢
  split
  · next hcomma =>
    left
    match ahead, hcomma with
    | ⟨place, value⟩ :: rest, hcomma =>
      obtain rfl : value = .symbol .comma := by simpa using hcomma
      exact ⟨place, rfl⟩
  · next hcomma =>
    rw [if_neg hcomma] at h
    right
    split
    · next hends =>
      refine ⟨?_, rfl⟩
      rcases hends with hclose | hstart
      · left
        match ahead, hclose with
        | ⟨place, value⟩ :: rest, hclose =>
          obtain rfl : value = .symbol .rightBrace := by simpa [closesBody] using hclose
          exact ⟨place, rest, rfl⟩
      · exact Or.inr hstart
    · next hends => simp [hends] at h

/-- A body that is read without a fault is derived, up to its closing brace. -/
theorem body_of_readBody {file : String} {finish : Position} {typeName : String}
    {ahead rest : Tokens} {fields : List Field}
    (h : readBody file finish typeName ahead = ⟨fields, [], .ok rest⟩) :
    ∃ tokens closing, ahead = tokens ++ ⟨closing, .symbol .rightBrace⟩ :: rest ∧
      Grammar.Body file tokens fields := by
  fun_induction readBody file finish typeName ahead generalizing fields with
  | case1 => simp at h
  | case2 ahead token others hdocs hclose =>
    obtain ⟨rfl, rfl⟩ : [] = fields ∧ others = rest := by simpa using h
    obtain ⟨docs, hahead, hlines⟩ := docs_of_takeDocs ahead
    obtain ⟨place, value⟩ := token
    obtain rfl : value = .symbol .rightBrace := hclose
    exact ⟨docs, place, hdocs ▸ hahead, .empty hlines⟩
  | case3 => simp at h
  | case4 ahead token others htake hclose hstart entry =>
    rename_i ih
    obtain ⟨docs, hahead, hdocs⟩ := docs_of_takeDocs ahead
    generalize hbody : readBody file finish typeName entry.ahead = body at h ih
    obtain ⟨bodyFields, bodyFaults, close⟩ := body
    obtain ⟨hfields, ⟨hentry, rfl⟩, rfl⟩ :
        entry.field?.toList ++ bodyFields = fields ∧ (entry.faults = [] ∧ bodyFaults = []) ∧
          close = .ok rest := by
      simpa [Body.after] using h
    obtain ⟨field, tokens, left, hleft, hfield, hend, heq⟩ := field_of_readEntry hdocs hentry
    rw [show entry = ⟨some field, [], (endField finish left).2⟩ from heq] at hfields hbody ih
    obtain rfl : field :: bodyFields = fields := hfields
    rw [hahead, htake, hleft, ← List.append_assoc]
    rcases endField_eq_nil hend with ⟨comma, hcomma⟩ | ⟨hends, hsame⟩
    · obtain ⟨others, closing, hothers, hgrammar⟩ := ih rfl
      rw [hcomma]
      dsimp only at hothers
      rw [hothers]
      cases hgrammar with
      | empty hlines => exact ⟨_, closing, by simp, .fields (.lastComma comma hfield hlines)⟩
      | fields hfields => exact ⟨_, closing, by simp, .fields (.cons comma hfield hfields)⟩
    · dsimp only at hbody
      rw [hsame] at hbody
      rcases hends with ⟨closing, behind, rfl⟩ | hstart
      · have hclosed := readBody_close file finish typeName .nil closing behind
        rw [List.nil_append, hbody] at hclosed
        obtain ⟨rfl, rfl⟩ : bodyFields = [] ∧ rest = behind := by simpa using hclosed
        exact ⟨_, closing, rfl, .fields (.last hfield)⟩
      · have hunclosed := readBody_startsDeclaration file finish typeName hstart
        simp [hbody] at hunclosed

end SchemaBindings.Schema
