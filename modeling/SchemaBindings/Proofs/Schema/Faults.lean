import SchemaBindings.Proofs.Schema.Identifiers
import SchemaBindings.Proofs.Schema.Parsing

/-!
# What the faults of a file quote

A fault of the grammar names the token that was found, a name that was read, or the path of a
namespace. All of these are names of tokens, also where reading goes on after other faults, so they
are identifiers. A fault of the lexer quotes characters of the source: one that is not blank, one
behind a backslash, or the digits of a number.
-/

namespace SchemaBindings.Schema

open SchemaBindings.Text (Position isBlank)

/-! ## Faults of the lexer -/

/-- The faults that the lexer can find. Only behind a backslash can any character be at fault. -/
inductive LexicalFault.Quotes : LexicalFault → Prop
  | unexpectedCharacter {c : Char} (hblank : isBlank c = false) : Quotes (.unexpectedCharacter c)
  | unterminatedText : Quotes .unterminatedText
  | unknownEscape (c : Char) : Quotes (.unknownEscape c)
  | integerTooLarge (negative : Bool) {digits : List Char}
      (hdigits : ∀ c ∈ digits, c.isDigit = true) :
      Quotes (.integerTooLarge (signed negative digits))

/-- A text literal is at fault for an escape or because it does not end. -/
theorem quotes_of_readText {text : List Char} {fault : LexicalFault}
    (h : (readText text).value = .error fault) :
    fault.Quotes := by
  have hmap : ∀ {tail : Reading (Except LexicalFault (List Char))} {f : List Char → List Char},
      tail.value.map f = .error fault → tail.value = .error fault := by
    intro tail f hmap
    cases htail : tail.value with
    | error other => simpa [htail, Except.map] using hmap
    | ok content => simp [htail, Except.map] at hmap
  fun_induction readText text with
  | case1 => exact Except.error.inj h ▸ .unterminatedText
  | case2 rest => simp at h
  | case3 rest => exact Except.error.inj h ▸ .unterminatedText
  | case4 => exact Except.error.inj h ▸ .unterminatedText
  | case5 c rest => exact Except.error.inj h ▸ .unknownEscape c
  | case6 c rest plain _ tail ih => exact ih (hmap h)
  | case7 c rest _ _ _ _ tail ih => exact ih (hmap h)

/-- A number is at fault for its digits. -/
theorem quotes_of_readNumber {negative : Bool} {text : List Char} {fault : LexicalFault}
    (h : (readNumber negative text).value = .error fault) : fault.Quotes := by
  have hinteger : integerToken negative (text.takeWhile Char.isDigit) = .error fault →
      fault.Quotes := by
    intro hfault
    unfold integerToken at hfault
    dsimp only at hfault
    split at hfault
    · contradiction
    · exact Except.error.inj hfault ▸ .integerTooLarge negative fun c hc =>
        List.mem_takeWhile_imp hc
  unfold readNumber at h
  split at h
  · split at h
    · contradiction
    · exact hinteger h
  · exact hinteger h

/-- What the lexer finds at fault where it reads a token from a character that is not blank. -/
theorem quotes_of_readToken {first : Char} {rest : List Char} {fault : LexicalFault}
    (hblank : isBlank first = false) (h : (readToken first rest).value = .error fault) :
    fault.Quotes := by
  unfold readToken at h
  split at h
  · contradiction
  · split at h
    · cases htext : (readText rest).value with
      | error other =>
        obtain rfl : other = fault := by simpa [htext, Except.map] using h
        exact quotes_of_readText htext
      | ok content => simp [htext, Except.map] at h
    · split at h
      · simp [readDoc] at h
      · split at h
        · exact quotes_of_readNumber h
        · split at h
          · exact quotes_of_readNumber h
          · split at h
            · contradiction
            · exact Except.error.inj h ▸ .unexpectedCharacter hblank

/-- The faults of the lexer in a source. -/
theorem quotes_of_mem_faults {source : List Char} {fault : Located LexicalFault}
    (h : fault ∈ (lex source).faults) : fault.value.Quotes := by
  obtain ⟨item, hitem, hvalue⟩ := List.mem_filterMap.mp h
  split at hvalue
  · contradiction
  · next cause herror =>
    obtain rfl := Option.some.inj hvalue
    obtain ⟨first, rest, hblank, hread⟩ := readToken_of_mem_lex hitem
    rw [herror] at hread
    exact quotes_of_readToken hblank hread.symm

/-! ## Faults of the grammar -/

/-- The faults that the grammar can find: all names in them are identifiers. -/
inductive SyntaxFault.Spelled : SyntaxFault → Prop
  | expected (what : Expectation) {found : Option Token}
      (hfound : ∀ word, found = some (.name word) →
      IsIdentifier word) : Spelled (.expected what found)
  | misplacedNamespace {name : String} (hname : IsNamespace name) : Spelled
      (.misplacedNamespace name)
  | builtInTypeName {name : String} (hname : IsIdentifier name) : Spelled (.builtInTypeName name)
  | unclosedAtEnd {typeName : String} (hname : IsIdentifier typeName) : Spelled
      (.unclosedAtEnd typeName)
  | unclosedAtDeclaration {typeName : String} (hname : IsIdentifier typeName) :
      Spelled (.unclosedAtDeclaration typeName)
  | repeatedValidator (validator : Validator) : Spelled (.repeatedValidator validator)
  | unknownValidator {name : String} (hname : IsIdentifier name) : Spelled (.unknownValidator name)

/-- Whether all of some faults are spelled with identifiers. -/
def FaultsSpelled (faults : List (Located SyntaxFault)) : Prop :=
  ∀ fault ∈ faults, fault.value.Spelled

/-- No fault is at fault. -/
theorem faultsSpelled_nil : FaultsSpelled [] := by
  simp [FaultsSpelled]

/-- A single fault. -/
theorem faultsSpelled_singleton {fault : Located SyntaxFault} (h : fault.value.Spelled) :
    FaultsSpelled [fault] := by
  simpa [FaultsSpelled] using h

/-- Faults of two parts. -/
theorem FaultsSpelled.append {faults others : List (Located SyntaxFault)} (h : FaultsSpelled faults)
    (hothers : FaultsSpelled others) : FaultsSpelled (faults ++ others) :=
  List.forall_mem_append.mpr ⟨h, hothers⟩

/-- Something else was allowed in front of tokens. -/
theorem Stuck.spelled_expected (what : Expectation) {ahead : Tokens} (h : Named ahead) :
    (Stuck.expected what ahead).fault.Spelled := by
  refine .expected what fun word hfound => ?_
  cases ahead with
  | nil => simp [peek] at hfound
  | cons token rest =>
    have hvalue : token.value = .name word := by simpa [peek] using hfound
    exact h token List.mem_cons_self word hvalue

variable {ahead : Tokens} (hnamed : Named ahead)

include hnamed

/-- Where a punctuation mark is missing. -/
theorem spelled_of_readSymbol {mark : Symbol} {stuck : Stuck}
    (h : readSymbol mark ahead = .error stuck) :
    stuck.fault.Spelled := by
  unfold readSymbol at h
  split at h
  · split at h
    · contradiction
    · obtain rfl := Except.error.inj h
      exact Stuck.spelled_expected _ hnamed
  · obtain rfl := Except.error.inj h
    exact Stuck.spelled_expected _ hnamed

/-- Where a name is missing behind a dot. -/
theorem spelled_of_readSegments {stuck : Stuck} (h : readSegments ahead = .error stuck) :
    stuck.fault.Spelled := by
  fun_induction readSegments ahead with
  | case1 => contradiction
  | case2 dot place segment rest other hread ih =>
    obtain rfl := Except.error.inj h
    rw [named_cons_iff, named_cons_iff] at hnamed
    exact ih hnamed.2.2 hread
  | case3 dot rest _ =>
    obtain rfl := Except.error.inj h
    exact Stuck.spelled_expected _ ((named_cons_iff _ _).mp hnamed).2
  | case4 => contradiction

/-- Where a dotted name is at fault. -/
theorem spelled_of_readPath {what : Expectation} {stuck : Stuck}
    (h : readPath what ahead = .error stuck) :
    stuck.fault.Spelled := by
  unfold readPath at h
  split at h
  · split at h
    · contradiction
    · next hread =>
      obtain rfl := Except.error.inj h
      exact spelled_of_readSegments ((named_cons_iff _ _).mp hnamed).2 hread
  · obtain rfl := Except.error.inj h
    exact Stuck.spelled_expected _ hnamed

/-- Where a type is at fault. -/
theorem spelled_of_readType {stuck : Stuck} (h : readType ahead = .error stuck) :
    stuck.fault.Spelled := by
  fun_induction readType ahead with
  | case1 opening rest other hread ih =>
    obtain rfl := Except.error.inj h
    exact ih ((named_cons_iff _ _).mp hnamed).2 hread
  | case2 => contradiction
  | case3 opening rest element left hread other hclose ih =>
    obtain rfl := Except.error.inj h
    have hsuffix := readType_suffix rest
    rw [hread] at hsuffix
    exact spelled_of_readSymbol (((named_cons_iff _ _).mp hnamed).2.suffix hsuffix) hclose
  | case4 => contradiction
  | case5 ahead _ other hread =>
    obtain rfl := Except.error.inj h
    exact spelled_of_readPath hnamed hread

/-- Where a literal is missing. -/
theorem spelled_of_readLiteral {stuck : Stuck} (h : readLiteral ahead = .error stuck) :
    stuck.fault.Spelled := by
  unfold readLiteral at h
  split at h
  · split at h
    · contradiction
    · obtain rfl := Except.error.inj h
      exact Stuck.spelled_expected _ hnamed
  · obtain rfl := Except.error.inj h
    exact Stuck.spelled_expected _ hnamed

/-- Where a default value is at fault. -/
theorem spelled_of_readDefault {stuck : Stuck} (h : readDefault ahead = .error stuck) :
    stuck.fault.Spelled := by
  unfold readDefault at h
  split at h
  · split at h
    · contradiction
    · next hread =>
      obtain rfl := Except.error.inj h
      exact spelled_of_readLiteral ((named_cons_iff _ _).mp hnamed).2 hread
  · contradiction

/-- What is noted about validators, and where they are at fault. -/
theorem spelled_of_readValidators (given : List Validator) :
    FaultsSpelled (readValidators given ahead).faults ∧
      ∀ stuck, (readValidators given ahead).value = .error stuck → stuck.fault.Spelled := by
  fun_induction readValidators given ahead with
  | case1 given _ position name rest validator _ _ ih =>
    rw [named_cons_iff, named_cons_iff] at hnamed
    obtain ⟨hfaults, hstuck⟩ := ih hnamed.2.2
    exact ⟨(faultsSpelled_singleton (.repeatedValidator validator)).append hfaults, hstuck⟩
  | case2 given _ position name rest validator _ _ ih =>
    rw [named_cons_iff, named_cons_iff] at hnamed
    exact ih hnamed.2.2
  | case3 given _ position name rest _ ih =>
    rw [named_cons_iff, named_cons_iff] at hnamed
    obtain ⟨hfaults, hstuck⟩ := ih hnamed.2.2
    exact ⟨(faultsSpelled_singleton (.unknownValidator (hnamed.2.1 name rfl))).append hfaults,
      hstuck⟩
  | case4 given _ rest _ =>
    refine ⟨faultsSpelled_nil, fun stuck h => ?_⟩
    obtain rfl := Except.error.inj h
    exact Stuck.spelled_expected _ ((named_cons_iff _ _).mp hnamed).2
  | case5 given ahead _ _ => exact ⟨faultsSpelled_nil, fun stuck h => by contradiction⟩

/-- What is noted about a field, and where it is at fault. -/
theorem spelled_of_readField (name : String) (span : Span) (doc? : Option String) :
    FaultsSpelled (readField name span doc? ahead).faults ∧
      ∀ stuck, (readField name span doc? ahead).value = .error stuck → stuck.fault.Spelled := by
  unfold readField
  have hcolon := readSymbol_suffix .colon ahead
  split
  · next hread =>
    refine ⟨faultsSpelled_nil, fun stuck h => ?_⟩
    obtain rfl := Except.error.inj h
    exact spelled_of_readSymbol hnamed hread
  · next afterColon hread =>
    rw [hread] at hcolon
    have hafterColon := hnamed.suffix hcolon
    have htype := readType_suffix afterColon
    split
    · next hread =>
      refine ⟨faultsSpelled_nil, fun stuck h => ?_⟩
      obtain rfl := Except.error.inj h
      exact spelled_of_readType hafterColon hread
    · next type afterType hread =>
      rw [hread] at htype
      have hafterType := (hafterColon.suffix htype).suffix (readOptional_suffix afterType)
      have hdefault := readDefault_suffix (readOptional afterType).2
      dsimp only
      split
      · next hread =>
        refine ⟨faultsSpelled_nil, fun stuck h => ?_⟩
        obtain rfl := Except.error.inj h
        exact spelled_of_readDefault hafterType hread
      · next default? afterDefault hread =>
        rw [hread] at hdefault
        have hafterDefault : Named afterDefault := hafterType.suffix hdefault
        have hvalidators := spelled_of_readValidators hafterDefault []
        split
        · next hread =>
          rw [hread] at hvalidators
          refine ⟨hvalidators.1, fun stuck h => ?_⟩
          obtain rfl := Except.error.inj h
          exact hvalidators.2 _ rfl
        · next hread =>
          rw [hread] at hvalidators
          exact ⟨hvalidators.1, fun stuck h => by contradiction⟩

/-- What is noted where a field ends. -/
theorem faultsSpelled_endField (finish : Position) : FaultsSpelled (endField finish ahead).1 := by
  unfold endField
  split
  · exact faultsSpelled_nil
  · split
    · exact faultsSpelled_nil
    · exact faultsSpelled_singleton (Stuck.spelled_expected _ hnamed)

omit hnamed in
/-- What is noted about the place of a field. -/
theorem faultsSpelled_readEntry {token : Located Token} {rest : Tokens}
    (hnamed : Named (token :: rest)) (file : String) (finish : Position) (doc? : Option String) :
    FaultsSpelled (readEntry file finish doc? token rest).faults := by
  unfold readEntry
  split
  · next name _ =>
    have hrest := ((named_cons_iff _ _).mp hnamed).2
    have hfield := spelled_of_readField hrest name ⟨file, token.position⟩ doc?
    have hsuffix := readField_suffix name ⟨file, token.position⟩ doc? rest
    split
    · next faults field left hread =>
      rw [hread] at hfield hsuffix
      exact hfield.1.append (faultsSpelled_endField (hrest.suffix hsuffix) finish)
    · next faults stuck hread =>
      rw [hread] at hfield
      exact hfield.1.append (faultsSpelled_singleton (hfield.2 stuck rfl))
  · exact faultsSpelled_singleton (Stuck.spelled_expected _ hnamed)

/-- What is noted about the body of a type, and where it is at fault. -/
theorem spelled_of_readBody (file : String) (finish : Position) {typeName : String}
    (hname : IsIdentifier typeName) :
    FaultsSpelled (readBody file finish typeName ahead).faults ∧
      ∀ stuck, (readBody file finish typeName ahead).close = .error stuck →
        stuck.fault.Spelled := by
  fun_induction readBody file finish typeName ahead with
  | case1 =>
    refine ⟨faultsSpelled_nil, fun stuck h => ?_⟩
    obtain rfl := Except.error.inj h
    exact .unclosedAtEnd hname
  | case2 => exact ⟨faultsSpelled_nil, fun stuck h => by contradiction⟩
  | case3 =>
    refine ⟨faultsSpelled_nil, fun stuck h => ?_⟩
    obtain rfl := Except.error.inj h
    exact .unclosedAtDeclaration hname
  | case4 ahead token rest hdocs hclose hstart entry ih =>
    have hsuffix := takeDocs_suffix ahead
    rw [hdocs] at hsuffix
    have hhere := hnamed.suffix hsuffix
    have hentry := readEntry_suffix file finish (joinDocs (takeDocs ahead).1) token rest hclose
      (by simpa using hstart)
    obtain ⟨hfaults, hstuck⟩ := ih (((named_cons_iff _ _).mp hhere).2.suffix hentry)
    exact ⟨(faultsSpelled_readEntry hhere file finish _).append hfaults, hstuck⟩

/-- What is noted about a declaration, and where it is at fault. -/
theorem spelled_of_readDeclaration (file : String) (finish : Position) (namespacePath : String)
    (doc? : Option String) (position : Position) :
    FaultsSpelled (readDeclaration file finish namespacePath doc? position ahead).faults ∧
      ∀ stuck, (readDeclaration file finish namespacePath doc? position ahead).value =
          .error stuck →
        stuck.fault.Spelled := by
  unfold readDeclaration
  split
  · next place name rest =>
    obtain ⟨hname, hrest⟩ := (named_cons_iff _ _).mp hnamed
    have hbuiltIn : FaultsSpelled
        (if (Primitive.ofWord? name).isSome then [⟨place, .builtInTypeName name⟩] else []) := by
      split
      · exact faultsSpelled_singleton (.builtInTypeName (hname name rfl))
      · exact faultsSpelled_nil
    have hbrace := readSymbol_suffix .leftBrace rest
    dsimp only
    split
    · next other hread =>
      refine ⟨hbuiltIn, fun stuck h => ?_⟩
      obtain rfl := Except.error.inj h
      exact spelled_of_readSymbol hrest hread
    · next afterBrace hread =>
      rw [hread] at hbrace
      have hbody := spelled_of_readBody (hrest.suffix hbrace) file finish (hname name rfl)
      split
      · next other hclose =>
        refine ⟨hbuiltIn.append hbody.1, fun stuck h => ?_⟩
        obtain rfl := Except.error.inj h
        exact hbody.2 _ hclose
      · exact ⟨hbuiltIn.append hbody.1, fun stuck h => by contradiction⟩
  · refine ⟨faultsSpelled_nil, fun stuck h => ?_⟩
    obtain rfl := Except.error.inj h
    exact Stuck.spelled_expected _ hnamed

/-- A namespace that is read is one, and where its line is at fault. -/
theorem spelled_of_readNamespace :
    (∀ name left, readNamespace ahead = .ok (name, left) → IsNamespace name) ∧
      ∀ stuck, readNamespace ahead = .error stuck → stuck.fault.Spelled := by
  constructor
  · intro name left hread
    obtain ⟨path, segments, closing, rfl, hpath, rfl⟩ := path_of_readNamespace hread
    exact ⟨segments, hpath.spelled ((named_append_iff _ _).mp hnamed).1, rfl⟩
  · intro stuck hread
    unfold readNamespace at hread
    have hsuffix := readPath_suffix .namespaceName ahead
    split at hread
    · next hpath =>
      obtain rfl := Except.error.inj hread
      exact spelled_of_readPath hnamed hpath
    · next hpath =>
      rw [hpath] at hsuffix
      split at hread
      · next hmark =>
        obtain rfl := Except.error.inj hread
        exact spelled_of_readSymbol (hnamed.suffix hsuffix) hmark
      · contradiction

/-- What the grammar finds at fault in a file. -/
theorem faultsSpelled_readContents (file : String) (finish : Position)
    (namespacePath? : Option String) (started : Bool) :
    FaultsSpelled (readContents file finish namespacePath? started ahead).faults := by
  have hhead : ∀ {ahead rest : Tokens} {token : Located Token}, Named ahead →
      (takeDocs ahead).2 = token :: rest → Named (token :: rest) := by
    intro ahead rest token hnamed hdocs
    exact hdocs ▸ hnamed.suffix (takeDocs_suffix ahead)
  fun_induction readContents file finish namespacePath? started ahead with
  | case1 => exact faultsSpelled_nil
  | case2 namespacePath? started ahead token rest hdocs hword name left hread hfirst ih =>
    have hrest := ((named_cons_iff _ _).mp (hhead hnamed hdocs)).2
    have hsuffix := readNamespace_suffix rest
    rw [hread] at hsuffix
    have hname := (spelled_of_readNamespace hrest).1 name left hread
    exact (faultsSpelled_singleton (.misplacedNamespace hname)).append (ih (hrest.suffix hsuffix))
  | case3 namespacePath? started ahead token rest hdocs hword name left hread hfirst ih =>
    have hrest := ((named_cons_iff _ _).mp (hhead hnamed hdocs)).2
    have hsuffix := readNamespace_suffix rest
    rw [hread] at hsuffix
    exact ih (hrest.suffix hsuffix)
  | case4 namespacePath? started ahead token rest hdocs hword stuck hread ih =>
    have hrest := ((named_cons_iff _ _).mp (hhead hnamed hdocs)).2
    have hsuffix := readNamespace_suffix rest
    rw [hread] at hsuffix
    exact (faultsSpelled_singleton ((spelled_of_readNamespace hrest).2 stuck hread)).append
      (ih (hrest.suffix ((skipDeclaration_suffix 0 stuck.ahead).trans hsuffix)))
  | case5 namespacePath? started ahead token rest hdocs hnamespace htype doc? faults
      declaration left hread ih =>
    have hrest := ((named_cons_iff _ _).mp (hhead hnamed hdocs)).2
    have hsuffix :=
      readDeclaration_suffix file finish (namespacePath?.getD "") doc? token.position rest
    have hdeclaration :=
      spelled_of_readDeclaration hrest file finish (namespacePath?.getD "") doc? token.position
    rw [hread] at hsuffix hdeclaration
    exact hdeclaration.1.append (ih (hrest.suffix hsuffix))
  | case6 namespacePath? started ahead token rest hdocs hnamespace htype doc?
      faults stuck hread ih =>
    have hrest := ((named_cons_iff _ _).mp (hhead hnamed hdocs)).2
    have hsuffix :=
      readDeclaration_suffix file finish (namespacePath?.getD "") doc? token.position rest
    have hdeclaration :=
      spelled_of_readDeclaration hrest file finish (namespacePath?.getD "") doc? token.position
    rw [hread] at hsuffix hdeclaration
    exact (hdeclaration.1.append (faultsSpelled_singleton (hdeclaration.2 stuck rfl))).append
      (ih (hrest.suffix ((skipDeclaration_suffix 0 stuck.ahead).trans hsuffix)))
  | case7 namespacePath? started ahead token rest hdocs hnamespace htype ih =>
    have hhere := hhead hnamed hdocs
    exact (faultsSpelled_singleton (Stuck.spelled_expected _ hhere)).append
      (ih (((named_cons_iff _ _).mp hhere).2.suffix (skipDeclaration_suffix 0 rest)))

omit hnamed

/-! ## Errors of a file -/

/-- A source is refused with an error. -/
theorem ne_nil_of_parse {path source : String} {errors : List SyntaxError}
    (h : parse path source = .error errors) :
    errors ≠ [] := by
  rintro rfl
  simp only [parse] at h
  split at h
  · contradiction
  · next hfaults =>
    exact hfaults (List.map_eq_nil_iff.mp (Except.error.inj h))

/-- The errors of a refused source are what its lexing finds at fault and what reading its tokens
finds at fault. -/
theorem mem_iff_of_parse {path source : String} {errors : List SyntaxError}
    (h : parse path source = .error errors) (error : SyntaxError) :
    error ∈ errors ↔
      (∃ fault ∈ (lex source.toList).faults, error = ⟨⟨path, fault.position⟩,
        .lexical fault.value⟩) ∨
        ∃ fault ∈ (readContents path (lex source.toList).finish none false
          (lex source.toList).tokens).faults, error = ⟨⟨path, fault.position⟩, fault.value⟩ := by
  simp only [parse] at h
  split at h
  · contradiction
  · obtain rfl := Except.error.inj h
    have hperm := List.mergeSort_perm ((lex source.toList).faults.map (fun fault =>
      (⟨fault.position, .lexical fault.value⟩ : Located SyntaxFault)) ++
        (readContents path (lex source.toList).finish none false (lex source.toList).tokens).faults)
      fun a b => !b.position.before a.position
    simp only [sortFaults, List.mem_map, hperm.mem_iff, List.mem_append, or_and_right, exists_or,
      exists_exists_and_eq_and, eq_comm (a := error)]

/-- A source is parsed without an error only if its lexing finds nothing at fault and its names are
identifiers. -/
theorem spelled_of_parse {path source : String} {schema : SchemaFile}
    (h : parse path source = .ok schema) :
    (lex source.toList).faults = [] ∧
    ∀ declaration ∈ schema.declarations, declaration.Spelled path := by
  obtain ⟨hfaults, hfile⟩ := derived_of_parse h
  exact ⟨hfaults, hfile.spelled (named_lex _)⟩

end SchemaBindings.Schema
