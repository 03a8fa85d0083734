import SchemaBindings.Proofs.Graph.Meaning
import SchemaBindings.Proofs.Schema.Body

/-!
# Parsing decides the grammar of files

The loop over declarations notes a fault for everything that the grammar does not derive, and for
nothing else. So a file is parsed exactly if it has no lexical fault and its tokens are derived, and
the declarations are those of the derivation.
-/

namespace SchemaBindings.Schema

open SchemaBindings.Text (Position)

/-! ## Declarations and the namespace -/

/-- A declaration is read, behind the word that starts it, up to its closing brace. -/
theorem readDeclaration_append {file name : String} {body : Tokens} {fields : List Field}
    (hname : ∀ kind : Primitive, kind.word ≠ name) (hbody : Grammar.Body file body fields)
    (finish : Position) (namespacePath : String) (doc? : Option String)
    (position place opening closing : Position) (rest : Tokens) :
    readDeclaration file finish namespacePath doc? position
        (⟨place, .name name⟩ :: ⟨opening, .symbol .leftBrace⟩ ::
          (body ++ ⟨closing, .symbol .rightBrace⟩ :: rest)) =
      ⟨[], .ok (⟨name, namespacePath, fields, doc?, ⟨file, position⟩⟩, rest)⟩ := by
  have hread := readBody_append hbody finish name closing rest
  simp [readDeclaration, readSymbol, (Graph.ofWord?_eq_none_iff name).mpr hname, hread]

/-- A declaration that is read without a fault is derived. -/
theorem declaration_of_readDeclaration {file namespacePath : String} {finish position : Position}
    {docs ahead rest : Tokens} {lines : List String} {declaration : TypeDecl}
    (hdocs : Grammar.Docs docs lines)
    (h : readDeclaration file finish namespacePath (joinDocs lines) position ahead =
      ⟨[], .ok (declaration, rest)⟩) :
    ∃ tokens, ahead = tokens ++ rest ∧
      Grammar.Declaration file namespacePath (docs ++ ⟨position, .name "type"⟩ :: tokens)
        declaration := by
  unfold readDeclaration at h
  split at h
  · next place name others =>
    dsimp only at h
    split at h
    · simp at h
    · next afterBrace hbrace =>
      obtain ⟨opening, rfl⟩ := (readSymbol_eq_ok_iff ..).mp hbrace
      generalize hread : readBody file finish name afterBrace = body at h
      obtain ⟨fields, faults, close⟩ := body
      cases close with
      | error stuck => simp at h
      | ok behind =>
        obtain ⟨⟨hname, rfl⟩, rfl, rfl⟩ :
            (Primitive.ofWord? name = none ∧ faults = []) ∧
              ⟨name, namespacePath, fields, joinDocs lines, ⟨file, position⟩⟩ = declaration ∧
                behind = rest := by
          simpa using h
        obtain ⟨body, closing, rfl, hbody⟩ := body_of_readBody hread
        refine ⟨_, ?_, .mk position place opening closing name hdocs
          ((Graph.ofWord?_eq_none_iff name).mp hname) hbody⟩
        simp
  · simp at h

/-- The path of a namespace is read up to its semicolon. -/
theorem readNamespace_append {path : Tokens} {segments : List String}
    (h : Grammar.Path path segments) (closing : Position) (rest : Tokens) :
    readNamespace (path ++ ⟨closing, .symbol .semicolon⟩ :: rest) =
      .ok (dotted segments, rest) := by
  cases h with
  | mk place first htokens =>
    have hread := readPath_append (.mk place first htokens) .namespaceName
      (⟨closing, .symbol .semicolon⟩ :: rest) (by simp)
    rw [List.cons_append] at hread ⊢
    simp [readNamespace, hread, readSymbol]

/-- A path of a namespace that is read is derived. -/
theorem path_of_readNamespace {ahead rest : Tokens} {name : String}
    (h : readNamespace ahead = .ok (name, rest)) :
    ∃ path segments closing, ahead = path ++ ⟨closing, .symbol .semicolon⟩ :: rest ∧
      Grammar.Path path segments ∧ name = dotted segments := by
  unfold readNamespace at h
  split at h
  · contradiction
  · next first segments behind hread =>
    obtain ⟨path, rfl, hpath⟩ := path_of_readPath hread
    split at h
    · contradiction
    · next left hmark =>
      obtain ⟨closing, rfl⟩ := (readSymbol_eq_ok_iff ..).mp hmark
      obtain ⟨rfl, rfl⟩ : dotted (first :: segments) = name ∧ left = rest := by simpa using h
      exact ⟨path, first :: segments, closing, rfl, hpath, rfl⟩

/-! ## Files -/

/-- Doc comments at the end of a file mean nothing. -/
theorem readContents_docs (file : String) (finish : Position) (namespacePath? : Option String)
    (started : Bool) {docs : Tokens} {lines : List String} (hdocs : Grammar.Docs docs lines) :
    readContents file finish namespacePath? started docs = ⟨namespacePath?, [], []⟩ := by
  have htake := takeDocs_append hdocs [] (by simp [StartsWithDoc])
  rw [List.append_nil] at htake
  rw [readContents]
  split
  · rfl
  · next h => simp [htake] at h

/-- A namespace line at the start of a file names the namespace in which the rest is read, or is a
fault. -/
theorem readContents_namespace (file : String) (finish : Position) {place : Position}
    {ahead rest : Tokens} {lines : List String}
    (htake : takeDocs ahead = (lines, ⟨place, .name "namespace"⟩ :: rest)) :
    readContents file finish none false ahead =
      match readNamespace rest with
      | .ok (name, left) => readContents file finish (some name) false left
      | .error stuck =>
        (readContents file finish none false (skipDeclaration 0 stuck.ahead)).after
          [stuck.located finish] := by
  conv => lhs; rw [readContents]
  split
  · next h => simp [htake] at h
  · next token others h =>
    obtain ⟨rfl, rfl⟩ : ⟨place, .name "namespace"⟩ = token ∧
      rest = others := by simpa [htake] using h
    rw [if_pos rfl]
    split
    · next name left hread => simp [hread]
    · next stuck hread => rw [hread]

/-- Behind a declaration that is read up to its end, the rest is read after a start. -/
theorem readContents_of_readDeclaration {file : String} {finish place : Position}
    {namespacePath? : Option String} {started : Bool} {ahead rest left : Tokens}
    {lines : List String} {declaration : TypeDecl} {faults : List (Located SyntaxFault)}
    (htake : takeDocs ahead = (lines, ⟨place, .name "type"⟩ :: rest))
    (hread : readDeclaration file finish (namespacePath?.getD "") (joinDocs lines) place rest =
      ⟨faults, .ok (declaration, left)⟩) :
    readContents file finish namespacePath? started ahead =
      ((readContents file finish namespacePath? true left).declare declaration).after faults := by
  conv => lhs; rw [readContents]
  split
  · next h => simp [htake] at h
  · next token others h =>
    obtain ⟨rfl, rfl⟩ : ⟨place, .name "type"⟩ = token ∧ rest = others := by simpa [htake] using h
    rw [if_neg (by simp), if_pos rfl]
    dsimp only
    rw [htake]
    split
    · next noted found behind h =>
      obtain ⟨rfl, rfl, rfl⟩ : faults = noted ∧ declaration = found ∧ left = behind := by
        simpa [hread] using h
      rfl
    · next h => simp [hread] at h

/-- A declaration is followed by the other declarations of its file. -/
theorem readContents_declaration {file : String} {namespacePath? : Option String} {tokens : Tokens}
    {declaration : TypeDecl}
    (h : Grammar.Declaration file (namespacePath?.getD "") tokens declaration) (finish : Position)
    (started : Bool) (rest : Tokens) :
    readContents file finish namespacePath? started (tokens ++ rest) =
      (readContents file finish namespacePath? true rest).declare declaration := by
  cases h with
  | @mk position place opening closing name docs body lines fields hdocs hname hbody =>
    have hread := readDeclaration_append hname hbody finish (namespacePath?.getD "")
      (joinDocs lines) position place opening closing rest
    simp only [List.append_assoc, List.cons_append, List.nil_append]
    generalize htokens : ⟨place, .name name⟩ :: ⟨opening, .symbol .leftBrace⟩ ::
      (body ++ ⟨closing, .symbol .rightBrace⟩ :: rest) = behind at hread ⊢
    have htake :=
      takeDocs_append hdocs (⟨position, .name "type"⟩ :: behind) (by simp [StartsWithDoc])
    exact readContents_of_readDeclaration htake hread

/-- Declarations and doc comments behind them are the rest of a file. -/
theorem readContents_declarations {file : String} {namespacePath? : Option String}
    {tokens docs : Tokens} {declarations : List TypeDecl} {lines : List String}
    (h : Grammar.Declarations file (namespacePath?.getD "") tokens declarations)
    (hdocs : Grammar.Docs docs lines) (finish : Position) (started : Bool) :
    readContents file finish namespacePath? started (tokens ++ docs) =
      ⟨namespacePath?, declarations, []⟩ := by
  induction h generalizing started with
  | nil => exact readContents_docs file finish namespacePath? started hdocs
  | cons hdeclaration _ ih =>
    rw [List.append_assoc, readContents_declaration hdeclaration, ih]
    rfl

/-- A namespace line at the start of a file is followed by the declarations in that namespace. -/
theorem readContents_header {docs path : Tokens} {lines segments : List String}
    (hdocs : Grammar.Docs docs lines) (hpath : Grammar.Path path segments) (file : String)
    (finish place closing : Position) (rest : Tokens) :
    readContents file finish none false
        (docs ++ ⟨place, .name "namespace"⟩ :: (path ++ ⟨closing, .symbol .semicolon⟩ :: rest)) =
      readContents file finish (some (dotted segments)) false rest := by
  have hread := readNamespace_append hpath closing rest
  generalize path ++ ⟨closing, .symbol .semicolon⟩ :: rest = behind at hread ⊢
  have htake :=
    takeDocs_append hdocs (⟨place, .name "namespace"⟩ :: behind) (by simp [StartsWithDoc])
  rw [readContents_namespace file finish htake, hread]

/-- The tokens of a derived file are read as the grammar says. -/
theorem readContents_of_derived {file : String} {tokens : Tokens} {schema : SchemaFile}
    (h : Grammar.File file tokens schema) (finish : Position) :
    ∃ namespacePath?, schema = ⟨file, namespacePath?.getD "", schema.declarations⟩ ∧
      readContents file finish none false tokens = ⟨namespacePath?, schema.declarations, []⟩ := by
  cases h with
  | @mk header _ _ _ namespacePath? _ hheader hdeclarations htrailing =>
    refine ⟨namespacePath?, rfl, ?_⟩
    cases hheader with
    | absent => exact readContents_declarations hdeclarations htrailing finish false
    | present place closing hdocs hpath =>
      simp only [List.append_assoc, List.cons_append, List.nil_append]
      rw [readContents_header hdocs hpath, readContents_declarations hdeclarations htrailing]

/-- Whether the namespace of a file is settled: it was given, a declaration was read, or no
namespace line is ahead. -/
def Settled (namespacePath? : Option String) (started : Bool) (ahead : Tokens) : Prop :=
  namespacePath?.isSome ∨ started ∨
    ∀ token rest, (takeDocs ahead).2 = token :: rest → token.value ≠ .name "namespace"

/-- Once the namespace is settled, what is read without a fault is declarations. -/
theorem declarations_of_readContents {file : String} {finish : Position}
    {namespacePath? found? : Option String} {started : Bool} {ahead : Tokens}
    {declarations : List TypeDecl} (hsettled : Settled namespacePath? started ahead)
    (h : readContents file finish namespacePath? started ahead = ⟨found?, declarations, []⟩) :
    found? = namespacePath? ∧ ∃ tokens docs lines, ahead = tokens ++ docs ∧
      Grammar.Declarations file (namespacePath?.getD "") tokens declarations ∧
      Grammar.Docs docs lines := by
  fun_induction readContents file finish namespacePath? started ahead generalizing declarations with
  | case1 namespacePath? started ahead htake =>
    obtain ⟨rfl, rfl⟩ : namespacePath? = found? ∧ [] = declarations := by simpa using h
    obtain ⟨docs, hahead, hdocs⟩ := docs_of_takeDocs ahead
    rw [htake, List.append_nil] at hahead
    exact ⟨rfl, [], docs, _, hahead, .nil, hdocs⟩
  | case2 => simp [Contents.after] at h
  | case3 namespacePath? started ahead token rest htake hword name left hread hfirst =>
    rcases hsettled with hgiven | hstarted | hnone
    · exact absurd (Or.inl hgiven) hfirst
    · exact absurd (Or.inr hstarted) hfirst
    · exact absurd hword (hnone token rest htake)
  | case4 => simp [Contents.after] at h
  | case5 namespacePath? started ahead token rest htake hnamespace htype doc? faults
      declaration left hread =>
    rename_i ih
    obtain ⟨docs, hahead, hdocs⟩ := docs_of_takeDocs ahead
    generalize hcontents : readContents file finish namespacePath? true left = contents at h ih
    obtain ⟨inner?, others, innerFaults⟩ := contents
    obtain ⟨rfl, rfl, rfl, rfl⟩ :
        inner? = found? ∧ declaration :: others = declarations ∧ faults = [] ∧
        innerFaults = [] := by
      simpa [Contents.after, Contents.declare] using h
    obtain ⟨rfl, tokens, trailing, lines, rfl, hothers, htrailing⟩ :=
      ih (Or.inr (Or.inl rfl)) rfl
    obtain ⟨place, value⟩ := token
    obtain rfl : value = .name "type" := htype
    obtain ⟨body, rfl, hdeclaration⟩ := declaration_of_readDeclaration hdocs hread
    refine ⟨rfl, _, trailing, lines, ?_, .cons hdeclaration hothers, htrailing⟩
    rw [htake] at hahead
    simpa using hahead
  | case6 => simp [Contents.after] at h
  | case7 => simp [Contents.after] at h

/-- What is read from the start of a file without a fault is derived. -/
theorem file_of_readContents {file : String} {finish : Position} {ahead : Tokens}
    {namespacePath? : Option String} {declarations : List TypeDecl}
    (h : readContents file finish none false ahead = ⟨namespacePath?, declarations, []⟩) :
    Grammar.File file ahead ⟨file, namespacePath?.getD "", declarations⟩ := by
  by_cases hline : ∃ token rest, (takeDocs ahead).2 = token :: rest ∧
    token.value = .name "namespace"
  · obtain ⟨⟨place, value⟩, rest, htake, hvalue⟩ := hline
    obtain rfl : value = .name "namespace" := hvalue
    obtain ⟨docs, hahead, hdocs⟩ := docs_of_takeDocs ahead
    rw [readContents_namespace file finish (Prod.ext rfl htake)] at h
    split at h
    · next name left hread =>
      obtain ⟨path, segments, closing, rfl, hpath, rfl⟩ := path_of_readNamespace hread
      obtain ⟨rfl, tokens, trailing, lines, rfl, hdeclarations, htrailing⟩ :=
        declarations_of_readContents (Or.inl rfl) h
      have hfile := Grammar.File.mk (.present place closing hdocs hpath) hdeclarations htrailing
      rw [hahead, htake]
      simpa using hfile
    · simp [Contents.after] at h
  · obtain ⟨rfl, tokens, docs, lines, rfl, hdeclarations, hdocs⟩ := by
      refine declarations_of_readContents (Or.inr (Or.inr fun token rest htake hvalue => ?_)) h
      exact hline ⟨token, rest, htake, hvalue⟩
    exact .mk .absent hdeclarations hdocs

/-! ## Parsing -/

/-- Sorting faults neither adds nor drops any. -/
theorem sortFaults_eq_nil_iff (faults : List (Located SyntaxFault)) :
    sortFaults faults = [] ↔ faults = [] := by
  unfold sortFaults
  rw [← List.length_eq_zero_iff, List.length_mergeSort, List.length_eq_zero_iff]

/-- A source is parsed exactly if it has no lexical fault and its tokens are read without a
fault. -/
theorem parse_eq_ok_iff_readContents (path source : String) (schema : SchemaFile) :
    parse path source = .ok schema ↔
      (lex source.toList).faults = [] ∧
        ∃ namespacePath? declarations, schema = ⟨path, namespacePath?.getD "", declarations⟩ ∧
          readContents path (lex source.toList).finish none false (lex source.toList).tokens =
            ⟨namespacePath?, declarations, []⟩ := by
  dsimp only [parse]
  generalize readContents path (lex source.toList).finish none false (lex source.toList).tokens =
    contents
  obtain ⟨namespacePath?, declarations, faults⟩ := contents
  dsimp only
  split
  · next hsorted =>
    obtain ⟨hlexical, rfl⟩ : (lex source.toList).faults = [] ∧ faults = [] := by
      simpa using (sortFaults_eq_nil_iff _).mp hsorted
    simp [hlexical, eq_comm]
  · next hsorted =>
    have hfaulty : ¬ ((lex source.toList).faults = [] ∧ faults = []) := by
      intro h
      obtain ⟨hlexical, rfl⟩ := h
      exact hsorted ((sortFaults_eq_nil_iff _).mpr (by simp [hlexical]))
    constructor
    · intro h
      contradiction
    · intro h
      obtain ⟨hlexical, _, _, _, hread⟩ := h
      exact absurd ⟨hlexical, congrArg Contents.faults hread⟩ hfaulty

/-- A source without a lexical fault whose tokens are derived is parsed as the grammar says. -/
theorem parse_of_derived {path source : String} {schema : SchemaFile}
    (hlex : (lex source.toList).faults = [])
    (h : Grammar.File path (lex source.toList).tokens schema) : parse path source = .ok schema := by
  obtain ⟨namespacePath?, hschema, hread⟩ := readContents_of_derived h (lex source.toList).finish
  exact (parse_eq_ok_iff_readContents path source schema).mpr ⟨hlex, _, _, hschema, hread⟩

/-- What is parsed has no lexical fault, and its tokens are derived. -/
theorem derived_of_parse {path source : String} {schema : SchemaFile}
    (h : parse path source = .ok schema) :
    (lex source.toList).faults = [] ∧ Grammar.File path (lex source.toList).tokens schema := by
  obtain ⟨hlex, namespacePath?, declarations, rfl, hread⟩ :=
    (parse_eq_ok_iff_readContents path source schema).mp h
  exact ⟨hlex, file_of_readContents hread⟩

/-- Parsing accepts a source exactly if it has no lexical fault and its tokens are derivable, and
gives the declarations of the derivation: those in the order of the source, all in the namespace of
the file, each with its own doc comment, types, optionality, default values and validators. -/
theorem parse_eq_ok_iff (path source : String) (schema : SchemaFile) :
    parse path source = .ok schema ↔
      (lex source.toList).faults = [] ∧ Grammar.File path (lex source.toList).tokens schema := by
  constructor
  · exact derived_of_parse
  · intro h
    obtain ⟨hlex, hderived⟩ := h
    exact parse_of_derived hlex hderived

end SchemaBindings.Schema
