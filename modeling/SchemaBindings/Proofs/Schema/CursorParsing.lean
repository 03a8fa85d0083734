import SchemaBindings.Proofs.Schema.CursorSteps
import SchemaBindings.Proofs.Schema.FaultOrder
import SchemaBindings.Proofs.Schema.Faults

/-!
# Parsing with a cursor

Fields, bodies and declarations are parsed with a cursor as they are read from the tokens ahead,
also where parsing goes on behind a fault. So all loops over fields and declarations come to an end
at the end mark, and no check fails on the way.

The errors of a source are in reading order, and each stands at a token, at a lexical error or at
the end.
-/

namespace SchemaBindings.Schema

open SchemaBindings.Text (Position)

namespace Cursor

section Steps

variable {lexing : Lexing} {ahead rest : Tokens} {token : Located Token}
  {faults : List (Located SyntaxFault)} {namespacePath? : Option String}

/-! ## Fields -/

/-- Behind the name of a field, parsing on the stream reads what the reader of fields reads. -/
theorem run_parseField_cons {position : Position} {name : String}
    (h : ⟨position, .name name⟩ :: rest <:+ lexing.tokens) (file : String) (doc? : Option String) :
    run (parseField lexing.stream file doc?) (standing lexing (⟨position, .name name⟩ :: rest)
      faults namespacePath?) =
      reached lexing (faults ++ (readField name ⟨file, position⟩ doc? rest).faults) namespacePath?
        (readField name ⟨file, position⟩ doc? rest).value := by
  have hrest := (List.suffix_cons _ _).trans h
  rw [parseField, run_bind_of_ok (run_expectName_cons h _)]
  dsimp only
  unfold readField
  split
  · next stuck hcolon =>
    rw [List.append_nil]
    exact run_bind_of_error (run_of_read_error (run_expectSymbol hrest _) hcolon)
  next afterColon hcolon =>
  have hsuffix := (suffix_of_read_ok (readSymbol_suffix .colon rest) hcolon).trans hrest
  rw [run_bind_of_ok (run_of_read_ok (run_expectSymbol hrest _) hcolon)]
  split
  · next stuck htype =>
    rw [List.append_nil]
    exact run_bind_of_error (run_of_read_error (run_parseType hsuffix) htype)
  next type afterType htype =>
  have hsuffix' := (suffix_of_read_ok (readType_suffix afterColon) htype).trans hsuffix
  have hoptional := (readOptional_suffix afterType).trans hsuffix'
  rw [run_bind_of_ok (run_of_read_ok (run_parseType hsuffix) htype),
    run_bind_of_ok (run_parseOptional hsuffix')]
  dsimp only
  split
  · next stuck hdefault =>
    rw [List.append_nil]
    exact run_bind_of_error (run_of_read_error (run_parseDefault hoptional) hdefault)
  next default? afterDefault hdefault =>
  have hleft :=
    (suffix_of_read_ok (readDefault_suffix (readOptional afterType).2) hdefault).trans hoptional
  rw [run_bind_of_ok (run_of_read_ok (run_parseDefault hoptional) hdefault)]
  split
  · next noted stuck hread =>
      exact run_bind_of_error (run_of_noted_error (run_parseValidators hleft []) hread)
  · next noted validators left hread =>
      exact run_bind_of_ok (run_of_noted_ok (run_parseValidators hleft []) hread)

/-- Where no name is ahead, parsing a field stops. -/
theorem run_parseField (h : ahead <:+ lexing.tokens)
    (hname : ∀ position name rest, ahead ≠ ⟨position, .name name⟩ :: rest) (file : String)
    (doc? : Option String) :
    run (parseField lexing.stream file doc?) (standing lexing ahead faults namespacePath?) =
      some (.error ((Stuck.expected .fieldName ahead).located lexing.finish),
        standing lexing ahead faults namespacePath?) :=
  run_bind_of_error (run_expectName h _ hname)

/-- The end of a field is taken as it is read. -/
theorem run_finishField (h : ahead <:+ lexing.tokens) :
    run (finishField lexing.stream) (standing lexing ahead faults namespacePath?) =
      some (.ok (), standing lexing (endField lexing.finish ahead).2
        (faults ++ (endField lexing.finish ahead).1) namespacePath?) := by
  rw [finishField, run_bind_of_ok (run_current h), endField]
  dsimp only
  have hcloses : closesBody ahead = true ↔ peek ahead = some (.symbol .rightBrace) := by
    cases ahead <;> simp [closesBody, peek]
  by_cases hcomma : peek ahead = some (.symbol .comma)
  · rw [if_pos hcomma, if_pos hcomma, List.append_nil]
    have htake : run (takeComma lexing.stream) (standing lexing ahead faults namespacePath?) = _ :=
      run_takeComma h
    rwa [takeComma, run_bind_of_ok (run_peek h), if_pos hcomma] at htake
  rw [if_neg hcomma, if_neg hcomma]
  by_cases hbrace : peek ahead = some (.symbol .rightBrace)
  · rw [if_pos hbrace, if_pos (.inl (hcloses.mpr hbrace)), List.append_nil]
    rfl
  rw [if_neg hbrace, run_bind_of_ok (run_atDeclaration h)]
  by_cases hstart : startsDeclaration ahead = true
  · rw [if_pos hstart, if_pos (.inr hstart), List.append_nil]
    rfl
  rw [if_neg hstart, if_neg (not_or.mpr ⟨fun hclosed => hbrace (hcloses.mp hclosed), hstart⟩),
    run_bind_of_ok (run_note _)]
  exact run_resume h

/-- An entry is parsed as it is read. -/
theorem run_parseEntry (h : token :: rest <:+ lexing.tokens) (file : String)
    (doc? : Option String) :
    run (parseEntry lexing.stream file doc?) (standing lexing (token :: rest)
      faults namespacePath?) = some (.ok (readEntry file lexing.finish doc? token rest).field?,
        standing lexing (readEntry file lexing.finish doc? token rest).ahead
          (faults ++ (readEntry file lexing.finish doc? token rest).faults) namespacePath?) := by
  have hrest := (List.suffix_cons _ _).trans h
  unfold readEntry
  split
  · next name hname =>
    obtain ⟨position, value⟩ := token
    subst hname
    have hsuffix := readField_suffix name ⟨file, position⟩ doc? rest
    rw [parseEntry]
    split
    · next noted field left hread =>
      have hleft := (suffix_of_read_ok hsuffix (congrArg Noted.value hread)).trans hrest
      rw [run_bind_of_ok (run_observing (run_of_noted_ok (run_parseField_cons h file doc?) hread))]
      dsimp only
      rw [run_bind_of_ok (run_finishField hleft), List.append_assoc]
      rfl
    · next noted stuck hread =>
      have hleft := (suffix_of_read_error hsuffix (congrArg Noted.value hread)).trans hrest
      rw [run_bind_of_ok
        (run_observing (run_of_noted_error (run_parseField_cons h file doc?) hread))]
      dsimp only
      rw [run_bind_of_ok (run_note _), run_bind_of_ok (run_resume hleft), List.append_assoc]
      rfl
  · next hother =>
    have hname : ∀ position name others, token :: rest ≠ ⟨position, .name name⟩ :: others := by
      intro position name others heq
      obtain ⟨rfl, -⟩ := List.cons.inj heq
      exact hother name rfl
    rw [parseEntry, run_bind_of_ok (run_observing (run_parseField h hname file doc?))]
    dsimp only
    rw [run_bind_of_ok (run_note _), run_bind_of_ok (run_resume h)]
    rfl

/-- Bodies are parsed as they are read. Each entry takes a token, so they come to an end. -/
theorem run_parseBody (h : ahead <:+ lexing.tokens) (file typeName : String) :
    run (lexing.stream.parseBody file typeName) (standing lexing ahead faults namespacePath?) =
      reached lexing (faults ++ (readBody file lexing.finish typeName ahead).faults) namespacePath?
        ((readBody file lexing.finish typeName ahead).close.map fun left =>
          ((readBody file lexing.finish typeName ahead).fields, left)) := by
  fun_induction readBody file lexing.finish typeName ahead generalizing faults with
  | case1 ahead hdocs =>
    rw [TokenStream.parseBody, run_bind_of_ok (run_takeDocs h), hdocs, run_bind_of_ok run_peek_nil,
      if_neg (Option.some_ne_none _).symm, if_pos rfl, run_stop List.nil_suffix, List.append_nil]
    rfl
  | case2 ahead token rest hdocs hclose =>
    have hbehind : token :: rest <:+ lexing.tokens := hdocs ▸ (takeDocs_suffix ahead).trans h
    rw [TokenStream.parseBody, run_bind_of_ok (run_takeDocs h), hdocs,
      run_bind_of_ok (run_peek_cons hbehind), if_pos (congrArg some hclose), run_bind_of_ok
        (run_advance hbehind), List.append_nil]
    rfl
  | case3 ahead token rest hdocs hclose hstart =>
    have hbehind : token :: rest <:+ lexing.tokens := hdocs ▸ (takeDocs_suffix ahead).trans h
    rw [TokenStream.parseBody, run_bind_of_ok (run_takeDocs h), hdocs,
      run_bind_of_ok (run_peek_cons hbehind), if_neg fun hsome => hclose (Option.some.inj hsome),
        if_neg (Option.some_ne_none _),
      run_bind_of_ok (run_atDeclaration hbehind), if_pos hstart, run_stop hbehind, List.append_nil]
    rfl
  | case4 ahead token rest hdocs hclose hstart entry =>
    rename_i ih
    have hbehind : token :: rest <:+ lexing.tokens := hdocs ▸ (takeDocs_suffix ahead).trans h
    have hentry := readEntry_suffix file lexing.finish (joinDocs (Schema.takeDocs ahead).1)
      token rest hclose (by simpa using hstart)
    have hbody := fun faults => @ih faults ((hentry.trans (List.suffix_cons _ _)).trans hbehind)
    rw [TokenStream.parseBody, run_bind_of_ok (run_takeDocs h), hdocs,
      run_bind_of_ok (run_peek_cons hbehind), if_neg fun hsome => hclose (Option.some.inj hsome),
        if_neg (Option.some_ne_none _),
      run_bind_of_ok (run_atDeclaration hbehind), if_neg hstart, run_bind_of_ok
        (run_parseEntry hbehind file _)]
    simp only [Body.after, ← List.append_assoc]
    cases hread : (readBody file lexing.finish typeName entry.ahead).close with
    | error stuck => exact run_bind_of_error (run_of_read_error (hbody _) (congrArg _ hread))
    | ok left => exact run_bind_of_ok (run_of_read_ok (hbody _) (congrArg _ hread))

/-! ## Declarations -/

/-- Behind its keyword, parsing a namespace on the stream reads what the reader of namespaces reads.
-/
theorem run_parseNamespace (h : ahead <:+ lexing.tokens) :
    run (parseNamespace lexing.stream) (standing lexing ahead faults namespacePath?) =
      reached lexing faults namespacePath? (readNamespace ahead) := by
  unfold readNamespace
  rw [parseNamespace]
  split
  · next stuck hread => exact run_bind_of_error (run_of_read_error (run_parsePath h _) hread)
  next first segments left hread =>
  have hleft := (suffix_of_read_ok (readPath_suffix _ ahead) hread).trans h
  rw [run_bind_of_ok (run_of_read_ok (run_parsePath h _) hread)]
  dsimp only
  split
  · next stuck hmark => exact run_bind_of_error (run_of_read_error (run_expectSymbol hleft _) hmark)
  · next hmark => exact run_bind_of_ok (run_of_read_ok (run_expectSymbol hleft _) hmark)

/-- The name of a built-in type is noted. -/
theorem run_noteBuiltIn (name : String) (position : Position) :
    run (noteBuiltIn name position) (standing lexing ahead faults namespacePath?) =
      some (.ok (), standing lexing ahead
        (faults ++ if (Primitive.ofWord? name).isSome then [⟨position, .builtInTypeName name⟩]
          else []) namespacePath?) := by
  rw [noteBuiltIn]
  split
  · exact run_note _
  · rw [List.append_nil]
    rfl

/-- Declarations are parsed as they are read behind their first word. -/
theorem run_parseDeclaration (h : token :: rest <:+ lexing.tokens) (file : String)
    (doc? : Option String) :
    run (parseDeclaration lexing.stream file doc?) (standing lexing (token :: rest)
      faults namespacePath?) =
      reached lexing
        (faults ++ (readDeclaration file lexing.finish (namespacePath?.getD "") doc?
          token.position rest).faults)
        namespacePath? (readDeclaration file lexing.finish (namespacePath?.getD "") doc?
          token.position rest).value := by
  have hrest := (List.suffix_cons _ _).trans h
  rw [parseDeclaration, run_bind_of_ok (run_current h), run_bind_of_ok (run_advance h)]
  unfold readDeclaration
  split
  · next place name others =>
    have hothers := (List.suffix_cons _ _).trans hrest
    rw [run_bind_of_ok (run_expectName_cons hrest _)]
    dsimp only
    rw [run_bind_of_ok (run_noteBuiltIn name place)]
    generalize (if (Primitive.ofWord? name).isSome then [(⟨place, .builtInTypeName name⟩ : Located
      SyntaxFault)] else []) = builtIn
    split
    · next stuck hbrace =>
        exact run_bind_of_error (run_of_read_error (run_expectSymbol hothers _) hbrace)
    next inside hbrace =>
    have hinside := (suffix_of_read_ok (readSymbol_suffix _ others) hbrace).trans hothers
    rw [run_bind_of_ok (run_of_read_ok (run_expectSymbol hothers _) hbrace)]
    split
    · next stuck hclose =>
      rw [← List.append_assoc]
      exact run_bind_of_error
        (run_of_read_error (run_parseBody hinside file name) (congrArg _ hclose))
    · next left hclose =>
      rw [← List.append_assoc]
      exact run_bind_of_ok (run_of_read_ok (run_parseBody hinside file name) (congrArg _ hclose))
  · next hother =>
    rw [List.append_nil]
    exact run_bind_of_error
      (run_expectName hrest _ fun position name others heq => hother position name others heq)

/-- A declaration that can be read is taken. -/
theorem run_takeDeclaration_ok {file : String} {doc? : Option String}
    {found : List (Located SyntaxFault)} {declaration : TypeDecl} {left : Tokens}
    (h : token :: rest <:+ lexing.tokens)
    (hread : readDeclaration file lexing.finish (namespacePath?.getD "") doc? token.position rest =
      ⟨found, .ok (declaration, left)⟩) :
    run (takeDeclaration lexing.stream file doc?) (standing lexing (token :: rest)
      faults namespacePath?) =
      some (.ok (some declaration), standing lexing left (faults ++ found) namespacePath?) := by
  rw [takeDeclaration,
    run_bind_of_ok (run_observing (run_of_noted_ok (run_parseDeclaration h file doc?) hread))]
  rfl

/-- Behind a broken declaration, parsing goes on where reading does. -/
theorem run_takeDeclaration_error {file : String} {doc? : Option String}
    {found : List (Located SyntaxFault)} {stuck : Stuck} (h : token :: rest <:+ lexing.tokens)
    (hread : readDeclaration file lexing.finish (namespacePath?.getD "") doc? token.position rest =
      ⟨found, .error stuck⟩) :
    run (takeDeclaration lexing.stream file doc?) (standing lexing (token :: rest)
      faults namespacePath?) =
      some (.ok none, standing lexing (skipDeclaration 0 stuck.ahead)
        (faults ++ (found ++ [stuck.located lexing.finish])) namespacePath?) := by
  have hsuffix :=
    readDeclaration_suffix file lexing.finish (namespacePath?.getD "") doc? token.position rest
  have hleft :=
    ((suffix_of_read_error hsuffix (congrArg Noted.value hread)).trans (List.suffix_cons _ _)).trans
    h
  rw [takeDeclaration,
    run_bind_of_ok (run_observing (run_of_noted_error (run_parseDeclaration h file doc?) hread))]
  dsimp only
  rw [run_bind_of_ok (run_note _), run_bind_of_ok (run_recoverDeclaration hleft 0),
    List.append_assoc]
  rfl

/-- A namespace that can be read is taken, or noted where it is misplaced. -/
theorem run_takeNamespace_ok {name : String} {left : Tokens} (h : ahead <:+ lexing.tokens)
    (started : Bool) (position : Position) (hread : readNamespace ahead = .ok (name, left)) :
    run (takeNamespace lexing.stream started position) (standing lexing ahead
      faults namespacePath?) = if namespacePath?.isSome ∨ started then
        some (.ok (), standing lexing left (faults ++ [⟨position, .misplacedNamespace name⟩])
          namespacePath?)
      else some (.ok (), standing lexing left faults (some name)) := by
  rw [takeNamespace, run_bind_of_ok (run_observing (run_of_read_ok (run_parseNamespace h) hread))]
  by_cases hmisplaced : namespacePath?.isSome ∨ started
  · rw [if_pos hmisplaced]
    exact (congrArg (run · _) (if_pos hmisplaced)).trans (run_note _)
  · rw [if_neg hmisplaced]
    exact congrArg (run · _) (if_neg hmisplaced)

/-- Behind a broken namespace, parsing goes on where reading does. -/
theorem run_takeNamespace_error {stuck : Stuck} (h : ahead <:+ lexing.tokens) (started : Bool)
    (position : Position) (hread : readNamespace ahead = .error stuck) :
    run (takeNamespace lexing.stream started position) (standing lexing ahead
      faults namespacePath?) =
      some (.ok (), standing lexing (skipDeclaration 0 stuck.ahead)
        (faults ++ [stuck.located lexing.finish]) namespacePath?) := by
  have hleft := (suffix_of_read_error (readNamespace_suffix ahead) hread).trans h
  rw [takeNamespace,
    run_bind_of_ok (run_observing (run_of_read_error (run_parseNamespace h) hread))]
  dsimp only
  rw [run_bind_of_ok (run_note _), run_recoverDeclaration hleft 0]

section File

variable {file : String} {started : Bool}

/-- Tokens that are left behind doc comments are an end piece of all tokens. -/
theorem suffix_of_takeDocs (h : ahead <:+ lexing.tokens)
    (hdocs : (Schema.takeDocs ahead).2 = token :: rest) :
    token :: rest <:+ lexing.tokens :=
  hdocs ▸ (takeDocs_suffix ahead).trans h

/-- At the word of a namespace, the namespace is taken behind it. -/
theorem run_parseFile_namespace (h : ahead <:+ lexing.tokens)
    (hdocs : (Schema.takeDocs ahead).2 = token :: rest) (hword : token.value = .name "namespace") :
    run (lexing.stream.parseFile file started) (standing lexing ahead faults namespacePath?) =
      run (takeNamespace lexing.stream started token.position >>=
        fun _ => lexing.stream.parseFile file started)
        (standing lexing rest faults namespacePath?) := by
  have hbehind := suffix_of_takeDocs h hdocs
  conv_lhs => rw [TokenStream.parseFile]
  rw [run_bind_of_ok (run_takeDocs h), hdocs, run_bind_of_ok (run_current_cons hbehind)]
  dsimp only
  rw [if_pos hword, run_bind_of_ok (run_advance hbehind)]

/-- At the word of a declaration, the declaration is taken. -/
theorem run_parseFile_type (h : ahead <:+ lexing.tokens)
    (hdocs : (Schema.takeDocs ahead).2 = token :: rest) (hother : token.value ≠ .name "namespace")
    (hword : token.value = .name "type") :
    run (lexing.stream.parseFile file started) (standing lexing ahead faults namespacePath?) =
      run (takeDeclaration lexing.stream file (joinDocs (Schema.takeDocs ahead).1) >>=
        fun declaration? =>
          lexing.stream.parseFile file (started || declaration?.isSome) >>= fun declarations =>
            pure (declaration?.toList ++ declarations))
        (standing lexing (token :: rest) faults namespacePath?) := by
  have hbehind := suffix_of_takeDocs h hdocs
  conv_lhs => rw [TokenStream.parseFile]
  rw [run_bind_of_ok (run_takeDocs h), hdocs, run_bind_of_ok (run_current_cons hbehind)]
  dsimp only
  rw [if_neg hother, if_pos hword]

/-- At any other token, a fault is noted and all up to the next declaration skipped. -/
theorem run_parseFile_other (h : ahead <:+ lexing.tokens)
    (hdocs : (Schema.takeDocs ahead).2 = token :: rest)
    (hnamespace : token.value ≠ .name "namespace") (htype : token.value ≠ .name "type") :
    run (lexing.stream.parseFile file started) (standing lexing ahead faults namespacePath?) =
      run (lexing.stream.parseFile file started) (standing lexing (skipDeclaration 0 rest)
        (faults ++ [(Stuck.expected .declaration (token :: rest)).located lexing.finish])
        namespacePath?) := by
  have hbehind := suffix_of_takeDocs h hdocs
  have hrest := (List.suffix_cons _ _).trans hbehind
  conv_lhs => rw [TokenStream.parseFile]
  rw [run_bind_of_ok (run_takeDocs h), hdocs, run_bind_of_ok (run_current_cons hbehind)]
  dsimp only
  rw [if_neg hnamespace, if_neg htype, run_bind_of_ok (run_note _),
    run_bind_of_ok (run_advance hbehind), run_bind_of_ok (run_recoverDeclaration hrest 0)]
  rfl

/-- Reading a file by a cursor comes to its contents, at the end mark. -/
theorem run_parseFile (h : ahead <:+ lexing.tokens) :
    run (lexing.stream.parseFile file started) (standing lexing ahead faults namespacePath?) =
      some (.ok (readContents file lexing.finish namespacePath? started ahead).declarations,
        standing lexing []
          (faults ++ (readContents file lexing.finish namespacePath? started ahead).faults)
          (readContents file lexing.finish namespacePath? started ahead).namespacePath?) := by
  fun_induction readContents file lexing.finish namespacePath? started ahead
    generalizing faults with
  | case1 namespacePath? started ahead hdocs =>
    rw [TokenStream.parseFile, run_bind_of_ok (run_takeDocs h), hdocs,
      run_bind_of_ok (run_current List.nil_suffix), List.append_nil]
    rfl
  | case2 namespacePath? started ahead token rest hdocs hword name left hread hmisplaced ih =>
    have hrest := (List.suffix_cons _ _).trans (suffix_of_takeDocs h hdocs)
    have hleft := (suffix_of_read_ok (readNamespace_suffix rest) hread).trans hrest
    rw [run_parseFile_namespace h hdocs hword,
      run_bind_of_ok ((run_takeNamespace_ok hrest started _ hread).trans (if_pos hmisplaced)),
      ih hleft, List.append_assoc]
    rfl
  | case3 namespacePath? started ahead token rest hdocs hword name left hread hmisplaced ih =>
    have hrest := (List.suffix_cons _ _).trans (suffix_of_takeDocs h hdocs)
    have hleft := (suffix_of_read_ok (readNamespace_suffix rest) hread).trans hrest
    rw [run_parseFile_namespace h hdocs hword,
      run_bind_of_ok ((run_takeNamespace_ok hrest started _ hread).trans (if_neg hmisplaced)),
      ih hleft]
  | case4 namespacePath? started ahead token rest hdocs hword stuck hread ih =>
    have hrest := (List.suffix_cons _ _).trans (suffix_of_takeDocs h hdocs)
    have hstuck := (suffix_of_read_error (readNamespace_suffix rest) hread).trans hrest
    rw [run_parseFile_namespace h hdocs hword,
      run_bind_of_ok (run_takeNamespace_error hrest started _ hread),
      ih ((skipDeclaration_suffix 0 _).trans hstuck), List.append_assoc]
    rfl
  | case5 namespacePath? started ahead token rest hdocs hother hword doc? found
      declaration left hread =>
    rename_i ih
    have hbehind := suffix_of_takeDocs h hdocs
    have hsuffix :=
      readDeclaration_suffix file lexing.finish (namespacePath?.getD "") doc? token.position rest
    have hleft :=
      (suffix_of_read_ok hsuffix (congrArg Noted.value hread)).trans
        ((List.suffix_cons _ _).trans hbehind)
    rw [run_parseFile_type h hdocs hother hword,
      run_bind_of_ok (run_takeDeclaration_ok hbehind hread), Option.isSome_some,
      Bool.or_true, run_bind_of_ok (ih hleft), List.append_assoc]
    rfl
  | case6 namespacePath? started ahead token rest hdocs hother hword doc? found stuck hread =>
    rename_i ih
    have hbehind := suffix_of_takeDocs h hdocs
    have hsuffix :=
      readDeclaration_suffix file lexing.finish (namespacePath?.getD "") doc? token.position rest
    have hstuck :=
      (suffix_of_read_error hsuffix (congrArg Noted.value hread)).trans
        ((List.suffix_cons _ _).trans hbehind)
    rw [run_parseFile_type h hdocs hother hword,
      run_bind_of_ok (run_takeDeclaration_error hbehind hread), Option.isSome_none, Bool.or_false,
      run_bind_of_ok (ih ((skipDeclaration_suffix 0 _).trans hstuck)), List.append_assoc]
    rfl
  | case7 namespacePath? started ahead token rest hdocs hother hword ih =>
    have hrest := (List.suffix_cons _ _).trans (suffix_of_takeDocs h hdocs)
    rw [run_parseFile_other h hdocs hother hword, ih ((skipDeclaration_suffix 0 _).trans hrest),
      List.append_assoc]
    rfl

end File

end Steps

/-- Reading a source by a cursor comes to what parsing it does. -/
theorem parse_eq (path source : String) : parse path source = some (Schema.parse path source) := by
  have hfile :=
    @run_parseFile (lex source.toList) (lex source.toList).tokens
    ((lex source.toList).faults.map fun fault =>
    ⟨fault.position, .lexical fault.value⟩) none path false List.suffix_rfl
  rw [standing, Nat.sub_self] at hfile
  rw [parse, Schema.parse, hfile]
  dsimp only [standing]
  split
  · next hempty =>
    rw [(sortFaults_eq_nil_iff _).mpr (List.isEmpty_iff.mp hempty)]
  · next hfaults =>
    split
    · next hsorted =>
      exact absurd (List.isEmpty_iff.mpr ((sortFaults_eq_nil_iff _).mp hsorted)) hfaults
    · rfl

end Cursor

/-! ## Errors of a source -/

/-- What is so about the errors of a source: there are some, in reading order, all of the file and
each at a token, at a lexical error or at the end. -/
structure Orderly (path : String) (lexing : Lexing) (errors : List SyntaxError) : Prop where
  nonempty : errors ≠ []
  sorted : errors.Pairwise fun a b => a.span.position.upTo b.span.position
  file : ∀ error ∈ errors, error.span.file = path
  placed : ∀ error ∈ errors,
    error.span.position = lexing.finish ∨ ∃ item ∈ lexing.items, item.position = error.span.position

/-- Faults are sorted into reading order. -/
theorem sortFaults_sorted (faults : List (Located SyntaxFault)) :
    (sortFaults faults).Pairwise fun a b => a.position.upTo b.position := by
  have hle : ∀ a b : Located SyntaxFault, (!b.position.before a.position) = true ↔
      a.position.upTo b.position := by
    intro a b
    rw [Bool.not_eq_true', Position.upTo]
  refine (List.pairwise_mergeSort (fun a b c hab hbc => ?_) (fun a b => ?_) faults).imp (hle _ _).mp
  · rw [hle] at hab hbc ⊢
    exact Position.upTo_trans hab hbc
  · rw [Bool.or_eq_true, hle, hle, Position.upTo_iff, Position.upTo_iff]
    omega

/-- The place of a token ahead is that of an item of the source, or the end. -/
theorem placeOf_mem {lexing : Lexing} {here : Tokens} (h : here <:+ lexing.tokens) :
    placeOf lexing.finish here = lexing.finish ∨
    ∃ item ∈ lexing.items, item.position = placeOf lexing.finish here := by
  cases here with
  | nil => exact .inl rfl
  | cons token rest =>
    obtain ⟨item, hitem, hvalue⟩ := List.mem_filterMap.mp (h.subset List.mem_cons_self)
    refine .inr ⟨item, hitem, ?_⟩
    split at hvalue
    · obtain rfl := Option.some.inj hvalue
      rfl
    · contradiction

/-- The errors of a source are orderly. -/
theorem orderly_of_parse {path source : String} {errors : List SyntaxError}
    (h : parse path source = .error errors) :
    Orderly path (lex source.toList) errors := by
  have hplaces := (between_readContents (inOrder_lex source.toList) path none false).placed
  refine ⟨ne_nil_of_parse h, ?_, fun error herror => ?_, fun error herror => ?_⟩
  · simp only [parse] at h
    split at h
    · contradiction
    · obtain rfl := Except.error.inj h
      exact List.pairwise_map.mpr (sortFaults_sorted _)
  · rcases (mem_iff_of_parse h error).mp herror with ⟨fault, -, rfl⟩ | ⟨fault, -, rfl⟩
    · rfl
    · rfl
  · rcases (mem_iff_of_parse h error).mp herror with ⟨fault, hfault, rfl⟩ | ⟨fault, hfault, rfl⟩
    · obtain ⟨item, hitem, hvalue⟩ := List.mem_filterMap.mp hfault
      refine .inr ⟨item, hitem, ?_⟩
      split at hvalue
      · contradiction
      · obtain rfl := Option.some.inj hvalue
        rfl
    · obtain ⟨here, hhere, hposition⟩ := hplaces fault hfault
      rw [hposition]
      exact placeOf_mem hhere

/-- For all sources, parsing with a cursor comes to an end without leaving the stream of tokens, and
to what parsing does. The stream ends in the end mark and holds it nowhere else. If there are
errors, they are orderly. -/
theorem parse_by_cursor (path source : String) :
    Cursor.parse path source = some (parse path source) ∧
      (∃ front, (lex source.toList).stream = front ++ [⟨(lex source.toList).finish, none⟩] ∧
        ∀ item ∈ front, item.value ≠ none) ∧
      ∀ errors, parse path source = .error errors → Orderly path (lex source.toList) errors := by
  refine ⟨Cursor.parse_eq path source, ⟨_, rfl, ?_⟩, fun errors => orderly_of_parse⟩
  intro item hitem
  obtain ⟨token, -, rfl⟩ := List.mem_map.mp hitem
  exact Option.some_ne_none _

end SchemaBindings.Schema
