import SchemaBindings.Proofs.Schema.Parsing

/-!
# Faults in reading order

The tokens of a source stand one behind the other, and a reader notes every fault at a token between
the first one it got and the first one it leaves. So the faults of a source without lexical faults
are noted in the order of their places, and sorting them changes nothing.
-/

namespace SchemaBindings

namespace Text

/-- Whether a place is not behind another one. -/
def Position.upTo (a b : Position) : Prop :=
  b.before a = false

/-- A position is up to another one if its line is earlier, or on the same line if its column is not
later. -/
theorem Position.upTo_iff (a b : Position) :
    a.upTo b ↔ a.line < b.line ∨ a.line = b.line ∧ a.column ≤ b.column := by
  simp only [upTo, before, Bool.or_eq_false_iff, decide_eq_false_iff_not, Bool.and_eq_false_iff,
    beq_eq_false_iff_ne]
  omega

/-- A position is before another one if its line is earlier, or on the same line if its column is.
-/
theorem Position.before_iff (a b : Position) :
    a.before b = true ↔ a.line < b.line ∨ a.line = b.line ∧ a.column < b.column := by
  simp only [before, Bool.or_eq_true, decide_eq_true_eq, Bool.and_eq_true, beq_iff_eq]

/-- A position is up to itself. -/
theorem Position.upTo_refl (a : Position) : a.upTo a := by
  rw [upTo_iff]
  omega

/-- A position up to one that is up to a third one is up to the third one. -/
theorem Position.upTo_trans {a b c : Position} (h : a.upTo b) (h' : b.upTo c) : a.upTo c := by
  rw [upTo_iff] at h h' ⊢
  omega

/-- A position before one that is up to a third one is before the third one. -/
theorem Position.before_of_before_of_upTo {a b c : Position} (h : a.before b = true)
    (h' : b.upTo c) :
    a.before c = true := by
  rw [before_iff] at h ⊢
  rw [upTo_iff] at h'
  omega

/-- A text leads no place back. -/
theorem Position.upTo_afterText (position : Position) (text : List Char) :
    position.upTo (position.afterText text) := by
  induction text generalizing position with
  | nil => exact upTo_refl position
  | cons c text ih =>
    have hafter : position.upTo (position.after c) := by
      rw [upTo_iff, after]
      split
      · exact .inl (Nat.lt_succ_self _)
      · exact .inr ⟨rfl, Nat.le_succ _⟩
    exact upTo_trans hafter (ih (position.after c))

end Text

namespace Schema

open SchemaBindings.Text (Position)

/-! ## Tokens in order -/

/-- Whether tokens stand one behind the other, in front of an end. -/
def InOrder (finish : Position) (ahead : Tokens) : Prop :=
  (ahead.map Located.position ++ [finish]).Pairwise Position.upTo

/-- Pieces are placed one behind the other, up to where they end. -/
theorem pairwise_locate (position : Position) (pieces : List Piece) {finish : Position}
    (trailing : List Char)
    (hfinish : finish =
      position.afterText (pieces.flatMap (fun piece => piece.trivia ++ piece.text) ++ trailing)) :
    (((locate position pieces).map Located.position) ++ [finish]).Pairwise Position.upTo ∧
      ∀ place ∈ ((locate position pieces).map Located.position) ++ [finish],
        position.upTo place := by
  induction pieces generalizing position with
  | nil =>
    rw [hfinish]
    simpa [locate] using position.upTo_afterText _
  | cons piece others ih =>
    have hfirst := position.upTo_afterText piece.trivia
    have hnext := (position.afterText piece.trivia).upTo_afterText piece.text
    obtain ⟨hpairwise, hall⟩ := ih ((position.afterText piece.trivia).afterText piece.text)
      (by rw [hfinish]; simp [Position.afterText, List.foldl_append])
    refine ⟨List.pairwise_cons.mpr
      ⟨fun place hplace => Position.upTo_trans hnext (hall place hplace), hpairwise⟩, ?_⟩
    intro place hplace
    rcases List.mem_cons.mp hplace with rfl | hplace
    · exact hfirst
    · exact Position.upTo_trans hfirst (Position.upTo_trans hnext (hall place hplace))

/-- Cutting a source loses nothing. -/
theorem flatMap_pieces (text : List Char) :
    (pieces text).1.flatMap (fun piece => piece.trivia ++ piece.text) ++ (pieces text).2 =
      text := by
  have hsplit := splitTrivia_append false text
  fun_induction pieces text with
  | case1 text hnil =>
    rw [hnil, List.append_nil] at hsplit
    simpa using hsplit
  | case2 text first rest hcons reading others trailing hpieces ih =>
    rw [hcons] at hsplit
    have hread : reading.taken ++ reading.rest = rest := readToken_append first rest
    have hrest := ih (splitTrivia_append false reading.rest)
    rw [hpieces] at hrest
    rw [List.flatMap_cons, List.append_assoc, hrest, List.append_assoc,
      List.cons_append, hread, hsplit]

/-- Tokens stand at places of items, in their order. -/
theorem positions_tokens_sublist (lexing : Lexing) :
    (lexing.tokens.map Located.position).Sublist (lexing.items.map Located.position) := by
  obtain ⟨items, finish⟩ := lexing
  unfold Lexing.tokens
  dsimp only
  induction items with
  | nil => exact List.Sublist.refl _
  | cons item items ih =>
    obtain ⟨place, value⟩ := item
    cases value with
    | ok token => exact ih.cons_cons place
    | error fault => exact ih.cons place

/-- The tokens of a source stand one behind the other. -/
theorem inOrder_lex (source : List Char) : InOrder (lex source).finish (lex source).tokens := by
  have hall := (pairwise_locate .start (pieces source).1 (pieces source).2
    (congrArg (Position.afterText .start) (flatMap_pieces source).symm)).1
  exact hall.sublist ((positions_tokens_sublist (lex source)).append (List.Sublist.refl _))

section Order

variable {finish : Position} {ahead mid left : Tokens}

/-- The last ones of tokens in order are in order. -/
theorem InOrder.suffix (h : InOrder finish ahead) (hleft : left <:+ ahead) :
    InOrder finish left := by
  obtain ⟨front, rfl⟩ := hleft
  rw [InOrder, List.map_append, List.append_assoc] at h
  exact (List.pairwise_append.mp h).2.1

/-- What is left starts no earlier. -/
theorem InOrder.placeOf_upTo (h : InOrder finish ahead) (hleft : left <:+ ahead) :
    (placeOf finish ahead).upTo (placeOf finish left) := by
  obtain ⟨front, rfl⟩ := hleft
  have hlast : placeOf finish left ∈ left.map Located.position ++ [finish] := by
    cases left with
    | nil => simp [placeOf]
    | cons token rest => simp [placeOf]
  cases front with
  | nil => exact Position.upTo_refl _
  | cons token front =>
    rw [InOrder, List.map_append, List.append_assoc, List.map_cons, List.cons_append] at h
    exact (List.pairwise_cons.mp h).1 _ (List.mem_append_right _ hlast)

/-! ## Faults in order -/

/-- Whether faults are in order, between the first of some tokens and the first of those that are
left, and each is at a token or at the end. -/
structure Between (finish : Position) (ahead left : Tokens) (faults : List (Located SyntaxFault)) :
    Prop where
  pairwise : faults.Pairwise fun a b => a.position.upTo b.position
  inside : ∀ fault ∈ faults, (placeOf finish ahead).upTo fault.position ∧
    fault.position.upTo (placeOf finish left)
  placed : ∀ fault ∈ faults, ∃ here : Tokens, here <:+ ahead ∧ fault.position = placeOf finish here

/-- No faults lie between any tokens. -/
theorem between_nil (finish : Position) (ahead left : Tokens) : Between finish ahead left [] :=
  ⟨List.Pairwise.nil, by simp, by simp⟩

/-- A fault at the first token that is left. -/
theorem Stuck.between (h : InOrder finish ahead) (stuck : Stuck) (hstuck : stuck.ahead <:+ ahead)
    (hleft : left <:+ stuck.ahead) : Between finish ahead left [stuck.located finish] := by
  refine ⟨List.pairwise_singleton _ _, fun fault hfault => ?_, fun fault hfault => ?_⟩
  · rw [List.mem_singleton.mp hfault]
    exact ⟨h.placeOf_upTo hstuck, (h.suffix hstuck).placeOf_upTo hleft⟩
  · rw [List.mem_singleton.mp hfault]
    exact ⟨stuck.ahead, hstuck, rfl⟩

variable {faults others : List (Located SyntaxFault)}

/-- Faults of a stretch of tokens and of the one behind it. -/
theorem Between.append (h : Between finish ahead mid faults) (h' : Between finish mid left others)
    (horder : InOrder finish ahead) (hmid : mid <:+ ahead) (hleft : left <:+ mid) :
    Between finish ahead left (faults ++ others) where
  pairwise := by
    refine List.pairwise_append.mpr ⟨h.pairwise, h'.pairwise, fun fault hfault other hother => ?_⟩
    exact Position.upTo_trans (h.inside fault hfault).2 (h'.inside other hother).1
  inside := by
    intro fault hfault
    rcases List.mem_append.mp hfault with hfault | hfault
    · exact ⟨(h.inside fault hfault).1,
        Position.upTo_trans (h.inside fault hfault).2 ((horder.suffix hmid).placeOf_upTo hleft)⟩
    · exact ⟨Position.upTo_trans (horder.placeOf_upTo hmid) (h'.inside fault hfault).1,
        (h'.inside fault hfault).2⟩
  placed := by
    intro fault hfault
    rcases List.mem_append.mp hfault with hfault | hfault
    · exact h.placed fault hfault
    · obtain ⟨here, hhere, hplace⟩ := h'.placed fault hfault
      exact ⟨here, hhere.trans hmid, hplace⟩

/-- Faults of a part of a stretch. -/
theorem Between.widen {front behind : Tokens} (h : Between finish mid left faults)
    (horder : InOrder finish front) (hmid : mid <:+ front) (hleft : left <:+ front)
    (hbehind : behind <:+ left) : Between finish front behind faults :=
  ⟨h.pairwise,
    fun fault hfault => ⟨Position.upTo_trans (horder.placeOf_upTo hmid) (h.inside fault hfault).1,
    Position.upTo_trans (h.inside fault hfault).2 ((horder.suffix hleft).placeOf_upTo hbehind)⟩,
    fun fault hfault => (h.placed fault hfault).imp fun _ hhere => ⟨hhere.1.trans hmid, hhere.2⟩⟩

/-! ## Readers -/

/-- The faults of validators lie between the tokens that they are read from. -/
theorem between_readValidators (h : InOrder finish ahead) (given : List Validator) :
    Between finish ahead (leftBy (readValidators given ahead).value)
      (readValidators given ahead).faults := by
  have hnamed : ∀ {mark : Position} {token : Located Token} {rest : Tokens} (fault : SyntaxFault)
      (given' : List Validator), InOrder finish (⟨mark, .symbol .at⟩ :: token :: rest) →
      Between finish rest (leftBy (readValidators given' rest).value)
        (readValidators given' rest).faults →
      Between finish (⟨mark, .symbol .at⟩ :: token :: rest)
        (leftBy (readValidators given' rest).value)
        (⟨token.position, fault⟩ :: (readValidators given' rest).faults) := by
    intro mark token rest fault given' horder hrest
    have htoken : token :: rest <:+ ⟨mark, .symbol .at⟩ :: token :: rest := List.suffix_cons _ _
    have hstuck : Between finish (⟨mark, .symbol .at⟩ :: token :: rest) rest
        [⟨token.position, fault⟩] :=
      Stuck.between horder ⟨fault, token :: rest⟩ htoken (List.suffix_cons _ _)
    exact hstuck.append hrest horder ((List.suffix_cons _ _).trans htoken)
      (readValidators_suffix given' rest)
  fun_induction readValidators given ahead with
  | case1 given mark place name rest validator _ _ ih =>
    exact hnamed _ given h (ih (h.suffix ((List.suffix_cons _ _).trans (List.suffix_cons _ _))))
  | case2 given mark place name rest validator _ _ ih =>
    have hrest : rest <:+ ⟨mark, .symbol .at⟩ :: ⟨place, .name name⟩ :: rest :=
      (List.suffix_cons _ _).trans (List.suffix_cons _ _)
    exact (ih (h.suffix hrest)).widen h hrest ((readValidators_suffix _ rest).trans hrest)
      (List.suffix_rfl)
  | case3 given mark place name rest _ ih =>
    exact hnamed _ given h (ih (h.suffix ((List.suffix_cons _ _).trans (List.suffix_cons _ _))))
  | case4 => exact between_nil _ _ _
  | case5 => exact between_nil _ _ _

/-- The faults of a field lie between the tokens that it is read from. -/
theorem between_readField (h : InOrder finish ahead) (name : String) (span : Span)
    (doc? : Option String) :
    Between finish ahead (leftBy (readField name span doc? ahead).value)
      (readField name span doc? ahead).faults := by
  unfold readField
  have hcolon := readSymbol_suffix .colon ahead
  split
  · exact between_nil _ _ _
  · next afterColon hread =>
    rw [hread] at hcolon
    have htype := readType_suffix afterColon
    split
    · exact between_nil _ _ _
    · next type afterType hread =>
      rw [hread] at htype
      have hdefault := readDefault_suffix (readOptional afterType).2
      dsimp only
      split
      · exact between_nil _ _ _
      · next default? afterDefault hread =>
        rw [hread] at hdefault
        have hall : afterDefault <:+ ahead :=
          ((hdefault.trans (readOptional_suffix afterType)).trans htype).trans hcolon
        have hvalidators := between_readValidators (h.suffix hall) []
        have hleft := (readValidators_suffix [] afterDefault).trans hall
        split <;> next hread =>
          rw [hread] at hvalidators hleft
          exact hvalidators.widen h hall hleft List.suffix_rfl

/-- The faults at the end of a field lie between the tokens that are skipped there. -/
theorem between_endField (h : InOrder finish ahead) :
    Between finish ahead (endField finish ahead).2 (endField finish ahead).1 := by
  unfold endField
  split
  · exact between_nil _ _ _
  · split
    · exact between_nil _ _ _
    · exact Stuck.between h (.expected .fieldEnd ahead) List.suffix_rfl (resumeField_suffix ahead)

/-- The faults of a field entry are in order, in front of what the entry leaves. -/
theorem between_readEntry {token : Located Token} {rest : Tokens}
    (h : InOrder finish (token :: rest)) (file : String) (doc? : Option String) :
    Between finish (token :: rest) (readEntry file finish doc? token rest).ahead
      (readEntry file finish doc? token rest).faults := by
  have hrest : rest <:+ token :: rest := List.suffix_cons _ _
  unfold readEntry
  split
  · next name _ =>
    have hfield := between_readField (h.suffix hrest) name ⟨file, token.position⟩ doc?
    have hsuffix := readField_suffix name ⟨file, token.position⟩ doc? rest
    split
    · next faults field left hread =>
      rw [hread] at hfield hsuffix
      have hleft : left <:+ token :: rest := hsuffix.trans hrest
      exact (hfield.widen h hrest hleft List.suffix_rfl).append
        (between_endField (h.suffix hleft)) h hleft (endField_suffix finish left)
    · next faults stuck hread =>
      rw [hread] at hfield hsuffix
      have hstuck : stuck.ahead <:+ token :: rest := hsuffix.trans hrest
      exact (hfield.widen h hrest hstuck List.suffix_rfl).append
        (Stuck.between (h.suffix hstuck) stuck List.suffix_rfl (resumeField_suffix stuck.ahead))
        h hstuck
          (resumeField_suffix stuck.ahead)
  · exact Stuck.between h (.expected .fieldName (token :: rest)) List.suffix_rfl
      (resumeField_suffix (token :: rest))

/-- What a body leaves. -/
def Body.remainder (body : Body) : Tokens :=
  match body.close with
  | .ok left => left
  | .error stuck => stuck.ahead

/-- The faults of a body lie between the tokens that it is read from. -/
theorem between_readBody (h : InOrder finish ahead) (file typeName : String) :
    Between finish ahead (readBody file finish typeName ahead).remainder
      (readBody file finish typeName ahead).faults := by
  fun_induction readBody file finish typeName ahead with
  | case1 => exact between_nil _ _ _
  | case2 => exact between_nil _ _ _
  | case3 => exact between_nil _ _ _
  | case4 ahead token rest hdocs hclose hstart entry ih =>
    have hhere : token :: rest <:+ ahead := hdocs ▸ takeDocs_suffix ahead
    have hsuffix : entry.ahead <:+ token :: rest :=
      (readEntry_suffix file finish _ token rest hclose (by simpa using hstart)).trans
        (List.suffix_cons _ _)
    have hentry := between_readEntry (h.suffix hhere) file (joinDocs (takeDocs ahead).1)
    have hbody := readBody_suffix file finish typeName entry.ahead
    exact (hentry.widen h hhere (hsuffix.trans hhere) List.suffix_rfl).append
      (ih (h.suffix (hsuffix.trans hhere))) h (hsuffix.trans hhere) hbody

/-- The faults of a declaration lie between the tokens that it is read from. -/
theorem between_readDeclaration (h : InOrder finish ahead) (file namespacePath : String)
    (doc? : Option String) (position : Position) :
    Between finish ahead
      (leftBy (readDeclaration file finish namespacePath doc? position ahead).value)
      (readDeclaration file finish namespacePath doc? position ahead).faults := by
  unfold readDeclaration
  split
  · next place name rest =>
    have hrest : rest <:+ (⟨place, .name name⟩ : Located Token) :: rest := List.suffix_cons _ _
    have hbrace := readSymbol_suffix .leftBrace rest
    have hname : ∀ left : Tokens, left <:+ rest → Between finish (⟨place, .name name⟩ :: rest) left
        (if (Primitive.ofWord? name).isSome then [⟨place, .builtInTypeName name⟩] else []) := by
      intro left hleft
      split
      · exact Stuck.between h ⟨.builtInTypeName name, ⟨place, .name name⟩ :: rest⟩ List.suffix_rfl
          (hleft.trans hrest)
      · exact between_nil _ _ _
    dsimp only
    split
    · next stuck hread =>
      rw [hread] at hbrace
      exact hname _ hbrace
    · next afterBrace hread =>
      rw [hread] at hbrace
      have hinner : afterBrace <:+ (⟨place, .name name⟩ : Located Token) :: rest :=
        hbrace.trans hrest
      have hbody := between_readBody (h.suffix hinner) file name
      have hsuffix := readBody_suffix file finish name afterBrace
      rw [Body.remainder] at hbody
      split <;> next hclose =>
        rw [hclose] at hbody hsuffix
        exact (hname _ hbrace).append hbody h hinner hsuffix
  · exact between_nil _ _ _

/-! ## Files -/

/-- The faults of a file are in order. -/
theorem between_readContents (h : InOrder finish ahead) (file : String)
    (namespacePath? : Option String) (started : Bool) :
    Between finish ahead [] (readContents file finish namespacePath? started ahead).faults := by
  have hend : ∀ tokens : Tokens, [] <:+ tokens := fun tokens => List.nil_suffix
  fun_induction readContents file finish namespacePath? started ahead with
  | case1 => exact between_nil _ _ _
  | case2 namespacePath? started ahead token rest hdocs hword name left hread hfirst ih =>
    have hhere : token :: rest <:+ ahead := hdocs ▸ takeDocs_suffix ahead
    have hsuffix := readNamespace_suffix rest
    rw [hread] at hsuffix
    have hleft : left <:+ token :: rest := hsuffix.trans (List.suffix_cons _ _)
    exact (Stuck.between h ⟨.misplacedNamespace name, token :: rest⟩ hhere hleft).append
      (ih (h.suffix (hleft.trans hhere))) h (hleft.trans hhere) (hend left)
  | case3 namespacePath? started ahead token rest hdocs hword name left hread hfirst ih =>
    have hhere : token :: rest <:+ ahead := hdocs ▸ takeDocs_suffix ahead
    have hsuffix := readNamespace_suffix rest
    rw [hread] at hsuffix
    have hleft : left <:+ ahead := (hsuffix.trans (List.suffix_cons _ _)).trans hhere
    exact (ih (h.suffix hleft)).widen h hleft (hend ahead) List.suffix_rfl
  | case4 namespacePath? started ahead token rest hdocs hword stuck hread ih =>
    have hhere : token :: rest <:+ ahead := hdocs ▸ takeDocs_suffix ahead
    have hsuffix := readNamespace_suffix rest
    rw [hread] at hsuffix
    have hstuck : stuck.ahead <:+ ahead := (hsuffix.trans (List.suffix_cons _ _)).trans hhere
    have hskip := skipDeclaration_suffix 0 stuck.ahead
    exact (Stuck.between h stuck hstuck hskip).append (ih (h.suffix (hskip.trans hstuck)))
      h (hskip.trans hstuck) (hend _)
  | case5 namespacePath? started ahead token rest hdocs hnamespace htype doc? faults
      declaration left hread ih =>
    have hhere : token :: rest <:+ ahead := hdocs ▸ takeDocs_suffix ahead
    have hrest : rest <:+ ahead := (List.suffix_cons _ _).trans hhere
    have hsuffix :=
      readDeclaration_suffix file finish (namespacePath?.getD "") doc? token.position rest
    have hdeclaration :=
      between_readDeclaration (h.suffix hrest) file (namespacePath?.getD "") doc? token.position
    rw [hread] at hsuffix hdeclaration
    have hleft : left <:+ ahead := hsuffix.trans hrest
    exact (hdeclaration.widen h hrest hleft List.suffix_rfl).append (ih (h.suffix hleft))
      h hleft (hend left)
  | case6 namespacePath? started ahead token rest hdocs hnamespace htype doc?
      faults stuck hread ih =>
    have hhere : token :: rest <:+ ahead := hdocs ▸ takeDocs_suffix ahead
    have hrest : rest <:+ ahead := (List.suffix_cons _ _).trans hhere
    have hsuffix :=
      readDeclaration_suffix file finish (namespacePath?.getD "") doc? token.position rest
    have hdeclaration :=
      between_readDeclaration (h.suffix hrest) file (namespacePath?.getD "") doc? token.position
    rw [hread] at hsuffix hdeclaration
    have hstuck : stuck.ahead <:+ ahead := hsuffix.trans hrest
    have hskip := skipDeclaration_suffix 0 stuck.ahead
    have hfirst := (hdeclaration.widen h hrest hstuck List.suffix_rfl).append
      (Stuck.between (h.suffix hstuck) stuck List.suffix_rfl hskip) h hstuck hskip
    exact hfirst.append (ih (h.suffix (hskip.trans hstuck))) h (hskip.trans hstuck) (hend _)
  | case7 namespacePath? started ahead token rest hdocs hnamespace htype ih =>
    have hhere : token :: rest <:+ ahead := hdocs ▸ takeDocs_suffix ahead
    have hskip : skipDeclaration 0 rest <:+ token :: rest :=
      (skipDeclaration_suffix 0 rest).trans (List.suffix_cons _ _)
    exact (Stuck.between h (.expected .declaration (token :: rest)) hhere hskip).append
      (ih (h.suffix (hskip.trans hhere))) h (hskip.trans hhere) (hend _)

end Order

/-- The errors that parsing reports. -/
def reported (outcome : Except (List SyntaxError) SchemaFile) : List SyntaxError :=
  match outcome with
  | .ok _ => []
  | .error errors => errors

/-- Where nothing is wrong with the tokens themselves, parsing reports what readers note, in the
order in which they note it. -/
theorem reported_parse (path source : String) (hclean : (lex source.toList).faults = []) :
    reported (parse path source) =
      (readContents path (lex source.toList).finish none false
        (lex source.toList).tokens).faults.map fun fault =>
        ⟨⟨path, fault.position⟩, fault.value⟩ := by
  have hordered := (between_readContents (inOrder_lex source.toList) path none false).pairwise
  have hsorted : sortFaults (readContents path (lex source.toList).finish none false
        (lex source.toList).tokens).faults =
      (readContents path (lex source.toList).finish none false
        (lex source.toList).tokens).faults := by
    refine List.mergeSort_of_pairwise (hordered.imp fun {a b} hle => ?_)
    rw [Bool.not_eq_true']
    exact hle
  simp only [parse, hclean, List.map_nil, List.nil_append, hsorted]
  split
  · next hnone => rw [hnone]; rfl
  · rfl

end Schema

end SchemaBindings
