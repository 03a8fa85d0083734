import SchemaBindings.Proofs.Schema.FaultOrder

/-!
# Reading stops at a delimiter

No reader of a part of a field reads a comma or a closing brace. So what is read from tokens in
front of one depends on these tokens alone: not on what comes behind the delimiter, and not on where
in a file the tokens stand.
-/

namespace SchemaBindings.Schema

open SchemaBindings.Text (Position)

/-- A value at another place. -/
def Located.move {α : Type} (place : Position → Position) (located : Located α) : Located α :=
  ⟨place located.position, located.value⟩

/-- Moving a located value keeps the value. -/
@[simp] theorem Located.move_value {α : Type} (place : Position → Position) (located : Located α) :
    (located.move place).value = located.value := rfl

/-- Moving a located value moves its position. -/
@[simp] theorem Located.move_mk {α : Type} (place : Position → Position) (position : Position)
    (value : α) :
    (Located.mk position value).move place = ⟨place position, value⟩ := rfl

/-- Moving a located value to where it is keeps it. -/
@[simp] theorem Located.move_id {α : Type} (located : Located α) : located.move id = located := rfl

/-- Whether a token ends a field. -/
def Delimits (token : Located Token) : Prop :=
  token.value = .symbol .comma ∨ token.value = .symbol .rightBrace

/-- Tokens at other places, with a delimiter and other tokens behind them. -/
def inFront (delimiter : Located Token) (tokens : Tokens) (place : Position → Position)
    (behind : Tokens) : Tokens :=
  tokens.map (Located.move place) ++ delimiter.move place :: behind

/-- What a reader returns, with a delimiter and other tokens behind what it leaves. -/
def returnedInFront {α : Type} (delimiter : Located Token) (result : Read α)
    (place : Position → Position) (behind : Tokens) : Read α :=
  match result with
  | .ok (value, left) => .ok (value, inFront delimiter left place behind)
  | .error stuck => .error ⟨stuck.fault, inFront delimiter stuck.ahead place behind⟩

/-- A reader of two parts, one behind the other. -/
def readThen {α β : Type} (read : Tokens → Read α) (next : α → Tokens → Read β) (ahead : Tokens) :
    Read β :=
  match read ahead with
  | .ok (value, left) => next value left
  | .error stuck => .error stuck

/-- Whether a reader returns the same in front of a delimiter, whatever is behind. -/
def StopsAt {α : Type} (delimiter : Located Token) (read : Tokens → Read α) (tokens : Tokens) :
    Prop :=
  ∃ result : Read α, leftBy result <:+ tokens ∧ ∀ place behind,
    read (inFront delimiter tokens place behind) = returnedInFront delimiter result place behind

section Delimiter

variable {delimiter : Located Token}

/-- In front of no tokens there is the delimiter, moved to its place. -/
@[simp] theorem inFront_nil (place : Position → Position) (behind : Tokens) :
    inFront delimiter [] place behind = delimiter.move place :: behind := rfl

/-- Tokens in front of a delimiter are moved one by one. -/
@[simp] theorem inFront_cons (token : Located Token) (tokens : Tokens) (place : Position → Position)
    (behind : Tokens) :
    inFront delimiter (token :: tokens) place behind = token.move place ::
      inFront delimiter tokens place behind := rfl

/-- The token ahead is the same wherever tokens stand. -/
theorem peek_inFront (tokens : Tokens) (place : Position → Position) (behind : Tokens) :
    peek (inFront delimiter tokens place behind) = peek (tokens ++ [delimiter]) := by
  cases tokens <;> rfl

/-- The first token in front of a delimiter is of a kind only if the tokens start with one. -/
theorem Delimits.peek_ne (hdelimiter : Delimits delimiter) {tokens : Tokens} {value : Token}
    (hcomma : value ≠ .symbol .comma) (hbrace : value ≠ .symbol .rightBrace)
    (h : ∀ position rest, tokens ≠ ⟨position, value⟩ :: rest) (place : Position → Position)
    (behind : Tokens) :
    peek (inFront delimiter tokens place behind) ≠ some value := by
  rw [peek_inFront]
  cases tokens with
  | nil =>
    intro hvalue
    have hvalue : delimiter.value = value := Option.some.inj hvalue
    rcases hdelimiter with hd | hd
    · exact hcomma (hvalue.symm.trans hd)
    · exact hbrace (hvalue.symm.trans hd)
  | cons token rest =>
    intro hvalue
    obtain rfl : token.value = value := Option.some.inj hvalue
    exact h token.position rest rfl

/-! ## Steps of readers -/

section Steps

variable {α β : Type} {read other : Tokens → Read α} {tokens left : Tokens}

/-- A reader that returns a value. -/
theorem StopsAt.returns (value : α) (hleft : left <:+ tokens)
    (h : ∀ place behind, read (inFront delimiter tokens place behind) =
      .ok (value, inFront delimiter left place behind)) :
    StopsAt delimiter read tokens :=
  ⟨.ok (value, left), hleft, h⟩

/-- A reader that is stuck. -/
theorem StopsAt.stuck (what : Expectation) (hleft : left <:+ tokens)
    (h : ∀ place behind, read (inFront delimiter tokens place behind) =
      .error (.expected what (inFront delimiter left place behind))) :
    StopsAt delimiter read tokens := by
  refine ⟨.error ⟨.expected what (peek (left ++ [delimiter])), left⟩, hleft, fun place behind => ?_⟩
  rw [h, Stuck.expected, peek_inFront]
  rfl

/-- A reader that takes tokens and goes on. -/
theorem StopsAt.takes (hleft : left <:+ tokens) (h : ∀ place behind,
    read (inFront delimiter tokens place behind) = other (inFront delimiter left place behind))
    (hother : StopsAt delimiter other left) : StopsAt delimiter read tokens := by
  obtain ⟨result, hresult, hstops⟩ := hother
  exact ⟨result, hresult.trans hleft,
    fun place behind => (h place behind).trans (hstops place behind)⟩

/-- Two readers one behind the other. -/
theorem StopsAt.andThen (h : StopsAt delimiter read tokens) (next : α → Tokens → Read β)
    (hnext : ∀ value left, left <:+ tokens → StopsAt delimiter (next value) left) :
    StopsAt delimiter (readThen read next) tokens := by
  obtain ⟨result, hleft, hread⟩ := h
  cases result with
  | ok result =>
    obtain ⟨value, left⟩ := result
    obtain ⟨last, hlast, hstops⟩ := hnext value left hleft
    refine ⟨last, hlast.trans hleft, fun place behind => ?_⟩
    rw [readThen, hread]
    exact hstops place behind
  | error stuck =>
    refine ⟨.error stuck, hleft, fun place behind => ?_⟩
    rw [readThen, hread]
    rfl

end Steps

/-! ## Readers of parts -/

variable (hdelimiter : Delimits delimiter)
include hdelimiter

/-- Reading a symbol that is no delimiter stops at a delimiter. -/
theorem stopsAt_readSymbol {mark : Symbol} (hcomma : mark ≠ .comma) (hbrace : mark ≠ .rightBrace)
    (tokens : Tokens) :
    StopsAt delimiter (readSymbol mark) tokens := by
  cases tokens with
  | nil =>
    have hne : delimiter.value ≠ .symbol mark := by
      rcases hdelimiter with h | h <;> rw [h] <;> simpa using Ne.symm ‹_›
    refine .stuck (.symbol mark) List.suffix_rfl fun place behind => ?_
    rw [inFront_nil, readSymbol, Located.move_value, if_neg hne]
  | cons token rest =>
    by_cases hmark : token.value = .symbol mark
    · refine .returns () (List.suffix_cons token rest) fun place behind => ?_
      rw [inFront_cons, readSymbol, Located.move_value, if_pos hmark]
    · refine .stuck (.symbol mark) List.suffix_rfl fun place behind => ?_
      rw [inFront_cons, readSymbol, Located.move_value, if_neg hmark]

/-- Reading the segments of a path stops at a delimiter. -/
theorem stopsAt_readSegments (tokens : Tokens) : StopsAt delimiter readSegments tokens := by
  have hstep : ∀ (dot place : Position) (segment : String) (rest : Tokens),
      StopsAt delimiter readSegments rest →
      StopsAt delimiter readSegments (⟨dot, .symbol .dot⟩ :: ⟨place, .name segment⟩ :: rest) := by
    intro dot place segment rest ih
    refine .takes ((List.suffix_cons _ _).trans (List.suffix_cons _ _)) (fun place behind => ?_)
      (ih.andThen (fun segments left => .ok (segment :: segments, left)) fun segments left _ =>
        .returns (segment :: segments) List.suffix_rfl fun _ _ => rfl)
    rw [inFront_cons, inFront_cons, Located.move_mk, Located.move_mk, readSegments, readThen]
    rcases readSegments (inFront delimiter rest place behind) with stuck | ⟨segments, left⟩ <;> rfl
  fun_induction readSegments tokens with
  | case1 dot place segment rest _ _ _ ih => exact hstep dot place segment rest ih
  | case2 dot place segment rest _ _ ih => exact hstep dot place segment rest ih
  | case3 dot rest hname =>
    refine .stuck .nameAfterDot (List.suffix_cons _ rest) fun place behind => ?_
    exact readSegments_dot fun word =>
      hdelimiter.peek_ne (by simp) (by simp) (fun position others => hname position word others) _ _
  | case4 ahead hname hdot =>
    refine .returns [] List.suffix_rfl fun place behind => ?_
    exact readSegments_append .nil _ (hdelimiter.peek_ne (by simp) (by simp) hdot _ _)

/-- Reading a path stops at a delimiter. -/
theorem stopsAt_readPath (what : Expectation) (tokens : Tokens) :
    StopsAt delimiter (readPath what) tokens := by
  by_cases hname : ∃ place first rest, tokens = ⟨place, .name first⟩ :: rest
  · obtain ⟨place, first, rest, rfl⟩ := hname
    refine .takes (List.suffix_cons _ rest) (fun place behind => ?_)
      ((stopsAt_readSegments hdelimiter rest).andThen
        (fun segments left => .ok ((first, segments), left))
        fun segments left _ => .returns (first, segments) List.suffix_rfl fun _ _ => rfl)
    rw [inFront_cons, Located.move_mk, readPath, readThen]
    rcases readSegments (inFront delimiter rest place behind) with stuck | ⟨segments, left⟩ <;> rfl
  · refine .stuck what List.suffix_rfl fun place behind => ?_
    have hpeek : ∀ word, peek (inFront delimiter tokens place behind) ≠
        some (.name word) := fun word =>
      hdelimiter.peek_ne (by simp) (by simp)
        (fun position rest heq => hname ⟨position, word, rest, heq⟩) _ _
    rw [readPath.eq_def]
    split
    · next heq =>
      rw [heq] at hpeek
      exact absurd rfl (hpeek _)
    · rfl

/-- Reading a type stops at a delimiter. -/
theorem stopsAt_readType (tokens : Tokens) : StopsAt delimiter readType tokens := by
  have hpath : ∀ tokens : Tokens,
      (∀ position rest, tokens ≠ ⟨position, .symbol .leftBracket⟩ :: rest) →
      StopsAt delimiter readType tokens := by
    intro tokens hbracket
    refine .takes List.suffix_rfl (fun place behind => ?_)
      ((stopsAt_readPath hdelimiter .fieldType tokens).andThen
      (fun path left => .ok (TypeRef.ofPath path.1 path.2, left)) fun path left _ =>
        .returns (TypeRef.ofPath path.1 path.2) List.suffix_rfl fun _ _ => rfl)
    have hpeek := hdelimiter.peek_ne (by simp) (by simp) hbracket place behind
    rw [readType.eq_def]
    split
    · next heq =>
      rw [heq] at hpeek
      exact absurd rfl hpeek
    · rw [readThen]
      rcases readPath .fieldType (inFront delimiter tokens place behind) with stuck |
        ⟨path, left⟩ <;> rfl
  induction tokens with
  | nil => exact hpath [] (by simp)
  | cons token rest ih =>
    obtain ⟨position, value⟩ := token
    by_cases hbracket : value = .symbol .leftBracket
    · subst hbracket
      have hclose : ∀ (element : TypeRef) (left : Tokens), StopsAt delimiter
          (readThen (readSymbol .rightBracket) fun _ left => .ok (element.list, left))
          left := fun element left =>
        (stopsAt_readSymbol hdelimiter (by simp) (by simp) left).andThen _
          fun _ left _ => .returns element.list List.suffix_rfl fun _ _ => rfl
      refine .takes (List.suffix_cons _ rest) (fun place behind => ?_)
        (ih.andThen _ fun element left _ => hclose element left)
      rw [inFront_cons, Located.move_mk, readType, readThen]
      rcases readType (inFront delimiter rest place behind) with stuck | ⟨element, left⟩
      · rfl
      · dsimp only
        rw [readThen]
        rcases readSymbol .rightBracket left with stuck | ⟨_, left⟩ <;> rfl
    · refine hpath _ fun place others heq => ?_
      obtain ⟨hsame, -⟩ := List.cons.inj heq
      exact hbracket (congrArg Located.value hsame)

/-- Reading a literal stops at a delimiter. -/
theorem stopsAt_readLiteral (tokens : Tokens) : StopsAt delimiter readLiteral tokens := by
  cases tokens with
  | nil =>
    have hnone : delimiter.value.literal? = none := by
      rcases hdelimiter with h | h <;> rw [h] <;> rfl
    refine .stuck .literal List.suffix_rfl fun place behind => ?_
    rw [inFront_nil, readLiteral, Located.move_value, hnone]
  | cons token rest =>
    cases hliteral : token.value.literal? with
    | some literal =>
      refine .returns literal (List.suffix_cons token rest) fun place behind => ?_
      rw [inFront_cons, readLiteral, Located.move_value, hliteral]
    | none =>
      refine .stuck .literal List.suffix_rfl fun place behind => ?_
      rw [inFront_cons, readLiteral, Located.move_value, hliteral]

/-- Reading a question mark stops at a delimiter. -/
theorem stopsAt_readOptional (tokens : Tokens) : ∃ optional left, left <:+ tokens ∧ ∀ place behind,
    readOptional (inFront delimiter tokens place behind) =
      (optional, inFront delimiter left place behind) := by
  by_cases hquestion : ∃ place rest, tokens = ⟨place, .symbol .question⟩ :: rest
  · obtain ⟨place, rest, rfl⟩ := hquestion
    exact ⟨true, rest, List.suffix_cons _ rest, fun _ _ => rfl⟩
  · refine ⟨false, tokens, List.suffix_rfl, fun place behind => ?_⟩
    exact readOptional_append .absent _
      (hdelimiter.peek_ne (by simp) (by simp)
        (fun position rest heq => hquestion ⟨position, rest, heq⟩) _ _)

/-- Reading a default value stops at a delimiter. -/
theorem stopsAt_readDefault (tokens : Tokens) : StopsAt delimiter readDefault tokens := by
  by_cases hequals : ∃ place rest, tokens = ⟨place, .symbol .equals⟩ :: rest
  · obtain ⟨place, rest, rfl⟩ := hequals
    refine .takes (List.suffix_cons _ rest) (fun place behind => ?_)
      ((stopsAt_readLiteral hdelimiter rest).andThen
      (fun literal left => .ok (some literal, left)) fun literal left _ =>
        .returns (some literal) List.suffix_rfl fun _ _ => rfl)
    rw [inFront_cons, Located.move_mk, readDefault, readThen]
    rcases readLiteral (inFront delimiter rest place behind) with stuck | ⟨literal, left⟩ <;> rfl
  · refine .returns none List.suffix_rfl fun place behind => ?_
    exact readDefault_append .absent _
      (hdelimiter.peek_ne (by simp) (by simp)
        (fun position rest heq => hequals ⟨position, rest, heq⟩) _ _)

/-- Validators in front of a delimiter are read alike wherever they stand, and so are the faults
among them. -/
theorem stopsAt_readValidators (given : List Validator) (tokens : Tokens) :
    ∃ (faults : List (Located SyntaxFault)) (result : Read (List Validator)),
      leftBy result <:+ tokens ∧
      ∀ place behind, readValidators given (inFront delimiter tokens place behind) =
        ⟨faults.map (Located.move place), returnedInFront delimiter result place behind⟩ := by
  have hskip : ∀ (mark token : Located Token) (rest : Tokens), rest <:+
      mark :: token :: rest := fun mark token rest =>
    (List.suffix_cons token rest).trans (List.suffix_cons mark (token :: rest))
  fun_induction readValidators given tokens with
  | case1 given mark place name rest validator hword hgiven ih =>
    obtain ⟨faults, result, hleft, hread⟩ := ih
    refine ⟨⟨place, .repeatedValidator validator⟩ :: faults, result, hleft.trans (hskip _ _ rest),
      fun move behind => ?_⟩
    rw [inFront_cons, inFront_cons, Located.move_mk, Located.move_mk, readValidators, hword]
    dsimp only
    rw [if_pos hgiven, hread]
    rfl
  | case2 given mark place name rest validator hword hgiven ih =>
    obtain ⟨faults, result, hleft, hread⟩ := ih
    refine ⟨faults, result, hleft.trans (hskip _ _ rest), fun move behind => ?_⟩
    rw [inFront_cons, inFront_cons, Located.move_mk, Located.move_mk, readValidators, hword]
    dsimp only
    rw [if_neg hgiven, hread]
  | case3 given mark place name rest hword ih =>
    obtain ⟨faults, result, hleft, hread⟩ := ih
    refine ⟨⟨place, .unknownValidator name⟩ :: faults, result, hleft.trans (hskip _ _ rest),
      fun move behind => ?_⟩
    rw [inFront_cons, inFront_cons, Located.move_mk, Located.move_mk, readValidators, hword]
    dsimp only
    rw [hread]
    rfl
  | case4 given mark rest hname =>
    obtain ⟨result, hleft, hread⟩ : StopsAt delimiter
      (fun ahead => .error (Stuck.expected .validatorName ahead)) rest :=
      StopsAt.stuck (α := List Validator) .validatorName List.suffix_rfl fun _ _ => rfl
    refine ⟨[], result, hleft.trans (List.suffix_cons _ rest), fun move behind => ?_⟩
    rw [← hread, inFront_cons, Located.move_mk]
    exact readValidators_at given fun word =>
      hdelimiter.peek_ne (by simp) (by simp) (fun position others => hname position word others) _ _
  | case5 given ahead hname hat =>
    obtain ⟨result, hleft, hread⟩ : StopsAt delimiter (fun left => .ok (given, left)) ahead :=
      .returns given List.suffix_rfl fun _ _ => rfl
    refine ⟨[], result, hleft, fun move behind => ?_⟩
    rw [← hread]
    exact readValidators_of_peek_ne given (hdelimiter.peek_ne (by simp) (by simp) hat _ _)

/-- What a reader leaves, without what it read. -/
def withoutValue {α : Type} (read : Read α) : Read Unit :=
  read.map fun found => ((), found.2)

/-- A field in front of a delimiter is read alike wherever it stands, and so are the faults in
it. -/
theorem stopsAt_readField (tokens : Tokens) :
    ∃ (faults : List (Located SyntaxFault)) (result : Read Unit), leftBy result <:+ tokens ∧
      ∀ name span doc? place behind,
        (readField name span doc? (inFront delimiter tokens place behind)).faults =
            faults.map (Located.move place) ∧
          withoutValue (readField name span doc? (inFront delimiter tokens place behind)).value =
            returnedInFront delimiter result place behind := by
  obtain ⟨colon, hcolon, hreadColon⟩ : StopsAt delimiter (readSymbol .colon) tokens :=
    stopsAt_readSymbol hdelimiter (by simp) (by simp) tokens
  rcases colon with stuck | ⟨_, afterColon⟩
  · refine ⟨[], .error stuck, hcolon, fun name span doc? place behind => ?_⟩
    rw [readField, hreadColon]
    exact ⟨rfl, rfl⟩
  obtain ⟨type, htype, hreadType⟩ := stopsAt_readType hdelimiter afterColon
  rcases type with stuck | ⟨type, afterType⟩
  · refine ⟨[], .error stuck, htype.trans hcolon, fun name span doc? place behind => ?_⟩
    simp only [readField, hreadColon, returnedInFront, hreadType]
    exact ⟨rfl, rfl⟩
  obtain ⟨optional, afterOptional, hoptional, hreadOptional⟩ :=
    stopsAt_readOptional hdelimiter afterType
  obtain ⟨default?, hdefault, hreadDefault⟩ := stopsAt_readDefault hdelimiter afterOptional
  rcases default? with stuck | ⟨default?, afterDefault⟩
  · refine ⟨[], .error stuck, ((hdefault.trans hoptional).trans htype).trans hcolon,
      fun name span doc? place behind => ?_⟩
    simp only [readField, hreadColon, returnedInFront, hreadType, hreadOptional, hreadDefault]
    exact ⟨rfl, rfl⟩
  obtain ⟨faults, validators, hvalidators, hreadValidators⟩ :=
    stopsAt_readValidators hdelimiter [] afterDefault
  have hall : leftBy validators <:+ tokens :=
    (((hvalidators.trans hdefault).trans hoptional).trans htype).trans hcolon
  refine ⟨faults, withoutValue validators, ?_, fun name span doc? place behind => ?_⟩
  · rcases validators with stuck | ⟨validators, left⟩ <;> exact hall
  · simp only [readField, hreadColon, returnedInFront, hreadType, hreadOptional,
      hreadDefault, hreadValidators]
    rcases validators with stuck | ⟨validators, left⟩ <;> exact ⟨rfl, rfl⟩

end Delimiter

end SchemaBindings.Schema
