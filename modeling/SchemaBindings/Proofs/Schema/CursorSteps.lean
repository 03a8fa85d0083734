import SchemaBindings.Proofs.Schema.Cursor

/-!
# Steps of a cursor

A cursor stands at a token or at the end mark: the tokens ahead of it are an end piece of all
tokens, and their number gives its place. From there every step has a result. It looks at what is
ahead, takes the token ahead unless it is at the end mark, and leaves a cursor with an end piece
ahead of it again.

So each step of the grammar comes to what its reader does with the tokens ahead. Loops come to an
end because each turn takes a token.
-/

namespace SchemaBindings.Schema

open SchemaBindings.Text (Position)

namespace Cursor

section Runs

variable {α β : Type} {step : Step α} {next : α → Step β} {state left : State} {a : α}
  {fault : Located SyntaxFault}

/-- A value is reached at once. -/
theorem run_pure (a : α) (state : State) : run (pure a) state = some (.ok a, state) := rfl

/-- A step and what follows it. -/
theorem run_bind (step : Step α) (next : α → Step β) (state : State) :
    run (step >>= next) state = (run step state).bind fun result =>
      match result with
      | (.ok a, state) => run (next a) state
      | (.error fault, state) => some (.error fault, state) := by
  unfold run ExceptT.run StateT.run
  simp only [bind, ExceptT.bind, ExceptT.mk, StateT.bind, ExceptT.bindCont]
  cases step state with
  | none => rfl
  | some result =>
    obtain ⟨outcome, left⟩ := result
    cases outcome <;> rfl

/-- What follows a step goes on from the state that the step leaves. -/
theorem run_bind_of_ok (h : run step state = some (.ok a, left)) :
    run (step >>= next) state = run (next a) left := by
  rw [run_bind, h]
  rfl

/-- Nothing follows a fault. -/
theorem run_bind_of_error (h : run step state = some (.error fault, left)) :
    run (step >>= next) state = some (.error fault, left) := by
  rw [run_bind, h]
  rfl

/-- A step whose fault is looked at does not stop. -/
theorem run_observing {outcome : Except (Located SyntaxFault) α}
    (h : run step state = some (outcome, left)) :
    run (observing step) state = some (.ok outcome, left) := by
  have hstep : observing step = tryCatch (step >>= fun a => pure (.ok a)) fun fault =>
        pure (.error fault) := rfl
  rw [hstep]
  unfold run ExceptT.run StateT.run at h ⊢
  simp only [tryCatch, tryCatchThe, MonadExceptOf.tryCatch, ExceptT.tryCatch, bind,
    ExceptT.bind, ExceptT.mk, StateT.bind, ExceptT.bindCont, h]
  cases outcome <;> rfl

end Runs

end Cursor

/-! ## The stream -/

section Stream

variable {lexing : Lexing} {ahead : Tokens}

/-- The tokens ahead and the end mark stand in the stream behind the tokens taken. -/
theorem drop_stream (h : ahead <:+ lexing.tokens) :
    lexing.stream.drop (lexing.tokens.length - ahead.length) = endMarked lexing.finish ahead := by
  obtain ⟨taken, htaken⟩ := h
  rw [Lexing.stream, ← htaken, List.length_append, Nat.add_sub_cancel_right, endMarked,
    endMarked, List.map_append, List.append_assoc]
  exact List.drop_left' (List.length_map _)

/-- The end mark is one place more. -/
theorem length_stream (lexing : Lexing) : lexing.stream.length = lexing.tokens.length + 1 := by
  rw [Lexing.stream, endMarked, List.length_append, List.length_map, List.length_singleton]

/-- What stands at a place, where places behind the end mark are bent to it. -/
theorem endMarked_getElem? (finish : Position) (ahead : Tokens) (offset : Nat) :
    (endMarked finish ahead)[min offset ahead.length]? =
      some ⟨placeOf finish (ahead.drop offset), peek (ahead.drop offset)⟩ := by
  induction ahead generalizing offset with
  | nil => simp [endMarked, placeOf, peek]
  | cons token rest ih =>
    cases offset with
    | zero => rw [List.length_cons, Nat.zero_min]; rfl
    | succ offset =>
      rw [List.length_cons, Nat.succ_min_succ, List.drop_succ_cons, ← ih offset]
      rfl

end Stream

namespace Cursor

/-! ## The token ahead -/

/-- The state of a cursor that has tokens ahead of it. -/
def standing (lexing : Lexing) (ahead : Tokens) (faults : List (Located SyntaxFault))
    (namespacePath? : Option String) :
    State :=
  ⟨lexing.tokens.length - ahead.length, faults, namespacePath?⟩

section Steps

variable {α : Type} {lexing : Lexing} {ahead rest : Tokens} {token : Located Token}
  {faults : List (Located SyntaxFault)} {namespacePath? : Option String}

/-- The item some places ahead is found, and it is the end mark behind the last token. -/
theorem run_itemAt (h : ahead <:+ lexing.tokens) (offset : Nat) :
    run (itemAt lexing.stream offset) (standing lexing ahead faults namespacePath?) =
      some (.ok ⟨placeOf lexing.finish (ahead.drop offset), peek (ahead.drop offset)⟩,
        standing lexing ahead faults namespacePath?) := by
  have hlength := h.length_le
  have hlast : lastPlace? lexing.stream = some lexing.tokens.length := by
    rw [lastPlace?, length_stream, if_pos (Nat.le_add_left 1 _), Nat.add_sub_cancel]
  have hplace : min (lexing.tokens.length - ahead.length + offset) lexing.tokens.length =
      lexing.tokens.length - ahead.length + min offset ahead.length := by
    omega
  have hitem : lexing.stream[min (lexing.tokens.length - ahead.length + offset)
        lexing.tokens.length]? =
      some ⟨placeOf lexing.finish (ahead.drop offset), peek (ahead.drop offset)⟩ := by
    rw [← endMarked_getElem?, ← drop_stream h, List.getElem?_drop, hplace]
  rw [itemAt, hlast]
  exact congrArg (fun item => run (checked item) (standing lexing ahead faults namespacePath?))
    hitem

/-- The item ahead is found, and it is the end mark behind the last token. -/
theorem run_current (h : ahead <:+ lexing.tokens) :
    run (current lexing.stream) (standing lexing ahead faults namespacePath?) =
      some (.ok ⟨placeOf lexing.finish ahead, peek ahead⟩,
        standing lexing ahead faults namespacePath?) :=
  run_itemAt h 0

/-- Where a token is ahead, it is that one. -/
theorem run_current_cons (h : token :: rest <:+ lexing.tokens) :
    run (current lexing.stream) (standing lexing (token :: rest) faults namespacePath?) =
      some (.ok ⟨token.position, some token.value⟩, standing lexing (token :: rest)
        faults namespacePath?) :=
  run_current h

/-- The token some places ahead is found, if there is one. -/
theorem run_peekAt (h : ahead <:+ lexing.tokens) (offset : Nat) :
    run (peekAt lexing.stream offset) (standing lexing ahead faults namespacePath?) =
      some (.ok (peek (ahead.drop offset)), standing lexing ahead faults namespacePath?) := by
  rw [peekAt, run_bind_of_ok (run_itemAt h offset), run_pure]

/-- Going on takes the token ahead. -/
theorem run_advance (h : token :: rest <:+ lexing.tokens) :
    run (advance lexing.stream) (standing lexing (token :: rest) faults namespacePath?) =
      some (.ok (), standing lexing rest faults namespacePath?) := by
  have hlength := h.length_le
  rw [List.length_cons] at hlength
  have hplace : lexing.tokens.length - (token :: rest).length + 1 =
      lexing.tokens.length - rest.length := by
    rw [List.length_cons]
    omega
  have hinside : lexing.tokens.length - rest.length < lexing.stream.length := by
    rw [length_stream]
    omega
  have hnext : (if lexing.tokens.length - (token :: rest).length + 1 < lexing.stream.length then
      some (lexing.tokens.length - (token :: rest).length + 1)
      else none) = some (lexing.tokens.length - rest.length) := by
    rw [hplace, if_pos hinside]
  rw [advance, run_bind_of_ok (run_current h), peek, List.head?_cons, Option.map_some,
    Option.isSome_some, if_pos rfl]
  exact congrArg
    (fun place => run (checked place >>= fun place => set (State.mk place faults namespacePath?))
    (standing lexing (token :: rest) faults namespacePath?)) hnext

/-- Stopping gives a fault at the token ahead. -/
theorem run_stop (h : ahead <:+ lexing.tokens) (fault : SyntaxFault) :
    run (stop lexing.stream fault : Step α) (standing lexing ahead faults namespacePath?) =
      some (.error ⟨placeOf lexing.finish ahead, fault⟩,
        standing lexing ahead faults namespacePath?) := by
  rw [stop, run_bind_of_ok (run_current h)]
  rfl

/-- Noting a fault keeps the place. -/
theorem run_note (fault : Located SyntaxFault) :
    run (note fault) (standing lexing ahead faults namespacePath?) =
      some (.ok (), standing lexing ahead (faults ++ [fault]) namespacePath?) := rfl

/-! ## Readers -/

/-- What a reader comes to. -/
def reached (lexing : Lexing) (faults : List (Located SyntaxFault))
    (namespacePath? : Option String) :
    Read α → Option (Except (Located SyntaxFault) α × State)
  | .ok (a, left) => some (.ok a, standing lexing left faults namespacePath?)
  | .error stuck =>
    some (.error (stuck.located lexing.finish), standing lexing stuck.ahead faults namespacePath?)

/-- No token of a kind is ahead if the tokens ahead do not start with one. -/
theorem peek_ne {value : Token} (h : ∀ position rest, ahead ≠ ⟨position, value⟩ :: rest) :
    peek ahead ≠ some value := by
  cases ahead with
  | nil => exact Option.some_ne_none value ∘ Eq.symm
  | cons token rest =>
    intro hpeek
    obtain rfl := Option.some.inj hpeek
    exact h token.position rest rfl

/-- The token ahead is found, if there is one. -/
theorem run_peek (h : ahead <:+ lexing.tokens) :
    run (peekAt lexing.stream 0) (standing lexing ahead faults namespacePath?) =
      some (.ok (peek ahead), standing lexing ahead faults namespacePath?) :=
  run_peekAt h 0

/-- No token ahead is found at the end mark. -/
theorem run_peek_nil :
    run (peekAt lexing.stream 0) (standing lexing [] faults namespacePath?) =
      some (.ok none, standing lexing [] faults namespacePath?) :=
  run_peekAt List.nil_suffix 0

/-- Where a token is ahead, it is found. -/
theorem run_peek_cons (h : token :: rest <:+ lexing.tokens) :
    run (peekAt lexing.stream 0) (standing lexing (token :: rest) faults namespacePath?) =
      some (.ok (some token.value), standing lexing (token :: rest) faults namespacePath?) :=
  run_peekAt h 0

/-- A punctuation mark is taken as it is read. -/
theorem run_expectSymbol (h : ahead <:+ lexing.tokens) (mark : Symbol) :
    run (expectSymbol lexing.stream mark) (standing lexing ahead faults namespacePath?) =
      reached lexing faults namespacePath? (readSymbol mark ahead) := by
  cases ahead with
  | nil =>
    rw [expectSymbol, run_bind_of_ok run_peek_nil, if_neg (Option.some_ne_none _).symm, run_stop h]
    rfl
  | cons token rest =>
    rw [expectSymbol, run_bind_of_ok (run_peek_cons h), readSymbol]
    by_cases hmark : token.value = .symbol mark
    · rw [if_pos hmark, if_pos (congrArg some hmark), run_advance h]
      rfl
    · rw [if_neg hmark, if_neg fun hsome => hmark (Option.some.inj hsome), run_stop h]
      rfl

/-- A name is taken. -/
theorem run_expectName_cons {position : Position} {name : String}
    (h : ⟨position, .name name⟩ :: rest <:+ lexing.tokens) (what : Expectation) :
    run (expectName lexing.stream what) (standing lexing (⟨position, .name name⟩ :: rest)
      faults namespacePath?) =
      some (.ok (name, position), standing lexing rest faults namespacePath?) := by
  rw [expectName, run_bind_of_ok (run_current h)]
  exact run_bind_of_ok (run_advance h)

/-- Where no name is ahead, taking one stops. -/
theorem run_expectName (h : ahead <:+ lexing.tokens) (what : Expectation)
    (hname : ∀ position name rest, ahead ≠ ⟨position, .name name⟩ :: rest) :
    run (expectName lexing.stream what) (standing lexing ahead faults namespacePath?) =
      some (.error ((Stuck.expected what ahead).located lexing.finish),
        standing lexing ahead faults namespacePath?) := by
  rw [expectName, run_bind_of_ok (run_current h)]
  dsimp only
  split
  · next name hpeek => exact absurd hpeek (peek_ne fun position rest => hname position name rest)
  · exact run_stop h _

/-- Looking at three tokens tells whether a declaration starts. -/
theorem run_atDeclaration (h : ahead <:+ lexing.tokens) :
    run (atDeclaration lexing.stream) (standing lexing ahead faults namespacePath?) =
      some (.ok (startsDeclaration ahead), standing lexing ahead faults namespacePath?) := by
  rw [atDeclaration, run_bind_of_ok (run_peekAt h 0), run_bind_of_ok (run_peekAt h 1),
    run_bind_of_ok (run_peekAt h 2)]
  split
  · next word name hword hname hbrace =>
    match ahead, hword, hname, hbrace with
    | ⟨_, _⟩ :: ⟨_, _⟩ :: ⟨_, _⟩ :: _, rfl, rfl, rfl => rfl
  · next hother =>
    fun_cases startsDeclaration ahead with
    | case1 => exact (hother _ _ rfl rfl rfl).elim
    | case2 => rfl

/-- Doc comments are taken as they are split off. -/
theorem run_takeDocs (h : ahead <:+ lexing.tokens) :
    run lexing.stream.takeDocs (standing lexing ahead faults namespacePath?) =
      some (.ok (Schema.takeDocs ahead).1, standing lexing (Schema.takeDocs ahead).2 faults
        namespacePath?) := by
  fun_induction Schema.takeDocs ahead with
  | case1 position line rest lines left hdocs ih =>
    have hrest := (List.suffix_cons _ _).trans h
    rw [hdocs] at ih
    rw [TokenStream.takeDocs, run_bind_of_ok (run_peek_cons h)]
    dsimp only
    rw [run_bind_of_ok (run_advance h), run_bind_of_ok (ih hrest), run_pure]
  | case2 ahead hdoc =>
    rw [TokenStream.takeDocs, run_bind_of_ok (run_peekAt h 0)]
    split
    · next line hpeek =>
        exact absurd hpeek (peek_ne fun position rest heq => hdoc position line rest heq)
    · rfl

/-- Skipping behind a broken field comes to an end, whatever is ahead. -/
theorem run_recoverField (h : ahead <:+ lexing.tokens) (depth : Nat) :
    run (lexing.stream.recoverField depth) (standing lexing ahead faults namespacePath?) =
      some (.ok (), standing lexing (skipField depth ahead) faults namespacePath?) := by
  induction ahead generalizing depth with
  | nil =>
    rw [TokenStream.recoverField, run_bind_of_ok run_peek_nil]
    rfl
  | cons token rest ih =>
    have hrest := ih ((List.suffix_cons _ _).trans h)
    rw [TokenStream.recoverField, run_bind_of_ok (run_peek_cons h), skipField]
    dsimp only
    by_cases hend : depth = 0 ∧ (token.value = .symbol .comma ∨ token.value = .symbol .rightBrace)
    · rw [if_pos hend, if_pos hend]
      rfl
    rw [if_neg hend, if_neg hend, run_bind_of_ok (run_atDeclaration h)]
    by_cases hstart : depth = 0 ∧ startsDeclaration (token :: rest)
    · rw [if_pos hstart, if_pos hstart]
      rfl
    rw [if_neg hstart, if_neg hstart, run_bind_of_ok (run_advance h)]
    split
    · exact hrest _
    · split
      · exact hrest _
      · exact hrest _

/-- Skipping behind a broken declaration comes to an end, whatever is ahead. -/
theorem run_recoverDeclaration (h : ahead <:+ lexing.tokens) (depth : Nat) :
    run (lexing.stream.recoverDeclaration depth) (standing lexing ahead faults namespacePath?) =
      some (.ok (), standing lexing (skipDeclaration depth ahead) faults namespacePath?) := by
  induction ahead generalizing depth with
  | nil =>
    rw [TokenStream.recoverDeclaration, run_bind_of_ok run_peek_nil]
    rfl
  | cons token rest ih =>
    have hrest := ih ((List.suffix_cons _ _).trans h)
    rw [TokenStream.recoverDeclaration, run_bind_of_ok (run_peek_cons h), skipDeclaration]
    dsimp only
    by_cases hend : depth = 0 ∧ token.value = .name "type"
    · rw [if_pos hend, if_pos hend]
      rfl
    rw [if_neg hend, if_neg hend, run_bind_of_ok (run_advance h)]
    split
    · exact hrest _
    · split
      · exact hrest _
      · exact hrest _

/-- A comma is taken as it is dropped. -/
theorem run_takeComma (h : ahead <:+ lexing.tokens) :
    run (takeComma lexing.stream) (standing lexing ahead faults namespacePath?) =
      some (.ok (), standing lexing (dropComma ahead) faults namespacePath?) := by
  rw [takeComma, run_bind_of_ok (run_peek h)]
  fun_cases dropComma ahead with
  | case1 position rest => rw [peek, List.head?_cons, Option.map_some, if_pos rfl, run_advance h]
  | case2 ahead hcomma =>
    rw [if_neg (peek_ne fun position rest heq => hcomma position rest heq)]
    rfl

/-- Going on behind a broken field comes to where readers go on. -/
theorem run_resume (h : ahead <:+ lexing.tokens) :
    run (resume lexing.stream) (standing lexing ahead faults namespacePath?) =
      some (.ok (), standing lexing (resumeField ahead) faults namespacePath?) := by
  rw [resume, run_bind_of_ok (run_recoverField h 0),
    run_takeComma ((skipField_suffix 0 ahead).trans h)]
  rfl

/-- What a reader leaves is an end piece of what it got. -/
theorem suffix_of_read_ok {read : Read α} {a : α} {left : Tokens} (h : leftBy read <:+ ahead)
    (hread : read = .ok (a, left)) : left <:+ ahead := by
  rw [hread] at h
  exact h

/-- What is ahead of a stuck reader is an end piece of what it got. -/
theorem suffix_of_read_error {read : Read α} {stuck : Stuck} (h : leftBy read <:+ ahead)
    (hread : read = .error stuck) :
    stuck.ahead <:+ ahead := by
  rw [hread] at h
  exact h

section Reached

variable {step : Step α} {state : State} {read : Read α} {noted : Noted (Read α)} {a : α}
  {left : Tokens} {stuck : Stuck} {found : List (Located SyntaxFault)}

/-- A step that comes to what a reader does goes on behind what was read. -/
theorem run_of_read_ok (h : run step state = reached lexing faults namespacePath? read)
    (hread : read = .ok (a, left)) :
    run step state = some (.ok a, standing lexing left faults namespacePath?) := by
  rw [h, hread]
  rfl

/-- A step that comes to what a stuck reader does stops there. -/
theorem run_of_read_error (h : run step state = reached lexing faults namespacePath? read)
    (hread : read = .error stuck) :
    run step state =
      some (.error (stuck.located lexing.finish), standing lexing stuck.ahead faults
        namespacePath?) := by
  rw [h, hread]
  rfl

/-- A step that comes to what a reader with notes does goes on where the reader stops, with its
notes. -/
theorem run_of_noted_ok
    (h : run step state = reached lexing (faults ++ noted.faults) namespacePath? noted.value)
    (hread : noted = ⟨found, .ok (a, left)⟩) :
    run step state = some (.ok a, standing lexing left (faults ++ found) namespacePath?) := by
  rw [h, hread]
  rfl

/-- A step that comes to what a stuck reader with notes does stops there, with its notes. -/
theorem run_of_noted_error
    (h : run step state = reached lexing (faults ++ noted.faults) namespacePath? noted.value)
    (hread : noted = ⟨found, .error stuck⟩) :
    run step state =
      some (.error (stuck.located lexing.finish), standing lexing stuck.ahead (faults ++ found)
        namespacePath?) := by
  rw [h, hread]
  rfl

end Reached

/-- Further segments are parsed as they are read. -/
theorem run_parseSegments (h : ahead <:+ lexing.tokens) :
    run lexing.stream.parseSegments (standing lexing ahead faults namespacePath?) =
      reached lexing faults namespacePath? (readSegments ahead) := by
  fun_induction readSegments ahead with
  | case1 dot position segment rest segments left hread ih =>
    have hname := (List.suffix_cons _ _).trans h
    have hrest := ih ((List.suffix_cons _ _).trans hname)
    rw [TokenStream.parseSegments, run_bind_of_ok (run_peek_cons h), if_pos rfl,
      run_bind_of_ok (run_advance h), run_bind_of_ok (run_expectName_cons hname _)]
    exact run_bind_of_ok (run_of_read_ok hrest hread)
  | case2 dot position segment rest stuck hread ih =>
    have hname := (List.suffix_cons _ _).trans h
    have hrest := ih ((List.suffix_cons _ _).trans hname)
    rw [TokenStream.parseSegments, run_bind_of_ok (run_peek_cons h), if_pos rfl,
      run_bind_of_ok (run_advance h), run_bind_of_ok (run_expectName_cons hname _)]
    exact run_bind_of_error (run_of_read_error hrest hread)
  | case3 dot rest hother =>
    have hrest := (List.suffix_cons _ _).trans h
    rw [TokenStream.parseSegments, run_bind_of_ok (run_peek_cons h), if_pos rfl,
      run_bind_of_ok (run_advance h)]
    exact run_bind_of_error
      (run_expectName hrest _ fun position name rest heq => hother position name rest heq)
  | case4 ahead hname hdot =>
    rw [TokenStream.parseSegments, run_bind_of_ok (run_peek h),
      if_neg (peek_ne fun position rest heq => hdot position rest heq)]
    rfl

/-- Dotted names are parsed as they are read. -/
theorem run_parsePath (h : ahead <:+ lexing.tokens) (what : Expectation) :
    run (parsePath lexing.stream what) (standing lexing ahead faults namespacePath?) =
      reached lexing faults namespacePath? (readPath what ahead) := by
  fun_cases readPath what ahead with
  | case1 position first rest segments left hread =>
    rw [parsePath, run_bind_of_ok (run_expectName_cons h what)]
    exact run_bind_of_ok (run_of_read_ok (run_parseSegments ((List.suffix_cons _ _).trans h)) hread)
  | case2 position first rest stuck hread =>
    rw [parsePath, run_bind_of_ok (run_expectName_cons h what)]
    exact run_bind_of_error
      (run_of_read_error (run_parseSegments ((List.suffix_cons _ _).trans h)) hread)
  | case3 ahead hother =>
    exact run_bind_of_error
      (run_expectName h what fun position name rest heq => hother position name rest heq)

/-- Types are parsed as they are read. -/
theorem run_parseType (h : ahead <:+ lexing.tokens) :
    run lexing.stream.parseType (standing lexing ahead faults namespacePath?) =
      reached lexing faults namespacePath? (readType ahead) := by
  fun_induction readType ahead with
  | case1 position rest stuck hread ih =>
    rw [TokenStream.parseType, run_bind_of_ok (run_peek_cons h), if_pos rfl,
      run_bind_of_ok (run_advance h)]
    exact run_bind_of_error (run_of_read_error (ih ((List.suffix_cons _ _).trans h)) hread)
  | case2 position rest element left hread closed left' hclose ih =>
    have hrest := (List.suffix_cons _ _).trans h
    have hleft := suffix_of_read_ok (readType_suffix rest) hread
    rw [TokenStream.parseType, run_bind_of_ok (run_peek_cons h), if_pos rfl,
      run_bind_of_ok (run_advance h), run_bind_of_ok (run_of_read_ok (ih hrest) hread)]
    exact run_bind_of_ok (run_of_read_ok (run_expectSymbol (hleft.trans hrest) _) hclose)
  | case3 position rest element left hread stuck hclose ih =>
    have hrest := (List.suffix_cons _ _).trans h
    have hleft := suffix_of_read_ok (readType_suffix rest) hread
    rw [TokenStream.parseType, run_bind_of_ok (run_peek_cons h), if_pos rfl,
      run_bind_of_ok (run_advance h), run_bind_of_ok (run_of_read_ok (ih hrest) hread)]
    exact run_bind_of_error (run_of_read_error (run_expectSymbol (hleft.trans hrest) _) hclose)
  | case4 ahead hother first segments left hread =>
    rw [TokenStream.parseType, run_bind_of_ok (run_peek h),
      if_neg (peek_ne fun position rest heq => hother position rest heq)]
    exact run_bind_of_ok (run_of_read_ok (run_parsePath h _) hread)
  | case5 ahead hother stuck hread =>
    rw [TokenStream.parseType, run_bind_of_ok (run_peek h),
      if_neg (peek_ne fun position rest heq => hother position rest heq)]
    exact run_bind_of_error (run_of_read_error (run_parsePath h _) hread)

/-- Literals are parsed as they are read. -/
theorem run_parseLiteral (h : ahead <:+ lexing.tokens) :
    run (parseLiteral lexing.stream) (standing lexing ahead faults namespacePath?) =
      reached lexing faults namespacePath? (readLiteral ahead) := by
  cases ahead with
  | nil =>
    rw [parseLiteral, run_bind_of_ok run_peek_nil]
    exact run_stop h _
  | cons token rest =>
    rw [parseLiteral, run_bind_of_ok (run_peek_cons h), Option.bind_some, readLiteral]
    cases token.value.literal? with
    | some literal => exact run_bind_of_ok (run_advance h)
    | none => exact run_stop h _

/-- Question marks are parsed as they are read. -/
theorem run_parseOptional (h : ahead <:+ lexing.tokens) :
    run (parseOptional lexing.stream) (standing lexing ahead faults namespacePath?) =
      some (.ok (readOptional ahead).1, standing lexing (readOptional ahead).2 faults
        namespacePath?) := by
  fun_cases readOptional ahead with
  | case1 position rest =>
    rw [parseOptional, run_bind_of_ok (run_peek_cons h), if_pos rfl]
    exact run_bind_of_ok (run_advance h)
  | case2 ahead hother =>
    rw [parseOptional, run_bind_of_ok (run_peek h),
      if_neg (peek_ne fun position rest heq => hother position rest heq)]
    rfl

/-- Default values are parsed as they are read. -/
theorem run_parseDefault (h : ahead <:+ lexing.tokens) :
    run (parseDefault lexing.stream) (standing lexing ahead faults namespacePath?) =
      reached lexing faults namespacePath? (readDefault ahead) := by
  fun_cases readDefault ahead with
  | case1 position rest literal left hread =>
    rw [parseDefault, run_bind_of_ok (run_peek_cons h), if_pos rfl, run_bind_of_ok (run_advance h)]
    exact run_bind_of_ok (run_of_read_ok (run_parseLiteral ((List.suffix_cons _ _).trans h)) hread)
  | case2 position rest stuck hread =>
    rw [parseDefault, run_bind_of_ok (run_peek_cons h), if_pos rfl, run_bind_of_ok (run_advance h)]
    exact run_bind_of_error
      (run_of_read_error (run_parseLiteral ((List.suffix_cons _ _).trans h)) hread)
  | case3 ahead hother =>
    rw [parseDefault, run_bind_of_ok (run_peek h),
      if_neg (peek_ne fun position rest heq => hother position rest heq)]
    rfl

/-- Validators are parsed as they are read. -/
theorem run_parseValidators (h : ahead <:+ lexing.tokens) (given : List Validator) :
    run (lexing.stream.parseValidators given) (standing lexing ahead faults namespacePath?) =
      reached lexing (faults ++ (readValidators given ahead).faults) namespacePath?
        (readValidators given ahead).value := by
  fun_induction readValidators given ahead generalizing faults with
  | case1 given at' position name rest validator hword hgiven ih =>
    have hname := (List.suffix_cons _ _).trans h
    rw [TokenStream.parseValidators, run_bind_of_ok (run_peek_cons h), if_pos rfl,
      run_bind_of_ok (run_advance h), run_bind_of_ok (run_expectName_cons hname _)]
    dsimp only
    rw [hword]
    dsimp only
    rw [if_pos hgiven, run_bind_of_ok (run_note _), ih ((List.suffix_cons _ _).trans hname),
      Noted.after, List.append_assoc]
  | case2 given at' position name rest validator hword hgiven ih =>
    have hname := (List.suffix_cons _ _).trans h
    rw [TokenStream.parseValidators, run_bind_of_ok (run_peek_cons h), if_pos rfl,
      run_bind_of_ok (run_advance h), run_bind_of_ok (run_expectName_cons hname _)]
    dsimp only
    rw [hword]
    dsimp only
    rw [if_neg hgiven, ih ((List.suffix_cons _ _).trans hname)]
  | case3 given at' position name rest hword ih =>
    have hname := (List.suffix_cons _ _).trans h
    rw [TokenStream.parseValidators, run_bind_of_ok (run_peek_cons h), if_pos rfl,
      run_bind_of_ok (run_advance h), run_bind_of_ok (run_expectName_cons hname _)]
    dsimp only
    rw [hword]
    dsimp only
    rw [run_bind_of_ok (run_note _), ih ((List.suffix_cons _ _).trans hname),
      Noted.after, List.append_assoc]
  | case4 given at' rest hother =>
    have hrest := (List.suffix_cons _ _).trans h
    rw [TokenStream.parseValidators, run_bind_of_ok (run_peek_cons h), if_pos rfl,
      run_bind_of_ok (run_advance h), List.append_nil]
    exact run_bind_of_error
      (run_expectName hrest _ fun position name rest heq => hother position name rest heq)
  | case5 given ahead hname hother =>
    rw [TokenStream.parseValidators, run_bind_of_ok (run_peek h),
      if_neg (peek_ne fun position rest heq => hother position rest heq), List.append_nil]
    rfl

end Steps

end Cursor

end SchemaBindings.Schema
