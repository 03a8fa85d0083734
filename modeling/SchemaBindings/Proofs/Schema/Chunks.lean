import Mathlib.Data.List.Infix
import SchemaBindings.Proofs.Schema.Delimiters

/-!
# Recovery is local

The body of a type falls into chunks between its commas. Where square brackets are balanced in every
chunk, a reader that is stuck inside one skips to the comma or the closing brace behind that chunk:
of what is left of a chunk, every end has at least as many closing brackets as opening ones. So the
faults of a chunk are those of a declaration that holds it alone, and no chunk hides, adds or moves
a fault of another one.
-/

namespace SchemaBindings.Schema

open SchemaBindings.Text (Position)

/-! ## Chunks -/

/-- How many tokens are a given mark. -/
def countMark (mark : Symbol) (tokens : Tokens) : Nat :=
  tokens.countP fun token => token.value = .symbol mark

/-- Tokens without commas and braces, in which square brackets are balanced. -/
structure IsChunk (tokens : Tokens) : Prop where
  plain : ∀ token ∈ tokens, token.value ≠ .symbol .comma ∧ token.value ≠ .symbol .leftBrace ∧
    token.value ≠ .symbol .rightBrace
  balanced : countMark .leftBracket tokens = countMark .rightBracket tokens
  nested : ∀ front, front <+: tokens → countMark .rightBracket front ≤ countMark .leftBracket front

instance (tokens : Tokens) : Decidable (IsChunk tokens) :=
  decidable_of_iff
    ((∀ token ∈ tokens, token.value ≠ .symbol .comma ∧ token.value ≠ .symbol .leftBrace ∧
        token.value ≠ .symbol .rightBrace) ∧
      countMark .leftBracket tokens = countMark .rightBracket tokens ∧
      ∀ front ∈ tokens.inits, countMark .rightBracket front ≤ countMark .leftBracket front)
    ⟨fun ⟨hplain, hbalanced, hnested⟩ => ⟨hplain, hbalanced,
      fun front hfront => hnested front ((List.mem_inits _ _).mpr hfront)⟩, fun h =>
        ⟨h.plain, h.balanced, fun front hfront => h.nested front ((List.mem_inits _ _).mp hfront)⟩⟩

/-- What may be left of a chunk: no end of it opens more brackets than it closes. -/
structure ChunkEnd (tokens : Tokens) : Prop where
  plain : ∀ token ∈ tokens, token.value ≠ .symbol .comma ∧ token.value ≠ .symbol .leftBrace ∧
    token.value ≠ .symbol .rightBrace
  closes : ∀ left, left <:+ tokens → countMark .leftBracket left ≤ countMark .rightBracket left

/-- There is no mark among no tokens. -/
@[simp] theorem countMark_nil (mark : Symbol) : countMark mark [] = 0 := rfl

/-- The marks among tokens are those among the first ones and those among the others. -/
theorem countMark_append (mark : Symbol) (tokens others : Tokens) :
    countMark mark (tokens ++ others) = countMark mark tokens + countMark mark others :=
  List.countP_append

/-- The marks among tokens are those behind the first one, and the first one if it is a mark. -/
theorem countMark_cons (mark : Symbol) (token : Located Token) (tokens : Tokens) :
    countMark mark (token :: tokens) = countMark mark tokens + if token.value = .symbol mark then 1
    else 0 := by
  rw [countMark, List.countP_cons, ← countMark]
  simp

/-- All of a chunk may be left. -/
theorem IsChunk.chunkEnd {tokens : Tokens} (h : IsChunk tokens) : ChunkEnd tokens where
  plain := h.plain
  closes := by
    rintro left ⟨front, rfl⟩
    have hfront := h.nested front (List.prefix_append front left)
    have hbalanced := h.balanced
    rw [countMark_append, countMark_append] at hbalanced
    omega

/-- What is left of an end of a chunk is one. -/
theorem ChunkEnd.suffix {tokens left : Tokens} (h : ChunkEnd tokens) (hleft : left <:+ tokens) :
    ChunkEnd left :=
  ⟨fun token htoken => h.plain token (hleft.subset htoken),
    fun _ hend => h.closes _ (hend.trans hleft)⟩

section Delimiter

variable {delimiter : Located Token} (hdelimiter : Delimits delimiter)
include hdelimiter

/-- No declaration starts inside a chunk. Its brace would be in the chunk, or one of its first three
tokens would be the delimiter. -/
theorem ChunkEnd.not_startsDeclaration {tokens : Tokens} (h : ChunkEnd tokens)
    (place : Position → Position) (behind : Tokens) (hne : tokens ≠ []) :
    startsDeclaration (inFront delimiter tokens place behind) = false := by
  rw [startsDeclaration.eq_def]
  split
  · next p word q name r rest heq =>
    have hnoBrace : ∀ token : Located Token, (token ∈ tokens ∨ token = delimiter) →
        token.value ≠ .symbol .leftBrace := by
      rintro token (hmem | rfl)
      · exact (h.plain token hmem).2.1
      · rcases hdelimiter with hd | hd <;> simp [hd]
    have hname : ∀ word, delimiter.value ≠ .name word := by
      intro word
      rcases hdelimiter with hd | hd <;> simp [hd]
    match tokens, hne with
    | [_], _ =>
      simp only [inFront_cons, inFront_nil, List.cons.injEq] at heq
      exact absurd (congrArg Located.value heq.2.1) (hname name)
    | [_, _], _ =>
      simp only [inFront_cons, inFront_nil, List.cons.injEq] at heq
      exact absurd (congrArg Located.value heq.2.2.1) (hnoBrace delimiter (.inr rfl))
    | _ :: _ :: third :: _, _ =>
      simp only [inFront_cons, List.cons.injEq] at heq
      exact absurd (congrArg Located.value heq.2.2.1) (hnoBrace third (.inl (by simp)))
  · rfl

/-- Skipping from what is left of a chunk ends at the delimiter behind it. -/
theorem ChunkEnd.skipField_eq {tokens : Tokens} (h : ChunkEnd tokens) (place : Position → Position)
    (behind : Tokens) {depth : Nat}
    (hdepth : depth + countMark .leftBracket tokens ≤ countMark .rightBracket tokens) :
    skipField depth (inFront delimiter tokens place behind) = delimiter.move place :: behind := by
  induction tokens generalizing depth with
  | nil =>
    obtain rfl : depth = 0 := by simpa [countMark] using hdepth
    rw [inFront_nil, skipField, if_pos ⟨rfl, hdelimiter⟩]
  | cons token rest ih =>
    have hrest := h.suffix (List.suffix_cons token rest)
    have hends := h.closes rest (List.suffix_cons token rest)
    obtain ⟨hcomma, hopen, hclose⟩ := h.plain token List.mem_cons_self
    have hstart : startsDeclaration (token.move place :: inFront delimiter rest place behind) =
        false :=
      h.not_startsDeclaration hdelimiter place behind (List.cons_ne_nil _ _)
    rw [countMark_cons, countMark_cons] at hdepth
    rw [inFront_cons, skipField]
    simp only [Located.move_value, hcomma, hclose, hopen, hstart, or_self,
      and_false, if_false, false_or, Bool.false_eq_true]
    by_cases hleft : token.value = .symbol .leftBracket
    · rw [if_pos hleft]
      simp only [hleft, if_true, Token.symbol.injEq, reduceCtorEq, if_false] at hdepth
      exact ih hrest (by omega)
    · rw [if_neg hleft]
      rw [if_neg hleft] at hdepth
      by_cases hright : token.value = .symbol .rightBracket
      · rw [if_pos hright]
        rw [if_pos hright] at hdepth
        exact ih hrest (by omega)
      · rw [if_neg hright]
        rw [if_neg hright] at hdepth
        exact ih hrest (by omega)

/-- Reading goes on behind the comma of a broken chunk, or at its closing brace. -/
theorem ChunkEnd.resumeField_eq {tokens : Tokens} (h : ChunkEnd tokens)
    (place : Position → Position) (behind : Tokens) :
    resumeField (inFront delimiter tokens place behind) =
      dropComma (delimiter.move place :: behind) := by
  rw [resumeField, h.skipField_eq hdelimiter place behind
    (by simpa using h.closes tokens List.suffix_rfl)]

omit hdelimiter in
/-- The place ahead of tokens in front of a delimiter. -/
theorem placeOf_inFront (finish : Position) (tokens : Tokens) (place : Position → Position)
    (behind : Tokens) :
    placeOf finish (inFront delimiter tokens place behind) =
      place (placeOf delimiter.position tokens) := by
  cases tokens <;> rfl

/-- A delimiter ends a field. -/
theorem Delimits.endsField (place : Position → Position) (behind : Tokens) :
    EndsField (delimiter.move place :: behind) := by
  rcases hdelimiter with h | h
  · exact .inl (congrArg some h)
  · exact .inr (congrArg some h)

/-- Behind what was read of a chunk, the field ends at the delimiter, without a fault only if
nothing is left of the chunk. -/
theorem ChunkEnd.endField_eq {tokens : Tokens} (h : ChunkEnd tokens) :
    ∃ faults : List (Located SyntaxFault),
    ∀ finish place behind, endField finish (inFront delimiter tokens place behind) =
      (faults.map (Located.move place), dropComma (delimiter.move place :: behind)) := by
  cases tokens with
  | nil =>
    exact ⟨[], fun finish place behind => endField_of_endsField finish
      (hdelimiter.endsField place behind)⟩
  | cons token rest =>
    refine ⟨[⟨token.position, .expected .fieldEnd (some token.value)⟩],
      fun finish place behind => ?_⟩
    obtain ⟨hcomma, -, hclose⟩ := h.plain token List.mem_cons_self
    have hstart := h.not_startsDeclaration hdelimiter place behind (List.cons_ne_nil token rest)
    have hresume := h.resumeField_eq hdelimiter place behind
    rw [inFront_cons] at hstart hresume ⊢
    have hpeek : peek (token.move place :: inFront delimiter rest place behind) ≠
        some (.symbol .comma) :=
      fun heq => hcomma (Option.some.inj heq)
    rw [endField, if_neg hpeek, if_neg, hresume]
    · rfl
    · simp [closesBody, hclose, hstart]

/-- An entry that starts in a chunk ends at the delimiter behind it, with the same faults wherever
it stands. -/
theorem ChunkEnd.readEntry_eq {token : Located Token} {tokens : Tokens}
    (h : ChunkEnd (token :: tokens)) :
    ∃ faults : List (Located SyntaxFault), ∀ file finish doc? place behind,
      let entry :=
        readEntry file finish doc? (token.move place) (inFront delimiter tokens place behind)
      entry.faults = faults.map (Located.move place) ∧
      entry.ahead = dropComma (delimiter.move place :: behind) := by
  have hrest := h.suffix (List.suffix_cons token tokens)
  obtain ⟨position, value⟩ := token
  by_cases hname : ∃ name, value = .name name
  · obtain ⟨name, rfl⟩ := hname
    obtain ⟨faults, result, hleft, hread⟩ := stopsAt_readField hdelimiter tokens
    rcases result with stuck | ⟨_, left⟩
    · refine ⟨faults ++ [⟨placeOf delimiter.position stuck.ahead, stuck.fault⟩],
        fun file finish doc? place behind => ?_⟩
      obtain ⟨hfaults, hvalue⟩ := hread name ⟨file, place position⟩ doc? place behind
      generalize hfield : readField name ⟨file, place position⟩ doc? (inFront delimiter tokens
        place behind) = noted at hfaults hvalue
      obtain ⟨noted, value⟩ := noted
      obtain rfl : noted = faults.map (Located.move place) := hfaults
      rcases value with other | found
      · obtain rfl : other = ⟨stuck.fault, inFront delimiter stuck.ahead place behind⟩ :=
          Except.error.inj hvalue
        have hresume := (hrest.suffix hleft).resumeField_eq hdelimiter place behind
        simp only [leftBy] at hresume
        simp only [readEntry, Located.move_mk, hfield, Stuck.located, placeOf_inFront, hresume]
        simp
      · contradiction
    · obtain ⟨endFaults, hend⟩ := (hrest.suffix hleft).endField_eq hdelimiter
      refine ⟨faults ++ endFaults, fun file finish doc? place behind => ?_⟩
      obtain ⟨hfaults, hvalue⟩ := hread name ⟨file, place position⟩ doc? place behind
      generalize hfield : readField name ⟨file, place position⟩ doc? (inFront delimiter tokens
        place behind) = noted at hfaults hvalue
      obtain ⟨noted, value⟩ := noted
      obtain rfl : noted = faults.map (Located.move place) := hfaults
      rcases value with other | ⟨field, ahead⟩
      · contradiction
      · obtain rfl : ahead = inFront delimiter left place behind :=
          congrArg Prod.snd (Except.ok.inj hvalue)
        have hendHere := hend finish place behind
        simp only [leftBy] at hendHere
        simp only [readEntry, Located.move_mk, hfield, hendHere]
        simp
  · refine ⟨[⟨position, .expected .fieldName (some value)⟩],
      fun file finish doc? place behind => ?_⟩
    have hresume := h.resumeField_eq hdelimiter place behind
    rw [inFront_cons, Located.move_mk] at hresume
    rw [readEntry.eq_def]
    split
    · next name heq => exact absurd ⟨name, heq⟩ hname
    · rw [Located.move_mk, hresume]
      exact ⟨rfl, rfl⟩

/-- Doc comments in front of a chunk are split off as if nothing were behind. -/
theorem takeDocs_inFront (tokens : Tokens) (place : Position → Position) (behind : Tokens) :
    takeDocs (inFront delimiter tokens place behind) =
      ((takeDocs tokens).1, inFront delimiter (takeDocs tokens).2 place behind) := by
  fun_induction takeDocs tokens with
  | case1 position line rest lines left hread ih =>
    rw [hread] at ih
    rw [inFront_cons, Located.move_mk, takeDocs, ih]
  | case2 ahead hdoc =>
    have hpeek : ∀ line, peek (inFront delimiter ahead place behind) ≠
        some (.doc line) := fun line =>
      hdelimiter.peek_ne (by simp) (by simp) (fun position rest => hdoc position line rest)
        place behind
    exact takeDocs_append .nil _ (not_exists.mpr hpeek)

/-- What a body is behind a chunk and its delimiter: what is read behind a comma, and nothing behind
a brace. -/
def bodyBehind (file : String) (finish : Position) (typeName : String) (delimiter : Located Token)
    (behind : Tokens) :
    Body :=
  if delimiter.value = .symbol .comma then readBody file finish typeName behind
    else ⟨[], [], .ok behind⟩

/-- Behind an entry that ends at the delimiter, a body goes on as it is behind the delimiter. -/
theorem after_readBody_eq (file : String) (finish : Position) (typeName : String)
    (place : Position → Position) (behind : Tokens) {entry : FieldEntry}
    (hahead : entry.ahead = dropComma (delimiter.move place :: behind)) :
    ((readBody file finish typeName entry.ahead).after entry).faults =
        entry.faults ++ (bodyBehind file finish typeName delimiter behind).faults ∧
      ((readBody file finish typeName entry.ahead).after entry).close =
        (bodyBehind file finish typeName delimiter behind).close := by
  obtain ⟨position, value⟩ := delimiter
  rcases hdelimiter with hcomma | hbrace
  · obtain rfl : value = .symbol .comma := hcomma
    rw [hahead, bodyBehind, if_pos rfl]
    exact ⟨rfl, rfl⟩
  · obtain rfl : value = .symbol .rightBrace := hbrace
    have hclose := readBody_close file finish typeName .nil (place position) behind
    rw [List.nil_append] at hclose
    rw [hahead, bodyBehind, if_neg (by simp)]
    simp only [Located.move_mk, dropComma, hclose]
    exact ⟨rfl, rfl⟩

/-- A body that starts with a chunk has the faults of the chunk in front of those behind its
delimiter, and is closed as it is behind the delimiter. -/
theorem IsChunk.readBody_eq {tokens : Tokens} (h : IsChunk tokens) :
    ∃ faults : List (Located SyntaxFault),
    ∀ file finish typeName place behind,
      let body := readBody file finish typeName (inFront delimiter tokens place behind)
      body.faults = faults.map (Located.move place) ++
          (bodyBehind file finish typeName delimiter behind).faults ∧
        body.close = (bodyBehind file finish typeName delimiter behind).close := by
  have hleft := h.chunkEnd.suffix (takeDocs_suffix tokens)
  cases hrest : (takeDocs tokens).2 with
  | nil =>
    have htake : ∀ place behind, takeDocs (inFront delimiter tokens place behind) =
        ((takeDocs tokens).1, delimiter.move place :: behind) := by
      intro place behind
      rw [takeDocs_inFront hdelimiter, hrest, inFront_nil]
    by_cases hbrace : delimiter.value = .symbol .rightBrace
    · refine ⟨[], fun file finish typeName place behind => ?_⟩
      have hcomma : delimiter.value ≠ .symbol .comma := by simp [hbrace]
      rw [readBody_of_takeDocs file finish typeName (htake place behind), Located.move_value,
        if_pos hbrace, bodyBehind, if_neg hcomma]
      exact ⟨rfl, rfl⟩
    · obtain hcomma : delimiter.value = .symbol .comma := hdelimiter.resolve_right hbrace
      refine ⟨[⟨delimiter.position, .expected .fieldName (some (.symbol .comma))⟩],
        fun file finish typeName place behind => ?_⟩
      have hstart : startsDeclaration (delimiter.move place :: behind) = false := by
        obtain ⟨position, value⟩ := delimiter
        obtain rfl : value = .symbol .comma := hcomma
        rfl
      rw [readBody_of_takeDocs file finish typeName (htake place behind),
        Located.move_value, if_neg hbrace, if_neg (by simp [hstart])]
      obtain ⟨position, value⟩ := delimiter
      obtain rfl : value = .symbol .comma := hcomma
      have hresume : resumeField (⟨place position, .symbol .comma⟩ :: behind) = behind := by
        rw [resumeField, skipField, if_pos (by simp)]
        rfl
      refine after_readBody_eq (.inl rfl) file finish typeName place behind ?_
      simp only [readEntry, Located.move_mk, hresume]
      rfl
  | cons token rest =>
    rw [hrest] at hleft
    obtain ⟨faults, hentry⟩ := hleft.readEntry_eq hdelimiter
    refine ⟨faults, fun file finish typeName place behind => ?_⟩
    have htake := takeDocs_inFront hdelimiter tokens place behind
    rw [hrest, inFront_cons] at htake
    obtain ⟨-, -, hclose⟩ := hleft.plain token List.mem_cons_self
    have hstart := hleft.not_startsDeclaration hdelimiter place behind (List.cons_ne_nil token rest)
    rw [inFront_cons] at hstart
    obtain ⟨hfaults, hahead⟩ := hentry file finish (joinDocs (takeDocs tokens).1) place behind
    rw [readBody_of_takeDocs file finish typeName htake, Located.move_value, if_neg hclose,
      if_neg (by simp [hstart]), ← hfaults]
    exact after_readBody_eq hdelimiter file finish typeName place behind hahead

end Delimiter

/-! ## Declarations made of chunks -/

/-- The word `type`, a name and an opening brace. -/
structure Heading where
  keyword : Position
  name : Located String
  opening : Position

/-- The tokens of a heading. -/
def Heading.tokens (heading : Heading) : Tokens :=
  [⟨heading.keyword, .name "type"⟩, ⟨heading.name.position, .name heading.name.value⟩,
    ⟨heading.opening, .symbol .leftBrace⟩]

/-- What is a heading at other places is a heading of the same name. -/
theorem Heading.exists_of_map_eq {heading : Heading} {place : Position → Position} {tokens : Tokens}
    (h : tokens.map (Located.move place) = heading.tokens) :
    ∃ source : Heading, source.name.value = heading.name.value ∧ source.tokens = tokens := by
  obtain ⟨⟨keyword, _⟩, _, rfl, hkeyword, hrest⟩ := List.map_eq_cons_iff.mp h
  obtain ⟨⟨name, _⟩, _, rfl, hname, hrest⟩ := List.map_eq_cons_iff.mp hrest
  obtain ⟨⟨opening, _⟩, _, rfl, hopening, hrest⟩ := List.map_eq_cons_iff.mp hrest
  obtain rfl := List.map_eq_nil_iff.mp hrest
  refine ⟨⟨keyword, ⟨name, heading.name.value⟩, opening⟩, rfl, ?_⟩
  rw [Heading.tokens, ← (Located.mk.inj hkeyword).2, ← (Located.mk.inj hname).2,
    ← (Located.mk.inj hopening).2]

/-- A declaration whose body is cut at its commas: chunks with the places of the commas behind them,
and a last chunk in front of the closing brace. -/
structure ChunkedDeclaration where
  heading : Heading
  chunks : List (Tokens × Position)
  last : Tokens
  closing : Position

namespace ChunkedDeclaration

/-- The chunks of a declaration with the delimiters behind them. -/
def parts (declaration : ChunkedDeclaration) : List (Tokens × Located Token) :=
  declaration.chunks.map (fun (chunk, comma) => (chunk, ⟨comma, .symbol .comma⟩)) ++
    [(declaration.last, ⟨declaration.closing, .symbol .rightBrace⟩)]

/-- The tokens of a declaration. -/
def tokens (declaration : ChunkedDeclaration) : Tokens :=
  declaration.heading.tokens ++
    declaration.parts.flatMap fun (chunk, delimiter) => chunk ++ [delimiter]

/-- The tokens of a declaration that holds one chunk alone, followed by its delimiter. -/
def alone (declaration : ChunkedDeclaration) (part : Tokens × Located Token) : Tokens :=
  declaration.heading.tokens ++ (part.1 ++ part.2 ::
    if part.2.value = .symbol .comma then [⟨declaration.closing, .symbol .rightBrace⟩] else [])

/-- Whether the name is not that of a built-in type, and the body falls into chunks. -/
structure Chunked (declaration : ChunkedDeclaration) : Prop where
  name_ne : ∀ kind : Primitive, kind.word ≠ declaration.heading.name.value
  chunks : ∀ part ∈ declaration.parts, IsChunk part.1

end ChunkedDeclaration

/-- Behind the heading of a declaration whose body is closed, the faults are those of the body, and
then those of the rest of the file. -/
theorem faults_readContents_heading {file : String} {finish : Position} {heading : Heading}
    {ahead rest : Tokens} (hname : ∀ kind : Primitive, kind.word ≠ heading.name.value)
    (hclose : (readBody file finish heading.name.value ahead).close = .ok rest)
    (namespacePath? : Option String) (started : Bool) :
    (readContents file finish namespacePath? started (heading.tokens ++ ahead)).faults =
      (readBody file finish heading.name.value ahead).faults ++
        (readContents file finish namespacePath? true rest).faults := by
  have hword := (Graph.ofWord?_eq_none_iff heading.name.value).mpr hname
  have hread : readDeclaration file finish (namespacePath?.getD "") (joinDocs []) heading.keyword
      (⟨heading.name.position, .name heading.name.value⟩ :: ⟨heading.opening, .symbol .leftBrace⟩ ::
        ahead) = ⟨(readBody file finish heading.name.value ahead).faults,
          .ok (⟨heading.name.value, namespacePath?.getD "",
            (readBody file finish heading.name.value ahead).fields, none, ⟨file, heading.keyword⟩⟩,
            rest)⟩ := by
    simp [readDeclaration, readSymbol, hword, hclose, joinDocs]
  have htake : takeDocs (heading.tokens ++ ahead) = ([], heading.tokens ++ ahead) := rfl
  rw [readContents_of_readDeclaration htake hread]
  rfl

/-- Chunks stay chunks at other places. -/
theorem isChunk_map_iff (place : Position → Position) (tokens : Tokens) :
    IsChunk (tokens.map (Located.move place)) ↔ IsChunk tokens := by
  have hcount : ∀ (mark : Symbol) (tokens : Tokens),
      countMark mark (tokens.map (Located.move place)) = countMark mark tokens := by
    intro mark tokens
    rw [countMark, List.countP_map]
    rfl
  constructor
  · intro h
    refine ⟨fun token htoken => h.plain (token.move place) (List.mem_map_of_mem htoken), ?_,
      fun front hfront => ?_⟩
    · rw [← hcount, h.balanced, hcount]
    · have hnested := h.nested _ (hfront.map (Located.move place))
      rwa [hcount, hcount] at hnested
  · intro h
    refine ⟨fun token htoken => ?_, by rw [hcount, h.balanced, hcount], fun front hfront => ?_⟩
    · obtain ⟨source, hsource, rfl⟩ := List.mem_map.mp htoken
      exact h.plain source hsource
    · obtain ⟨behind, hbehind⟩ := hfront
      obtain ⟨source, rest, rfl, rfl, -⟩ := List.map_eq_append_iff.mp hbehind.symm
      rw [hcount, hcount]
      exact h.nested source (List.prefix_append source rest)

namespace ChunkedDeclaration

variable {declaration : ChunkedDeclaration} {part : Tokens × Located Token}

/-- Parts end at delimiters. -/
theorem delimits_of_mem_parts (h : part ∈ declaration.parts) : Delimits part.2 := by
  rcases List.mem_append.mp h with h | h
  · obtain ⟨chunk, -, rfl⟩ := List.mem_map.mp h
    exact .inl rfl
  · rw [List.mem_singleton.mp h]
    exact .inr rfl

/-- Behind the delimiter of a part that is alone in a body, nothing is at fault, and the body is
closed. -/
theorem bodyBehind_alone {delimiter : Located Token} {behind : Tokens} {place : Position → Position}
    {closing : Position}
    (h : behind.map (Located.move place) = if delimiter.value =
      .symbol .comma then [⟨closing, .symbol .rightBrace⟩] else [])
    (file : String) (finish : Position) (typeName : String) :
    (bodyBehind file finish typeName delimiter behind).faults = [] ∧
      (bodyBehind file finish typeName delimiter behind).close = .ok [] := by
  rw [bodyBehind]
  by_cases hcomma : delimiter.value = .symbol .comma
  · rw [if_pos hcomma] at h ⊢
    obtain ⟨⟨position, _⟩, _, rfl, hbrace, hrest⟩ := List.map_eq_cons_iff.mp h
    obtain rfl := List.map_eq_nil_iff.mp hrest
    obtain ⟨-, rfl⟩ := Located.mk.inj hbrace
    have hclose := readBody_close file finish typeName .nil position []
    rw [List.nil_append] at hclose
    rw [hclose]
    exact ⟨rfl, rfl⟩
  · rw [if_neg hcomma] at h ⊢
    rw [List.map_eq_nil_iff.mp h]
    exact ⟨rfl, rfl⟩

/-- A part of a body has the faults of the declaration that holds it alone, each at its own place,
in front of those behind its delimiter. -/
theorem Chunked.faults_readBody_part (h : declaration.Chunked) (hpart : part ∈ declaration.parts)
    {alone : Tokens} {place : Position → Position}
    (halone : alone.map (Located.move place) = declaration.alone part) (file : String)
    (finish aloneFinish : Position) (typeName : String) (behind : Tokens) :
    let body := readBody file finish typeName (part.1 ++ part.2 :: behind)
    body.faults = (readContents file aloneFinish none false alone).faults.map
      (Located.move place) ++
        (bodyBehind file finish typeName part.2 behind).faults ∧
      body.close = (bodyBehind file finish typeName part.2 behind).close := by
  obtain ⟨chunk, delimiter⟩ := part
  have hchunk := h.chunks _ hpart
  have hdelimiter := delimits_of_mem_parts hpart
  obtain ⟨headingTokens, ahead, rfl, hheading, hahead⟩ := List.map_eq_append_iff.mp halone
  obtain ⟨aloneChunk, delimited, rfl, rfl, hdelimited⟩ := List.map_eq_append_iff.mp hahead
  obtain ⟨aloneDelimiter, closing, rfl, rfl, hclosing⟩ := List.map_eq_cons_iff.mp hdelimited
  obtain ⟨heading, hsame, rfl⟩ := Heading.exists_of_map_eq hheading
  have haloneDelimiter : Delimits aloneDelimiter := hdelimiter
  obtain ⟨faults, hbody⟩ :=
    ((isChunk_map_iff place aloneChunk).mp hchunk).readBody_eq haloneDelimiter
  rw [Located.move_value] at hclosing
  have hnothing := bodyBehind_alone hclosing file aloneFinish heading.name.value
  have hmoved : ∀ tokens : Tokens, tokens.map (Located.move id) = tokens :=
    fun tokens => List.map_id tokens
  obtain ⟨haloneFaults, haloneClose⟩ := hbody file aloneFinish heading.name.value id closing
  rw [inFront, hmoved, Located.move_id] at haloneFaults haloneClose
  have hcontents :=
    faults_readContents_heading (hsame ▸ h.name_ne) (haloneClose.trans hnothing.2) none false
  have hend : (readContents file aloneFinish none true []).faults = [] := by
    rw [readContents_docs file aloneFinish none true .nil]
  have hmapped : faults.map (Located.move id) = faults := List.map_id faults
  rw [haloneFaults, hnothing.1, hend, List.append_nil, List.append_nil, hmapped] at hcontents
  rw [hcontents]
  exact hbody file finish typeName place behind

/-- A body has the faults of its parts, one after the other, and is closed behind the last one. -/
theorem faults_readBody_parts (declaration : ChunkedDeclaration) {file typeName : String}
    {finish : Position} {faultsOf : Tokens × Located Token → List (Located SyntaxFault)}
    (hparts : ∀ part ∈ declaration.parts,
      ∀ behind, (readBody file finish typeName (part.1 ++ part.2 :: behind)).faults =
        faultsOf part ++ (bodyBehind file finish typeName part.2 behind).faults ∧
        (readBody file finish typeName (part.1 ++ part.2 :: behind)).close =
          (bodyBehind file finish typeName part.2 behind).close)
    (rest : Tokens) :
    (readBody file finish typeName
        ((declaration.parts.flatMap fun part => part.1 ++ [part.2]) ++ rest)).faults =
        declaration.parts.flatMap faultsOf ∧
      (readBody file finish typeName
        ((declaration.parts.flatMap fun part => part.1 ++ [part.2]) ++ rest)).close = .ok rest := by
  unfold parts at hparts ⊢
  generalize declaration.chunks = chunks at hparts ⊢
  induction chunks with
  | nil =>
    obtain ⟨hfaults, hclose⟩ := hparts _ (List.mem_append_right _ List.mem_cons_self) rest
    rw [bodyBehind, if_neg (by simp)] at hfaults hclose
    simp only [List.map_nil, List.nil_append, List.flatMap_cons, List.flatMap_nil, List.append_nil,
      List.append_assoc, List.cons_append]
    exact ⟨hfaults.trans (List.append_nil _), hclose⟩
  | cons chunk chunks ih =>
    obtain ⟨hrestFaults, hrestClose⟩ :=
      ih fun part hpart => hparts part (List.mem_cons_of_mem _ hpart)
    rw [List.map_cons, List.cons_append] at hparts ⊢
    rw [List.flatMap_cons, List.flatMap_cons, List.append_assoc, List.append_assoc]
    obtain ⟨hfaults, hclose⟩ := hparts _ List.mem_cons_self _
    rw [bodyBehind, if_pos rfl] at hfaults hclose
    exact ⟨hfaults.trans (congrArg _ hrestFaults), hclose.trans hrestClose⟩

/-- A file made of chunked declarations has the faults of its parts, one after the other. -/
theorem faults_readContents_declarations {file : String} {finish : Position}
    {declarations : List ChunkedDeclaration}
    (hname : ∀ declaration ∈ declarations,
      ∀ kind : Primitive, kind.word ≠ declaration.heading.name.value)
    {faultsOf : ChunkedDeclaration → Tokens × Located Token → List (Located SyntaxFault)}
    (hparts : ∀ declaration ∈ declarations, ∀ part ∈ declaration.parts, ∀ behind,
      let body := readBody file finish declaration.heading.name.value (part.1 ++ part.2 :: behind)
      let rest := bodyBehind file finish declaration.heading.name.value part.2 behind
      body.faults = faultsOf declaration part ++ rest.faults ∧ body.close = rest.close)
    (namespacePath? : Option String) (started : Bool) :
    (readContents file finish namespacePath? started
      (declarations.flatMap ChunkedDeclaration.tokens)).faults =
      declarations.flatMap fun declaration => declaration.parts.flatMap (faultsOf declaration) := by
  induction declarations generalizing started with
  | nil =>
    rw [List.flatMap_nil, readContents_docs file finish namespacePath? started .nil]
    rfl
  | cons declaration declarations ih =>
    obtain ⟨hfaults, hclose⟩ := declaration.faults_readBody_parts
      (hparts declaration List.mem_cons_self) (declarations.flatMap ChunkedDeclaration.tokens)
    have hrest := ih (fun other hother => hname other (List.mem_cons_of_mem _ hother))
      (fun other hother => hparts other (List.mem_cons_of_mem _ hother)) true
    rw [List.flatMap_cons, List.flatMap_cons, ChunkedDeclaration.tokens, List.append_assoc,
      faults_readContents_heading (hname declaration List.mem_cons_self) hclose, hfaults, hrest]

end ChunkedDeclaration

/-! ## Reports -/

/-- An error at another place in its file. -/
def SyntaxError.move (place : Position → Position) (error : SyntaxError) : SyntaxError :=
  ⟨⟨error.span.file, place error.span.position⟩, error.fault⟩

/-- Whether a text without lexical faults holds tokens, when its places are moved. -/
structure Holds (text : String) (place : Position → Position) (tokens : Tokens) : Prop where
  clean : (lex text.toList).faults = []
  tokens_eq : (lex text.toList).tokens.map (Located.move place) = tokens

/-- For a file made of chunked declarations the errors reported are those of its chunks, one after
the other: each chunk has the errors of a text that holds it alone, at their own places. -/
theorem reported_of_chunks (path source : String) (declarations : List ChunkedDeclaration)
    (hsource : Holds source id (declarations.flatMap ChunkedDeclaration.tokens))
    (hchunked : ∀ declaration ∈ declarations, declaration.Chunked)
    (text : ChunkedDeclaration → Tokens × Located Token → String)
    (place : ChunkedDeclaration → Tokens × Located Token → Position → Position)
    (halone : ∀ declaration ∈ declarations, ∀ part ∈ declaration.parts,
      Holds (text declaration part) (place declaration part) (declaration.alone part)) :
    reported (parse path source) =
      declarations.flatMap fun declaration => declaration.parts.flatMap fun part =>
        (reported (parse path (text declaration part))).map
          (SyntaxError.move (place declaration part)) := by
  have htokens : (lex source.toList).tokens = declarations.flatMap ChunkedDeclaration.tokens :=
    (List.map_id _).symm.trans hsource.tokens_eq
  have hfaults := ChunkedDeclaration.faults_readContents_declarations
    (fun declaration hdeclaration => (hchunked declaration hdeclaration).name_ne)
    (fun declaration hdeclaration part hpart behind =>
      (hchunked declaration hdeclaration).faults_readBody_part hpart
      (halone declaration hdeclaration part hpart).tokens_eq path (lex source.toList).finish
      (lex (text declaration part).toList).finish declaration.heading.name.value behind) none false
  rw [reported_parse path source hsource.clean, htokens, hfaults, List.map_flatMap]
  refine List.flatMap_congr fun declaration hdeclaration => ?_
  rw [List.map_flatMap]
  refine List.flatMap_congr fun part hpart => ?_
  rw [reported_parse path _ (halone declaration hdeclaration part hpart).clean,
    List.map_map, List.map_map]
  rfl

/-- A declaration whose two fields are both broken, the second one between square brackets. -/
def brokenFields : ChunkedDeclaration where
  heading := ⟨⟨1, 1⟩, ⟨⟨1, 6⟩, "A"⟩, ⟨1, 8⟩⟩
  chunks := [([⟨⟨1, 10⟩, .name "x"⟩, ⟨⟨1, 12⟩, .name "int"⟩], ⟨1, 15⟩)]
  last := [⟨⟨1, 17⟩, .name "y"⟩, ⟨⟨1, 18⟩, .symbol .colon⟩, ⟨⟨1, 20⟩, .symbol .leftBracket⟩,
    ⟨⟨1, 21⟩, .symbol .rightBracket⟩]
  closing := ⟨1, 23⟩

/-- What is reported for two malformed fields is what is reported for each of them at its own place.
-/
theorem reported_of_brokenFields :
    reported (parse "a.ath" "type A { x int, y: [] }") =
      reported (parse "a.ath" "type A { x int,       }") ++
        reported (parse "a.ath" "type A {        y: [] }") := by
  have hall := reported_of_chunks "a.ath" "type A { x int, y: [] }" [brokenFields]
    ⟨by decide +kernel, by decide +kernel⟩ ?_
    (fun _ part => if part.2.value = .symbol .comma then "type A { x int,       }"
      else "type A {        y: [] }")
    (fun _ _ => id) ?_
  · have hstays : ∀ errors : List SyntaxError, errors.map (SyntaxError.move id) = errors :=
      List.map_id
    simpa [brokenFields, ChunkedDeclaration.parts, hstays] using hall
  · intro declaration hdeclaration
    rw [List.mem_singleton.mp hdeclaration]
    exact ⟨fun kind => by cases kind <;> decide, by decide⟩
  · intro declaration hdeclaration part hpart
    rw [List.mem_singleton.mp hdeclaration] at hpart ⊢
    simp only [brokenFields, ChunkedDeclaration.parts, List.map_cons, List.map_nil,
      List.cons_append, List.nil_append, List.mem_cons, List.not_mem_nil, or_false] at hpart
    rcases hpart with rfl | rfl
    · exact ⟨by decide +kernel, by decide +kernel⟩
    · exact ⟨by decide +kernel, by decide +kernel⟩

end SchemaBindings.Schema
