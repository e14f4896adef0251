import Splice.Proofs.Yaml.Items

/-! # Lexing a text in brackets

A text in brackets on one line is lexed piece by piece. What the reader of nodes will be given is fixed
by the tokens that wait and the pieces that are left, with one correction: a text that waits and has its
colon next is a key.
-/

namespace Splice.Yaml

/-- Whether pieces may stand one after the other at a depth of brackets, where a key may stand or not. -/
inductive Follows : Nat → Bool → List Item → Prop where
  | nil {allowed : Bool} : Follows 0 allowed []
  | opens {depth : Nat} {allowed mapping : Bool} {rest : List Item} (h : Follows (depth + 1) true rest) :
    Follows depth allowed (.opens mapping :: rest)
  | closes {depth : Nat} {allowed mapping : Bool} {rest : List Item} (h : Follows depth false rest) :
    Follows (depth + 1) allowed (.closes mapping :: rest)
  | comma {depth : Nat} {allowed : Bool} {rest : List Item} (h : Follows (depth + 1) true rest) :
    Follows (depth + 1) allowed (.comma :: rest)
  | key {depth : Nat} {s : String} {rest : List Item} (basic : Text.IsBasic s)
    (short : (Json.quote s).length ≤ 1024) (h : Follows (depth + 1) false rest) :
    Follows (depth + 1) true (.key s :: .colon :: rest)
  | word {depth : Nat} {allowed : Bool} {w : String} {next : Item} {rest : List Item} (word : IsWord w)
    (ends : next.endsPlain = true) (h : Follows (depth + 1) false (next :: rest)) :
    Follows (depth + 1) allowed (.word w :: next :: rest)
  | quoted {depth : Nat} {allowed : Bool} {s : String} {rest : List Item} (basic : Text.IsBasic s)
    (h : Follows (depth + 1) false rest) : Follows (depth + 1) allowed (.quoted s :: rest)

/-- The characters of pieces. -/
def textOf (items : List Item) : List Char := items.flatMap Item.chars

/-- The tokens of pieces at the end of a text. -/
def tokensOf (items : List Item) : List Token := items.flatMap Item.tokens ++ [.streamEnd]

namespace Lexer

/-- A state outside of all blocks in which no token must be a key. -/
structure Steady (s : Lexer) : Prop where
  running : s.isDone = false
  indent : s.indent = -1
  outer : s.outer = []
  candidates : ∀ k ∈ s.candidates, k.2.required = false

variable {s : Lexer}

theorem dropStale_eq (h : ∀ k ∈ s.candidates, k.2.required = false) : s.dropStale =
    .ok { s with candidates := s.candidates.filter fun k => !s.isStale k.2 } := by
  apply if_neg
  intro stale
  obtain ⟨k, mem, asked⟩ := List.any_eq_true.mp stale
  simp [h k mem] at asked

theorem dropCandidate_eq (h : ∀ k ∈ s.candidates, k.2.required = false) : s.dropCandidate =
    .ok { s with candidates := s.candidates.filter fun k => k.1 != s.depth } := by
  apply if_neg
  intro here
  obtain ⟨k, mem, asked⟩ := List.any_eq_true.mp here
  simp [h k mem] at asked

/-- The candidate that the next token is where a key may stand. -/
def candidate (s : Lexer) : KeyCandidate :=
  ⟨s.taken + s.tokens.length, false, s.cursor.index, s.cursor.line, s.cursor.column⟩

/-- The candidates once the next token is noted. -/
def noted (s : Lexer) : List (Nat × KeyCandidate) :=
  if s.keyAllowed then (s.depth, s.candidate) :: s.candidates.filter fun k => k.1 != s.depth
  else s.candidates

namespace Steady

theorem noteCandidate_eq (h : s.Steady) : s.noteCandidate = .ok { s with candidates := s.noted } := by
  unfold Lexer.noteCandidate noted
  split
  · have column : s.indent ≠ s.cursor.column := by
      rw [h.indent]
      omega
    simp [dropCandidate_eq h.candidates, candidate, column]
  · rfl

theorem noted_optional (h : s.Steady) : ∀ k ∈ s.noted, k.2.required = false := by
  intro k mem
  unfold noted at mem
  split at mem
  · cases mem with
    | head => rfl
    | tail _ mem => exact h.candidates k (List.mem_of_mem_filter mem)
  · exact h.candidates k mem

theorem unwind_eq (h : s.Steady) (column : Int) : s.unwind column = s := by
  have outer := h.outer
  simp only [Lexer.unwind, outer, closedBlocks, emit, List.append_nil]
  rw [← outer]
  exact ite_self s

end Steady

/-- The state at the next piece, once spaces are skipped and old candidates are dropped. -/
def settled (s : Lexer) (spaces : Nat) (rest : List Char) : Lexer :=
  let next := { s with cursor := s.cursor.past spaces rest }
  { next with candidates := s.candidates.filter fun k => !next.isStale k.2 }

theorem Steady.settled (h : s.Steady) (spaces : Nat) (rest : List Char) :
    (s.settled spaces rest).Steady :=
  { h with candidates := fun k mem => h.candidates k (List.mem_of_mem_filter mem) }

/-- What a piece may start with. -/
def StartsPiece (cs : List Char) : Prop := ∀ ch, cs.head? = some ch → IsAscii ch ∧ ch ≠ ' ' ∧ ch ≠ '#'

theorem skipMark_eq {cs : List Char} (ascii : AreAscii cs) (here : s.cursor.rest = cs) :
    s.skipMark = s := by
  apply if_neg
  rintro ⟨-, mark⟩
  rw [Cursor.peek, here] at mark
  have mem : byteOrderMark ∈ cs := List.mem_of_head? mark
  exact absurd (ascii _ mem) (by decide)

/-- Spaces are skipped, and nothing else is. -/
theorem skipToToken_eq {spaces : Nat} {cs : List Char} (starts : StartsPiece cs)
    (here : s.cursor.rest = List.replicate spaces ' ' ++ cs) (fuel : Nat) :
    s.skipToToken (fuel + 1) = { s with cursor := s.cursor.past spaces cs } := by
  have skipped : s.cursor.skipWhile (· == ' ') = s.cursor.past spaces cs := by
    have run : s.cursor.rest.takeWhile (· == ' ') = List.replicate spaces ' ' := by
      rw [here, List.takeWhile_append_of_pos (by simp)]
      cases cs with
      | nil => simp
      | cons ch cs =>
          have other : (ch == ' ') = false := beq_eq_false_iff_ne.mpr (starts ch rfl).2.1
          simp [other]
    rw [Cursor.skipWhile, run, Cursor.skip_ascii here (areAscii_replicate (by decide)),
      List.length_replicate]
  have comment : (s.cursor.past spaces cs).skipComment = s.cursor.past spaces cs := by
    apply if_neg
    intro mark
    exact (starts _ mark).2.2 rfl
  have line : (s.cursor.past spaces cs).lineBreak? = none := by
    cases cs with
    | nil => rfl
    | cons ch cs => exact Cursor.lineBreak?_ascii (s.cursor.past_rest spaces) (starts ch rfl).1
  rw [Lexer.skipToToken, skipped, comment]
  simp only [line]

/-- A step reads the piece after the spaces, or finds the end of the text. -/
theorem step_eq (h : s.Steady) {spaces : Nat} {cs : List Char} (ascii : AreAscii cs)
    (starts : StartsPiece cs)
    (here : s.cursor.rest = List.replicate spaces ' ' ++ cs) : s.step =
      match cs.head? with
      | none => (s.settled spaces cs).finish
      | some ch => (s.settled spaces cs).dispatch ch := by
  have all : AreAscii (List.replicate spaces ' ' ++ cs) :=
    areAscii_append.mpr ⟨areAscii_replicate (by decide), ascii⟩
  have dropped : { s with cursor := s.cursor.past spaces cs }.dropStale = .ok (s.settled spaces cs) :=
    dropStale_eq h.candidates
  rw [Lexer.step, skipMark_eq all here, skipToToken_eq starts here]
  simp only [dropped, Outcome.ok_bind, (h.settled spaces cs).unwind_eq]
  rfl

/-! ## Single pieces -/

/-- A piece is no mark of a document unless it starts with three of its characters. -/
theorem atMarker_eq_false {c : Cursor} {ch mark : Char} {rest : List Char} (here : c.rest = ch :: rest)
    (other : ch ≠ mark ∨ rest.head? ≠ some mark) : c.atMarker mark = false := by
  unfold Cursor.atMarker
  split
  · rename_i a b d more found
    rw [here] at found
    cases found
    cases other with
    | inl other => simp [other]
    | inr other =>
        have second : b ≠ mark := by simpa using other
        simp [second]
  · rfl

variable {rest : List Char}

/-- The state after a token whose characters are stepped over. -/
def after (s : Lexer) (t : Token) (count : Nat) (rest : List Char) : Lexer :=
  { s with tokens := s.tokens ++ [t], cursor := s.cursor.past count rest }

theorem take_eq {ch : Char} (here : s.cursor.rest = ch :: rest) (ascii : IsAscii ch) (t : Token) :
    s.take t 1 = s.after t 1 rest := by
  rw [take, after, Cursor.skip, Cursor.advance_ascii here ascii]
  rfl

/-- A character that is none of the marks of a document. -/
def Inner (s : Lexer) (ch : Char) : Prop :=
  ch ≠ '%' ∧ s.cursor.atMarker '-' = false ∧ s.cursor.atMarker '.' = false

theorem inner {ch : Char} (here : s.cursor.rest = ch :: rest) (directive : ch ≠ '%') (dash : ch ≠ '-')
    (point : ch ≠ '.') : s.Inner ch :=
  ⟨directive, atMarker_eq_false here (.inl dash), atMarker_eq_false here (.inl point)⟩

theorem dispatch_opens (h : s.Steady) {mapping : Bool}
    (here : s.cursor.rest = (Item.opens mapping).chars ++ rest) :
    s.dispatch (if mapping then '\x7b' else '[') = .ok { s.after
        (if mapping then .flowMappingStart else .flowSequenceStart) 1 rest with
      candidates := s.noted, depth := s.depth + 1, keyAllowed := true } := by
  have opened (t : Token) : s.openFlow t = .ok { s.after t 1 rest with
      candidates := s.noted, depth := s.depth + 1, keyAllowed := true } := by
    rw [openFlow, h.noteCandidate_eq, Outcome.ok_bind,
      take_eq (s := { s with candidates := s.noted }) here (by cases mapping <;> decide)]
    rfl
  obtain ⟨directive, dashes, points⟩ := inner here (by cases mapping <;> decide)
    (by cases mapping <;> decide) (by cases mapping <;> decide)
  rw [← opened]
  cases mapping <;> simp [dispatch, dashes, points]

theorem dispatch_closes (h : s.Steady) {depth : Nat} (inside : s.depth = depth + 1) {mapping : Bool}
    (here : s.cursor.rest = (Item.closes mapping).chars ++ rest) :
    s.dispatch (if mapping then '\x7d' else ']') = .ok { s.after
        (if mapping then .flowMappingEnd else .flowSequenceEnd) 1 rest with
      candidates := s.candidates.filter fun k => k.1 != s.depth, depth, keyAllowed := false } := by
  have closed (t : Token) : s.closeFlow t = .ok { s.after t 1 rest with
      candidates := s.candidates.filter fun k => k.1 != s.depth, depth, keyAllowed := false } := by
    have nested : ¬ s.depth = 0 := by omega
    have left : depth = s.depth - 1 := by omega
    have taken :=
      take_eq (s := { s with candidates := s.candidates.filter fun k => k.1 != s.depth }) here
      (by cases mapping <;> decide) t
    rw [closeFlow, if_neg nested, left]
    simp only [dropCandidate_eq h.candidates, Outcome.ok_bind, taken]
    rfl
  obtain ⟨directive, dashes, points⟩ := inner here (by cases mapping <;> decide)
    (by cases mapping <;> decide) (by cases mapping <;> decide)
  rw [← closed]
  cases mapping <;> simp [dispatch, dashes, points]

theorem dispatch_comma (h : s.Steady) (here : s.cursor.rest = ',' :: rest) : s.dispatch ',' =
    .ok { s.after .flowEntry 1 rest with
      candidates := s.candidates.filter fun k => k.1 != s.depth, keyAllowed := true } := by
  have dropped : { s with keyAllowed := true }.dropCandidate = _ := dropCandidate_eq h.candidates
  obtain ⟨directive, dashes, points⟩ := inner here (by decide) (by decide) (by decide)
  have marked : s.dispatch ',' = s.flowEntry := by simp [dispatch, dashes, points]
  rw [marked, flowEntry, dropped, Outcome.ok_bind, take_eq (s := { s with
    candidates := s.candidates.filter fun k => k.1 != s.depth, keyAllowed := true }) here (by decide)]
  rfl

theorem dispatch_quoted (h : s.Steady) {x : String} (basic : Text.IsBasic x)
    (here : s.cursor.rest = (Json.quote x).toList ++ rest) : s.dispatch '"' =
    .ok { s.after (.scalar false x) (Json.quote x).length rest with
      candidates := s.noted, keyAllowed := false } := by
  have first : s.cursor.rest = '"' :: _ := here.trans (by rw [Json.quote, String.toList_ofList]; rfl)
  obtain ⟨directive, dashes, points⟩ := inner first (by decide) (by decide) (by decide)
  have marked : s.dispatch '"' = s.quotedText true := by simp [dispatch, dashes, points]
  rw [marked, quotedText, h.noteCandidate_eq, Outcome.ok_bind, quotedScalar_quote basic here,
    Outcome.ok_bind]
  dsimp only
  rw [String.ofList_toList]
  rfl

/-- The state in which the last token that waits is a key. -/
def keyed (s : Lexer) (front : List Token) (t : Token) : Lexer :=
  { s with
    tokens := front ++ [.key, t], candidates := s.candidates.filter fun k => k.1 != s.depth }

/-- The colon after a key puts the token of the key in front of it. -/
theorem dispatch_colon {depth : Nat} (inside : s.depth = depth + 1) {front : List Token} {t : Token}
    {k : KeyCandidate} (waiting : s.tokens = front ++ [t]) (known : s.candidates.lookup s.depth = some k)
    (place : k.token = s.taken + front.length) (here : s.cursor.rest = ':' :: rest) :
    s.dispatch ':' = .ok { (s.keyed front t).after .value 1 rest with keyAllowed := false } := by
  have flow : s.inFlow = true := by simp [inFlow, inside]
  obtain ⟨directive, dashes, points⟩ := inner here (by decide) (by decide) (by decide)
  have marked : s.dispatch ':' = s.value := by simp [dispatch, dashes, points, flow]
  have inserted :
    ({ s with candidates := s.candidates.filter fun k => k.1 != s.depth }.insertAt k.token .key) =
      s.keyed front t := by
    simp [insertAt, keyed, waiting, place]
  have still : (s.keyed front t).inFlow = true := flow
  rw [marked, value, known]
  simp only [inserted, still, Bool.not_true, Bool.false_and, Bool.false_eq_true, if_false]
  rw [take_eq (s := s.keyed front t) here (by decide)]
  rfl

theorem startsPlain_word {ch : Char} (h : ch.isAlphanum = true) (next : Option Char) :
    startsPlain true ch next = true := by
  have gap : isGap (some ch) = false := by
    rw [(isAscii_of_isNumeral (isNumeral_of_isAlphanum h)).isGap_eq]
    exact beq_eq_false_iff_ne.mpr (ne_of_isAlphanum h (by decide))
  have marks : "-?:,[]\x7b\x7d#&*!|>'\"%@\x60".toList.contains ch = false := by
    rw [List.contains_eq_mem, decide_eq_false_iff_not]
    intro mem
    have apart : ∀ c ∈ "-?:,[]\x7b\x7d#&*!|>'\"%@\x60".toList, c.isAlphanum = false :=
      List.all_iff_forall_prop.mp (by decide)
    rw [apart ch mem] at h
    cases h
  simp only [startsPlain, gap, marks, Bool.not_false, Bool.and_self, Bool.true_or]

/-- A word starts a plain scalar, and a minus in front of it is no mark. -/
theorem dispatch_plain {depth : Nat} (inside : s.depth = depth + 1) {w : String} (word : IsWord w)
    (here : s.cursor.rest = w.toList ++ rest) :
    ∃ ch, w.toList.head? = some ch ∧ s.dispatch ch = s.plainText := by
  have flow : s.inFlow = true := by simp [inFlow, inside]
  obtain ⟨ch, cs, split, starts⟩ := word.start
  have first : s.cursor.rest = ch :: (cs ++ rest) := by rw [here, split]; rfl
  refine ⟨ch, by rw [split]; rfl, ?_⟩
  cases starts with
  | inl letter =>
      have other (mark : Char) (h : mark.isAlphanum = false) : ch ≠ mark := ne_of_isAlphanum letter h
      obtain ⟨directive, dashes, points⟩ :=
        inner first (other _ (by decide)) (other _ (by decide)) (other _ (by decide))
      simp only [dispatch, directive, dashes, points, flow, startsPlain_word letter,
        other '[' (by decide),
        other ']' (by decide), other '\x7b' (by decide), other '\x7d' (by decide), other ',' (by decide),
        other '-' (by decide), other '?' (by decide), other ':' (by decide), other '*' (by decide),
        other '&' (by decide), other '!' (by decide), other '|' (by decide), other '>' (by decide),
        other '\'' (by decide), other '"' (by decide), false_and, and_false, Bool.false_eq_true,
        if_false, if_true]
  | inr minus =>
      obtain ⟨rfl, d, ds, rfl, letter⟩ := minus
      have next : s.cursor.peekAt 1 = some d := by rw [Cursor.peekAt, first]; rfl
      have dashes : s.cursor.atMarker '-' = false := by
        apply atMarker_eq_false first
        right
        intro same
        exact ne_of_isAlphanum letter (by decide) (Option.some.inj same)
      have points : s.cursor.atMarker '.' = false := atMarker_eq_false first (.inl (by decide))
      have gap : isGap (some d) = false := by
        rw [(isAscii_of_isNumeral (isNumeral_of_isAlphanum letter)).isGap_eq]
        exact beq_eq_false_iff_ne.mpr (ne_of_isAlphanum letter (by decide))
      simp [dispatch, dashes, points, next, gap, startsPlain]

theorem dispatch_word (h : s.Steady) {depth : Nat} (inside : s.depth = depth + 1) {w : String}
    (word : IsWord w)
    {mark : Char} (ascii : IsAscii mark) (space : mark ≠ ' ')
    (stop : stopsPlain true mark rest.head? = true)
    (here : s.cursor.rest = w.toList ++ mark :: rest) : ∃ ch, w.toList.head? = some ch ∧ s.dispatch ch =
    .ok { s.after (.scalar true w) w.length (mark :: rest) with
      candidates := s.noted, keyAllowed := false } := by
  obtain ⟨ch, first, starts⟩ := dispatch_plain inside word here
  refine ⟨ch, first, ?_⟩
  have flow : s.inFlow = true := by simp [inFlow, inside]
  have still : { s with candidates := s.noted }.inFlow = true := flow
  rw [starts, plainText, h.noteCandidate_eq, Outcome.ok_bind]
  simp only [still]
  rw [plainScalar_word word ascii space stop here]
  dsimp only
  rw [String.ofList_toList]
  rfl

end Lexer
end Splice.Yaml
