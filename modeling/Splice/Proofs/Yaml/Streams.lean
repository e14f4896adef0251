import Splice.Proofs.Yaml.Lexing

/-! # The tokens of a text in brackets

The tokens that the reader of nodes is given, one after the other, are those of the pieces. A token that
may turn out to be a key is not given before that is settled, so a token once given stays as it is.
-/

namespace Splice.Yaml

section

variable {depth : Nat} {allowed : Bool} {items : List Item}

theorem areAscii_quote (s : String) : AreAscii (Json.quote s).toList := by
  rw [Json.quote, String.toList_ofList]
  intro ch mem
  cases mem with
  | head => decide
  | tail _ mem =>
      cases List.mem_append.mp mem with
      | inl mem =>
          obtain ⟨code, -, mem⟩ := List.mem_flatMap.mp mem
          exact areAscii_escapeCode code ch mem
      | inr mem =>
          rw [List.mem_singleton.mp mem]
          decide

theorem textOf_cons (i : Item) (items : List Item) : textOf (i :: items) = i.chars ++ textOf items :=
  List.flatMap_cons

theorem tokensOf_cons (i : Item) (items : List Item) :
    tokensOf (i :: items) = i.tokens ++ tokensOf items := by
  rw [tokensOf, List.flatMap_cons, List.append_assoc, tokensOf]

theorem Follows.ascii (h : Follows depth allowed items) : AreAscii (textOf items) := by
  induction h with
  | nil => exact List.forall_mem_nil _
  | @opens _ _ mapping _ _ ih =>
      rw [textOf_cons]
      exact areAscii_append.mpr ⟨by cases mapping <;> decide, ih⟩
  | @closes _ _ mapping _ _ ih =>
      rw [textOf_cons]
      exact areAscii_append.mpr ⟨by cases mapping <;> decide, ih⟩
  | comma _ ih =>
      rw [textOf_cons]
      exact areAscii_append.mpr ⟨by decide, ih⟩
  | key _ _ _ ih =>
      rw [textOf_cons, textOf_cons]
      exact areAscii_append.mpr ⟨areAscii_quote _, areAscii_append.mpr ⟨by decide, ih⟩⟩
  | word word _ _ ih =>
      rw [textOf_cons]
      exact areAscii_append.mpr ⟨areAscii_of_numeral word.numeral, ih⟩
  | quoted _ _ ih =>
      rw [textOf_cons]
      exact areAscii_append.mpr ⟨areAscii_quote _, ih⟩

theorem startsPiece_cons {ch : Char} (h : IsAscii ch ∧ ch ≠ ' ' ∧ ch ≠ '#') (cs : List Char) :
    Lexer.StartsPiece (ch :: cs) := by
  intro c first
  cases first
  exact h

theorem startsPiece_quote (s : String) (cs : List Char) :
    Lexer.StartsPiece ((Json.quote s).toList ++ cs) := by
  rw [Json.quote, String.toList_ofList]
  exact startsPiece_cons (by decide) _

theorem Follows.starts (h : Follows depth allowed items) : Lexer.StartsPiece (textOf items) := by
  cases h with
  | nil =>
      intro ch first
      cases first
  | @opens _ _ mapping => cases mapping <;> exact startsPiece_cons (by decide) _
  | @closes _ _ mapping => cases mapping <;> exact startsPiece_cons (by decide) _
  | comma => exact startsPiece_cons (by decide) _
  | key => exact startsPiece_quote _ _
  | word word =>
      obtain ⟨ch, cs, split, _⟩ := word.start
      have letter : isNumeral ch = true := word.numeral ch (split ▸ List.mem_cons_self)
      rw [textOf_cons, Item.chars, split]
      exact startsPiece_cons ⟨isAscii_of_isNumeral letter, ne_of_isNumeral letter (by decide),
        ne_of_isNumeral letter (by decide)⟩ _
  | quoted => exact startsPiece_quote _ _

theorem head_quote (s : String) (cs : List Char) : ((Json.quote s).toList ++ cs).head? = some '"' := by
  rw [Json.quote, String.toList_ofList]
  rfl

theorem length_le_textOf (h : Follows depth allowed items) : items.length ≤ (textOf items).length := by
  have cons {i : Item} {rest : List Item} (filled : i.chars ≠ [])
    (ih : rest.length ≤ (textOf rest).length) :
      (i :: rest).length ≤ (textOf (i :: rest)).length := by
    have first := List.length_pos_of_ne_nil filled
    rw [textOf_cons, List.length_append, List.length_cons]
    omega
  have quoted (s : String) : (Json.quote s).toList ≠ [] := by
    rw [Json.quote, String.toList_ofList]
    exact List.cons_ne_nil _ _
  induction h with
  | nil => exact Nat.le_refl 0
  | opens _ ih => exact cons (List.cons_ne_nil _ _) ih
  | closes _ ih => exact cons (List.cons_ne_nil _ _) ih
  | comma _ ih => exact cons (List.cons_ne_nil _ _) ih
  | key _ _ _ ih => exact cons (quoted _) (cons (List.cons_ne_nil _ _) ih)
  | word word _ _ ih =>
      obtain ⟨ch, cs, split, _⟩ := word.start
      exact cons (by rw [Item.chars, split]; exact List.cons_ne_nil _ _) ih
  | quoted _ _ ih => exact cons (quoted _) ih

/-- A piece that ends a word is a mark that a plain scalar stops at. -/
theorem stops_of_endsPlain {next : Item} (h : next.endsPlain = true) (items : List Item) :
    ∃ mark rest, textOf (next :: items) = mark :: rest ∧ IsAscii mark ∧ mark ≠ ' ' ∧
      stopsPlain true mark rest.head? = true := by
  cases next with
  | closes mapping => cases mapping <;> exact ⟨_, _, rfl, by decide, by decide, rfl⟩
  | comma => exact ⟨_, _, rfl, by decide, by decide, rfl⟩
  | _ => cases h

end

namespace Lexer

variable {s : Lexer}

/-- The state in front of some pieces. -/
structure Between (s : Lexer) (items : List Item) : Prop extends s.Steady where
  rest : ∃ spaces, s.cursor.rest = List.replicate spaces ' ' ++ textOf items
  follows : Follows s.depth s.keyAllowed items

/-- The state between a key and its colon, the tokens in front of the key among those that wait. -/
structure AfterKey (s : Lexer) (front : List Token) (k : String) (items : List Item) : Prop
    extends s.Steady where
  rest : s.cursor.rest = textOf (.colon :: items)
  waiting : s.tokens = front ++ [.scalar false k]
  follows : ∃ depth, s.depth = depth + 1 ∧ Follows (depth + 1) false items
  candidate : ∃ c, s.candidates.lookup s.depth = some c ∧ c.token = s.taken + front.length ∧
    s.isStale c = false

/-- What a step from one state to another keeps. -/
def Continues (s t : Lexer) : Prop := t.taken = s.taken ∧ t.length = s.length

/-- A state in front of pieces, from the state that it comes from. -/
theorem Steady.between (h : s.Steady) (spaces : Nat) {t : Lexer} {items : List Item}
    (running : t.isDone = s.isDone)
    (indent : t.indent = s.indent) (outer : t.outer = s.outer)
    (candidates : ∀ k ∈ t.candidates, k.2.required = false)
    (rest : t.cursor.rest = List.replicate spaces ' ' ++ textOf items)
    (follows : Follows t.depth t.keyAllowed items) : t.Between items where
  running := running.trans h.running
  indent := indent.trans h.indent
  outer := outer.trans h.outer
  candidates := candidates
  rest := ⟨spaces, rest⟩
  follows := follows

section

variable {spaces : Nat} {cs : List Char}

/-- The state after a text whose quoted form stands after some spaces. -/
def afterQuoted (s : Lexer) (x : String) (spaces : Nat) (rest : List Char) : Lexer :=
  { (s.settled spaces ((Json.quote x).toList ++ rest)).after (.scalar false x) (Json.quote x).length rest with
    candidates := (s.settled spaces ((Json.quote x).toList ++ rest)).noted, keyAllowed := false }

@[simp] theorem afterQuoted_cursor (x : String) : (s.afterQuoted x spaces cs).cursor =
    (s.cursor.past spaces ((Json.quote x).toList ++ cs)).past (Json.quote x).length cs := by
  simp only [afterQuoted, after, settled]

@[simp] theorem afterQuoted_tokens (x : String) :
    (s.afterQuoted x spaces cs).tokens = s.tokens ++ [.scalar false x] := by
  simp only [afterQuoted, after, settled]

@[simp] theorem afterQuoted_depth (x : String) : (s.afterQuoted x spaces cs).depth = s.depth := by
  simp only [afterQuoted, after, settled]

@[simp] theorem afterQuoted_keyAllowed (x : String) :
    (s.afterQuoted x spaces cs).keyAllowed = false := by
  simp only [afterQuoted]

@[simp] theorem afterQuoted_taken (x : String) : (s.afterQuoted x spaces cs).taken = s.taken := by
  simp only [afterQuoted, after, settled]

theorem afterQuoted_candidates (x : String) : (s.afterQuoted x spaces cs).candidates =
    (s.settled spaces ((Json.quote x).toList ++ cs)).noted := by
  simp only [afterQuoted]

theorem afterQuoted_continues (x : String) : s.Continues (s.afterQuoted x spaces cs) := by
  simp only [Continues, afterQuoted, after, settled, and_self]

theorem afterQuoted_steady (h : s.Steady) (x : String) : (s.afterQuoted x spaces cs).Steady := by
  refine ⟨?_, ?_, ?_, ?_⟩
  · simpa only [afterQuoted, after, settled] using h.running
  · simpa only [afterQuoted, after, settled] using h.indent
  · simpa only [afterQuoted, after, settled] using h.outer
  · rw [afterQuoted_candidates]
    exact (h.settled spaces _).noted_optional

theorem step_quoted (h : s.Steady) {x : String} (basic : Text.IsBasic x) (ascii : AreAscii cs)
    (here : s.cursor.rest = List.replicate spaces ' ' ++ ((Json.quote x).toList ++ cs)) :
    s.step = .ok (s.afterQuoted x spaces cs) := by
  have stepped := step_eq h (areAscii_append.mpr ⟨areAscii_quote x, ascii⟩) (startsPiece_quote x cs) here
  rw [head_quote] at stepped
  exact stepped.trans (dispatch_quoted (h.settled spaces _) basic rfl)

theorem noted_of_allowed (h : s.keyAllowed = true) :
    s.noted = (s.depth, s.candidate) :: s.candidates.filter fun k => k.1 != s.depth := if_pos h

/-- A text of which the quoted form is short enough may be a key where a key may stand. -/
theorem afterQuoted_candidate (allowed : s.keyAllowed = true) {x : String}
    (short : (Json.quote x).length ≤ 1024) :
    ∃ c, (s.afterQuoted x spaces cs).candidates.lookup s.depth = some c ∧
      c.token = s.taken + s.tokens.length ∧ (s.afterQuoted x spaces cs).isStale c = false := by
  refine ⟨(s.settled spaces ((Json.quote x).toList ++ cs)).candidate, ?_, ?_, ?_⟩
  · have permitted : (s.settled spaces ((Json.quote x).toList ++ cs)).keyAllowed = true := by
      simpa only [settled] using allowed
    have depth : (s.settled spaces ((Json.quote x).toList ++ cs)).depth = s.depth := by
      simp only [settled]
    rw [afterQuoted_candidates, noted_of_allowed permitted, depth, List.lookup_cons_self]
  · simp only [candidate, settled]
  · have near :
      ¬ 1024 < s.cursor.index + spaces + (Json.quote x).length - (s.cursor.index + spaces) := by
      omega
    simp only [isStale, candidate, settled, afterQuoted_cursor, Cursor.past_line, Cursor.past_index,
      bne_self_eq_false, Bool.false_or, decide_eq_false near]

end

/-- A piece is read in one step; a text that is a key waits for its colon then. -/
theorem Between.step {i : Item} {items : List Item} (h : s.Between (i :: items)) :
    ∃ t, s.step = .ok t ∧ s.Continues t ∧ (t.Between items ∧ t.tokens = s.tokens ++ i.tokens ∨
      ∃ k rest, i = .key k ∧ items = .colon :: rest ∧ t.AfterKey s.tokens k rest) := by
  obtain ⟨spaces, here⟩ := h.rest
  have follows := h.follows
  have stepped := step_eq h.toSteady follows.ascii follows.starts here
  have steady := h.toSteady.settled spaces (textOf (i :: items))
  have dropped :
    ∀ k ∈ (s.settled spaces (textOf (i :: items))).candidates.filter fun k => k.1 != s.depth,
      k.2.required = false := fun k mem => steady.candidates k (List.mem_of_mem_filter mem)
  rw [textOf_cons] at here
  generalize inside : s.depth = depth, permitted : s.keyAllowed = allowed at follows
  cases follows with
  | opens next =>
      refine ⟨_, stepped.trans (dispatch_opens steady rfl), ⟨rfl, rfl⟩, .inl ⟨?_, rfl⟩⟩
      exact steady.between 0 rfl rfl rfl steady.noted_optional rfl (inside ▸ next)
  | closes next =>
      refine ⟨_, stepped.trans (dispatch_closes steady inside rfl), ⟨rfl, rfl⟩, .inl ⟨?_, rfl⟩⟩
      exact steady.between 0 rfl rfl rfl dropped rfl next
  | comma next =>
      refine ⟨_, stepped.trans (dispatch_comma steady rfl), ⟨rfl, rfl⟩, .inl ⟨?_, rfl⟩⟩
      exact steady.between 1 rfl rfl rfl dropped rfl (inside ▸ next)
  | @key _ k rest basic short next =>
      have colon : AreAscii (textOf (.colon :: rest)) := by
        rw [textOf_cons]
        exact areAscii_append.mpr ⟨by decide, next.ascii⟩
      refine ⟨_, step_quoted h.toSteady basic colon here, afterQuoted_continues k,
        .inr ⟨k, rest, rfl, rfl, ?_⟩⟩
      exact { toSteady := afterQuoted_steady h.toSteady k
              rest := by rw [afterQuoted_cursor, Cursor.past_rest]
              waiting := afterQuoted_tokens k
              follows := ⟨_, (afterQuoted_depth k).trans inside, next⟩
              candidate := by
                rw [afterQuoted_depth, afterQuoted_taken]
                exact afterQuoted_candidate permitted short }
  | @word _ _ w next rest word ends more =>
      obtain ⟨mark, cs, split, ascii, space, stop⟩ := stops_of_endsPlain ends rest
      have place : (s.settled spaces (textOf (.word w :: next :: rest))).cursor.rest =
        w.toList ++ mark :: cs := by
        rw [← split]
        exact textOf_cons _ _
      obtain ⟨ch, first, read⟩ := dispatch_word steady inside word ascii space stop place
      have head : (textOf (.word w :: next :: rest)).head? = some ch := by
        rw [textOf_cons, Item.chars, List.head?_append, first]
        rfl
      rw [head] at stepped
      refine ⟨_, stepped.trans read, ⟨rfl, rfl⟩, .inl ⟨?_, rfl⟩⟩
      exact steady.between 0 rfl rfl rfl steady.noted_optional split.symm (inside ▸ more)
  | @quoted _ _ x _ basic next =>
      refine ⟨_, step_quoted h.toSteady basic next.ascii here, afterQuoted_continues x,
        .inl ⟨{ toSteady := afterQuoted_steady h.toSteady x, rest := ⟨0, ?_⟩, follows := ?_ },
          afterQuoted_tokens x⟩⟩
      · rw [afterQuoted_cursor, Cursor.past_rest]
        rfl
      · rw [afterQuoted_depth, afterQuoted_keyAllowed, inside]
        exact next

theorem lookup_filter {p : Nat × KeyCandidate → Bool} {n : Nat} {k : KeyCandidate}
    (kept : p (n, k) = true)
    {candidates : List (Nat × KeyCandidate)} (known : candidates.lookup n = some k) :
    (candidates.filter p).lookup n = some k := by
  induction candidates with
  | nil => cases known
  | cons first rest ih =>
      obtain ⟨m, j⟩ := first
      rw [List.lookup_cons] at known
      rw [List.filter_cons]
      cases same : n == m with
      | true =>
          rw [same] at known
          cases known
          rw [← beq_iff_eq.mp same, if_pos kept, List.lookup_cons_self]
      | false =>
          rw [same] at known
          split
          · rw [List.lookup_cons, same]
            exact ih known
          · exact ih known

/-- The colon is read in one step, and the text in front of it is a key then. -/
theorem AfterKey.step {front : List Token} {k : String} {items : List Item}
    (h : s.AfterKey front k items) :
    ∃ t, s.step = .ok t ∧ s.Continues t ∧ t.Between items ∧
      t.tokens = front ++ [.key, .scalar false k, .value] := by
  obtain ⟨depth, inside, next⟩ := h.follows
  obtain ⟨c, known, place, fresh⟩ := h.candidate
  have ascii : AreAscii (textOf (.colon :: items)) := by
    rw [textOf_cons]
    exact areAscii_append.mpr ⟨by decide, next.ascii⟩
  have starts : StartsPiece (textOf (.colon :: items)) := startsPiece_cons (by decide) _
  have here : s.cursor.rest = List.replicate 0 ' ' ++ textOf (.colon :: items) := h.rest
  have stepped := step_eq h.toSteady ascii starts here
  have steady := h.toSteady.settled 0 (textOf (.colon :: items))
  have still : (s.settled 0 (textOf (.colon :: items))).candidates.lookup s.depth = some c := by
    have same : { s with cursor := s.cursor.past 0 (textOf (.colon :: items)) }.isStale c = false :=
      fresh
    apply lookup_filter _ known
    rw [same]
    rfl
  have read :=
    dispatch_colon (s := s.settled 0 (textOf (.colon :: items))) inside h.waiting still place rfl
  refine ⟨_, stepped.trans read, ⟨rfl, rfl⟩, ?_, by simp [after, keyed]⟩
  exact steady.between 1 rfl rfl rfl (fun k mem => steady.candidates k (List.mem_of_mem_filter mem)) rfl
    (by simpa [after, keyed, settled, inside] using next)

/-- After the last piece the text ends. -/
theorem Between.finish (h : s.Between []) :
    ∃ t, s.step = .ok t ∧ s.Continues t ∧ t.isDone = true ∧ t.tokens = s.tokens ++ [.streamEnd] := by
  obtain ⟨spaces, here⟩ := h.rest
  have stepped := step_eq h.toSteady h.follows.ascii h.follows.starts here
  have steady := h.toSteady.settled spaces (textOf [])
  have finished :
    (s.settled spaces (textOf [])).finish = .ok { (s.settled spaces (textOf [])).emit [.streamEnd] with
      candidates := [], keyAllowed := false, isDone := true } := by
    rw [Lexer.finish, steady.unwind_eq, dropCandidate_eq steady.candidates]
    rfl
  exact ⟨_, stepped.trans finished, ⟨rfl, rfl⟩, rfl, rfl⟩

/-! ## Old candidates -/

/-- The state without the candidates that can no longer be keys. -/
def fresh (s : Lexer) : Lexer := { s with candidates := s.candidates.filter fun k => !s.isStale k.2 }

theorem Steady.fresh (h : s.Steady) : s.fresh.Steady :=
  { h with candidates := fun k mem => h.candidates k (List.mem_of_mem_filter mem) }

theorem Between.fresh {items : List Item} (h : s.Between items) : s.fresh.Between items :=
  { h.toSteady.fresh with rest := h.rest, follows := h.follows }

theorem AfterKey.fresh {front : List Token} {k : String} {items : List Item}
    (h : s.AfterKey front k items) :
    s.fresh.AfterKey front k items := by
  obtain ⟨c, known, place, recent⟩ := h.candidate
  have still : s.fresh.candidates.lookup s.depth = some c := lookup_filter (by rw [recent]; rfl) known
  exact { h.toSteady.fresh with
    rest := h.rest, waiting := h.waiting, follows := h.follows, candidate := ⟨c, still, place, recent⟩ }

/-! ## What the reader is given -/

/-- The tokens that are still given from a state, with the number of steps until the text is read. -/
inductive Gives : Nat → Lexer → List Token → Prop where
  | between {s : Lexer} {items : List Item} (h : s.Between items) :
    Gives (items.length + 1) s (s.tokens ++ tokensOf items)
  | afterKey {s : Lexer} {front : List Token} {k : String} {items : List Item}
      (h : s.AfterKey front k items) :
    Gives (items.length + 2) s (front ++ .key :: .scalar false k :: .value :: tokensOf items)
  | done {s : Lexer} (h : s.isDone = true) : Gives 0 s s.tokens

variable {n : Nat} {ts : List Token} {t : Token}

theorem Gives.step (h : Gives (n + 1) s ts) :
    ∃ s', s.step = .ok s' ∧ s.Continues s' ∧ Gives n s' ts := by
  cases h with
  | @between _ items h =>
      cases items with
      | nil =>
          obtain ⟨s', stepped, continues, done, tokens⟩ := h.finish
          refine ⟨s', stepped, continues, ?_⟩
          have last := Gives.done done
          rwa [tokens] at last
      | cons i items =>
          obtain ⟨s', stepped, continues, ⟨next, tokens⟩ | ⟨k, rest, rfl, rfl, next⟩⟩ := h.step
          · refine ⟨s', stepped, continues, ?_⟩
            have more := Gives.between next
            rwa [tokens, List.append_assoc, ← tokensOf_cons] at more
          · refine ⟨s', stepped, continues, ?_⟩
            rw [tokensOf_cons, tokensOf_cons]
            exact .afterKey next
  | @afterKey _ front k items h =>
      obtain ⟨s', stepped, continues, next, tokens⟩ := h.step
      refine ⟨s', stepped, continues, ?_⟩
      have more := Gives.between next
      rwa [tokens, List.append_assoc] at more

theorem Gives.fresh (h : Gives (n + 1) s ts) : Gives (n + 1) s.fresh ts := by
  cases h with
  | between h => exact .between h.fresh
  | afterKey h => exact .afterKey h.fresh

theorem Gives.running (h : Gives (n + 1) s ts) : s.Steady := by
  cases h with
  | between h => exact h.toSteady
  | afterKey h => exact h.toSteady

theorem first_eq {rest : List Token} (h : s.tokens = t :: rest) : s.first = t := by
  rw [Lexer.first, h]
  rfl

theorem drop_tokens {rest : List Token} (h : s.tokens = t :: rest) : s.drop.tokens = rest := by
  rw [Lexer.drop, h]
  rfl

@[simp] theorem drop_taken : s.drop.taken = s.taken + 1 := rfl

theorem drop_done (h : s.isDone = true) (waiting : s.tokens = t :: ts) :
    s.first = t ∧ Gives 0 s.drop ts := by
  have next : s.drop.isDone = true := h
  refine ⟨first_eq waiting, ?_⟩
  have more := Gives.done next
  rwa [drop_tokens waiting] at more

/-- A first token that is no candidate is given, and the others after it. -/
theorem Gives.drop (h : Gives n s (t :: ts)) (filled : s.tokens ≠ [])
    (settled : ∀ k ∈ s.candidates, k.2.token ≠ s.taken) : s.first = t ∧ Gives n s.drop ts := by
  generalize all : t :: ts = given at h
  cases h with
  | @between _ items h =>
      cases waiting : s.tokens with
      | nil => exact absurd waiting filled
      | cons first rest =>
          rw [waiting, List.cons_append] at all
          cases all
          have next : s.drop.Between items := { h with }
          refine ⟨first_eq waiting, ?_⟩
          have more := Gives.between next
          rwa [drop_tokens waiting] at more
  | @afterKey _ front k items h =>
      obtain ⟨c, known, place, fresh⟩ := h.candidate
      cases front with
      | nil =>
          -- The key itself is first, and it is still a candidate.
          obtain ⟨before, after, split, _⟩ := List.lookup_eq_some_iff.mp known
          have mem : (s.depth, c) ∈ s.candidates := by
            rw [split]
            exact List.mem_append_right _ List.mem_cons_self
          exact absurd place (settled _ mem)
      | cons first front =>
          cases all
          have next : s.drop.AfterKey front k items :=
            { h with
              waiting := drop_tokens h.waiting
              candidate := ⟨c, known, by rw [place, drop_taken, List.length_cons]; omega, fresh⟩ }
          exact ⟨first_eq h.waiting, .afterKey next⟩
  | done h => exact drop_done h all.symm

theorem Gives.of_zero (h : Gives 0 s ts) : s.isDone = true ∧ s.tokens = ts := by
  cases h with
  | done h => exact ⟨h, rfl⟩

/-- The first token is ready within the steps that are left. -/
theorem Gives.readyIn (h : Gives n s (t :: ts)) {fuel : Nat} (enough : n < fuel) :
    ∃ s' m, s.readyIn fuel = .ok s' ∧ s'.first = t ∧ s'.length = s.length ∧ m ≤ n ∧
    Gives m s' (t :: ts) ∧
      Gives m s'.drop ts := by
  induction n generalizing s fuel with
  | zero =>
      obtain ⟨fuel, rfl⟩ : ∃ f, fuel = f + 1 := ⟨fuel - 1, by omega⟩
      obtain ⟨done, waiting⟩ := h.of_zero
      obtain ⟨first, next⟩ := drop_done done waiting
      refine ⟨s, 0, ?_, first, rfl, Nat.le_refl 0, h, next⟩
      rw [Lexer.readyIn, if_pos done]
      rfl
  | succ n ih =>
      obtain ⟨fuel, rfl⟩ : ∃ f, fuel = f + 1 := ⟨fuel - 1, by omega⟩
      have running : s.isDone = false := h.running.running
      have further {r : Lexer} (more : Gives (n + 1) r (t :: ts)) (same : r.length = s.length) :
          ∃ s' m, (r.step >>= Lexer.readyIn fuel) = .ok s' ∧ s'.first = t ∧ s'.length = s.length ∧
          m ≤ n + 1 ∧
            Gives m s' (t :: ts) ∧ Gives m s'.drop ts := by
        obtain ⟨s', stepped, continues, next⟩ := more.step
        obtain ⟨s'', m, ready, first, length, fewer, given⟩ := ih next (by omega : n < fuel)
        rw [stepped, Outcome.ok_bind]
        exact ⟨s'', m, ready, first, length.trans (continues.2.trans same), by omega, given⟩
      have dropped : s.dropStale = .ok s.fresh := dropStale_eq h.running.candidates
      rw [Lexer.readyIn, running, if_neg Bool.false_ne_true]
      split
      · exact further h rfl
      · rename_i filled
        simp only [dropped, Outcome.ok_bind]
        split
        · exact further h.fresh rfl
        · rename_i settled
          have apart : ∀ k ∈ s.fresh.candidates, k.2.token ≠ s.fresh.taken := by
            intro k mem same
            exact settled (List.any_eq_true.mpr ⟨k, mem, beq_iff_eq.mpr same⟩)
          have some' : s.fresh.tokens ≠ [] := fun none => filled (List.isEmpty_iff.mpr none)
          obtain ⟨first, given⟩ := h.fresh.drop some' apart
          exact ⟨s.fresh, n + 1, rfl, first, rfl, Nat.le_refl _, h.fresh, given⟩

/-- The tokens that the reader will be given from a state. -/
def Streams (s : Lexer) (ts : List Token) : Prop := ∃ n, n ≤ s.length + 1 ∧ Gives n s ts

theorem Streams.ready (h : s.Streams (t :: ts)) :
    ∃ s', s.ready = .ok s' ∧ s'.first = t ∧ s'.Streams (t :: ts) ∧ s'.drop.Streams ts := by
  obtain ⟨n, enough, given⟩ := h
  obtain ⟨s', m, ready, first, length, fewer, now, next⟩ := given.readyIn (by omega : n < s.length + 2)
  have bound : m ≤ s'.length + 1 := by omega
  exact ⟨s', ready, first, ⟨m, bound, now⟩, ⟨m, bound, next⟩⟩

/-- A text in brackets gives the tokens of its pieces. -/
theorem streams_start {items : List Item} (h : Follows 0 true items) :
    (start (textOf items)).Streams (tokensOf items) := by
  have between : (start (textOf items)).Between items :=
    { running := rfl, indent := rfl, outer := rfl, candidates := fun _ mem => by cases mem
      rest := ⟨0, rfl⟩, follows := h }
  have short := length_le_textOf h
  exact ⟨items.length + 1, Nat.succ_le_succ short, .between between⟩

end Lexer
end Splice.Yaml
