import Splice.Proofs.Outcome
import Splice.Proofs.Yaml.Cursor
import Splice.Text.Blank
import Splice.Yaml.Document

/-! # Blank YAML texts

A text of blanks that is not malformed holds no document, or a text of blanks and nothing else: the
format takes only spaces, tabs and line ends for blank, and any other blank starts a plain scalar.
-/

namespace Splice.Yaml

/-- Whether all characters are blank. -/
def AreBlank (cs : List Char) : Prop := ∀ ch ∈ cs, Text.isBlank ch = true

section

variable {cs ds : List Char}

theorem AreBlank.sublist (h : AreBlank ds) (part : cs.Sublist ds) : AreBlank cs :=
  fun ch mem => h ch (part.subset mem)

theorem AreBlank.suffix (h : AreBlank ds) (part : cs <:+ ds) : AreBlank cs := h.sublist part.sublist

theorem AreBlank.cons {ch : Char} (h : Text.isBlank ch = true) (rest : AreBlank cs) :
    AreBlank (ch :: cs) :=
  List.forall_mem_cons.mpr ⟨h, rest⟩

theorem AreBlank.append (left : AreBlank cs) (right : AreBlank ds) : AreBlank (cs ++ ds) :=
  List.forall_mem_append.mpr ⟨left, right⟩

theorem areBlank_nil : AreBlank [] := List.forall_mem_nil _

theorem isBlankText_ofList : Text.isBlankText (String.ofList cs) = true ↔ AreBlank cs := by
  simp [Text.isBlankText, AreBlank]

end

/-- A blank is no mark of the format. -/
theorem ne_of_isBlank {ch mark : Char} (h : Text.isBlank ch = true)
    (plain : Text.isBlank mark = false) : ch ≠ mark := by
  rintro rfl
  simp [h] at plain

/-! ## Scalars of blanks -/

section

variable {c next : Cursor} {ch : Char} {inFlow : Bool} {indent : Int}

theorem isBlank_lineBreak? (h : c.lineBreak? = some (ch, next)) : Text.isBlank ch = true := by
  obtain ⟨-, rfl | rfl | rfl⟩ := Cursor.lineBreak?_eq_some h <;> decide

theorem areBlank_fold {cs : List Char} (h : Text.isBlank ch = true) (more : AreBlank cs) :
    AreBlank (fold ch cs) := by
  unfold fold
  split
  · exact more.cons h
  · split
    · exact areBlank_nil.cons (by decide)
    · exact more

theorem areBlank_plainBreaks (fuel : Nat) (h : AreBlank c.rest) :
    AreBlank (plainBreaks fuel c).2.rest ∧
      ∀ cs, (plainBreaks fuel c).1 = some cs → AreBlank cs := by
  induction fuel generalizing c with
  | zero => exact ⟨h, fun cs taken => Option.some.inj taken ▸ areBlank_nil⟩
  | succ fuel ih =>
      rw [plainBreaks]
      split
      · exact ih (h.suffix (c.advance_rest ▸ List.tail_suffix _))
      · split
        · exact ⟨h, fun cs taken => Option.some.inj taken ▸ areBlank_nil⟩
        · rename_i ch next ended
          have left : AreBlank next.rest := h.suffix (Cursor.lineBreak?_eq_some ended).1
          split
          · exact ⟨left, fun cs taken => by cases taken⟩
          · refine ⟨(ih left).1, fun cs taken => ?_⟩
            obtain ⟨more, found, rfl⟩ := Option.map_eq_some_iff.mp taken
            exact ((ih left).2 more found).cons (isBlank_lineBreak? ended)

theorem areBlank_plainGap (h : AreBlank c.rest) :
    AreBlank (plainGap c).next.rest ∧ AreBlank (plainGap c).text := by
  have spaces : AreBlank (c.rest.takeWhile (· == ' ')) := h.sublist (List.takeWhile_sublist _)
  have after (n : Nat) : AreBlank (c.skip n).rest :=
    h.suffix (c.skip_rest n ▸ List.drop_suffix _ _)
  unfold plainGap
  dsimp only
  split
  · exact ⟨after _, spaces⟩
  · rename_i first afterBreak ended
    have left : AreBlank afterBreak.rest := (after _).suffix (Cursor.lineBreak?_eq_some ended).1
    split
    · exact ⟨left, areBlank_nil⟩
    · obtain ⟨rest, more⟩ := areBlank_plainBreaks afterBreak.rest.length left
      split <;> rename_i last found
      · exact ⟨by simpa [found] using rest, areBlank_nil⟩
      · exact ⟨by simpa [found] using rest,
          areBlank_fold (isBlank_lineBreak? ended) (more _ (by rw [found]))⟩

theorem plainSegment_sublist (inFlow : Bool) (cs : List Char) : (plainSegment inFlow cs).Sublist cs := by
  induction cs with
  | nil => exact List.Sublist.slnil
  | cons ch rest ih =>
      rw [plainSegment]
      split
      · exact List.nil_sublist _
      · exact ih.cons_cons ch

theorem areBlank_plainFrom (fuel : Nat) {broke : Bool} {gap : List Char} (h : AreBlank c.rest)
    (before : AreBlank gap) :
    AreBlank (plainFrom inFlow indent fuel broke gap c).next.rest ∧
      AreBlank (plainFrom inFlow indent fuel broke gap c).text := by
  induction fuel generalizing c broke gap with
  | zero => exact ⟨h, areBlank_nil⟩
  | succ fuel ih =>
      have piece : AreBlank (plainSegment inFlow c.rest) :=
        h.sublist (plainSegment_sublist _ _)
      obtain ⟨left, blanks⟩ := areBlank_plainGap (c := c.skip (plainSegment inFlow c.rest).length)
        (h.suffix (c.skip_rest _ ▸ List.drop_suffix _ _))
      rw [plainFrom]
      split
      · exact ⟨h, areBlank_nil⟩
      · dsimp only
        split
        · exact ⟨left, before.append piece⟩
        · obtain ⟨rest, more⟩ := ih left blanks
          exact ⟨rest, (before.append piece).append more⟩

theorem areBlank_plainScalar (inFlow : Bool) (indent : Int) (h : AreBlank c.rest) :
    AreBlank (plainScalar inFlow indent c).next.rest ∧ AreBlank (plainScalar inFlow indent c).text :=
  areBlank_plainFrom _ h areBlank_nil

end

/-! ## Tokens of a blank text -/

/-- The end of the text or a text of blanks. -/
def Token.OfBlank (t : Token) : Prop :=
  t = .streamEnd ∨ ∃ w, t = .scalar true w ∧ Text.isBlankText w = true

namespace Lexer

/-- A state between the tokens of a blank text: outside brackets and blocks, with no token that must be
a key. -/
structure OfBlank (s : Lexer) : Prop where
  rest : AreBlank s.cursor.rest
  tokens : ∀ t ∈ s.tokens, t.OfBlank
  depth : s.depth = 0
  indent : s.indent = -1
  outer : s.outer = []
  candidates : ∀ k ∈ s.candidates, k.2.required = false

variable {s : Lexer}

theorem ofBlank_start {cs : List Char} (h : AreBlank cs) : (start cs).OfBlank where
  rest := h
  tokens _ mem := by cases mem
  depth := rfl
  indent := rfl
  outer := rfl
  candidates _ mem := by cases mem

namespace OfBlank

theorem moved (h : s.OfBlank) {c : Cursor} {keyAllowed : Bool} (part : c.rest <:+ s.cursor.rest) :
    { s with cursor := c, keyAllowed }.OfBlank :=
  { h with rest := h.rest.suffix part }

theorem skipToToken (h : s.OfBlank) (fuel : Nat) : (s.skipToToken fuel).OfBlank := by
  induction fuel generalizing s with
  | zero => exact h
  | succ fuel ih =>
      have part : ((s.cursor.skipWhile (· == ' ')).skipComment).rest <:+ s.cursor.rest :=
        (Cursor.skipComment_rest_suffix _).trans (Cursor.skipWhile_rest_suffix _ _)
      rw [Lexer.skipToToken]
      split
      · rename_i ended
        exact ih (h.moved ((Cursor.lineBreak?_eq_some ended).1.trans part))
      · exact h.moved part

theorem skipMark (h : s.OfBlank) : s.skipMark.OfBlank := by
  unfold Lexer.skipMark
  split
  · exact h.moved (s.cursor.advance_rest ▸ List.tail_suffix _)
  · exact h

theorem forgets (h : s.OfBlank) (p : Nat × KeyCandidate → Bool) :
    { s with candidates := s.candidates.filter p }.OfBlank :=
  { h with candidates := fun k mem => h.candidates k (List.mem_of_mem_filter mem) }

theorem dropStale (h : s.OfBlank) : ∃ s', s.dropStale = .ok s' ∧ s'.OfBlank := by
  refine ⟨_, if_neg fun stale => ?_, h.forgets _⟩
  obtain ⟨k, mem, asked⟩ := List.any_eq_true.mp stale
  simp [h.candidates k mem] at asked

theorem dropCandidate (h : s.OfBlank) :
    ∃ s', s.dropCandidate = .ok s' ∧ s'.OfBlank ∧ s'.cursor = s.cursor := by
  refine ⟨_, if_neg fun here => ?_, h.forgets _, rfl⟩
  obtain ⟨k, mem, asked⟩ := List.any_eq_true.mp here
  simp [h.candidates k mem] at asked

theorem unwind (h : s.OfBlank) (column : Int) : s.unwind column = s := by
  have outer := h.outer
  simp only [Lexer.unwind, outer, closedBlocks, emit, List.append_nil]
  rw [← outer]
  exact ite_self s

theorem noteCandidate (h : s.OfBlank) : ∃ s', s.noteCandidate = .ok s' ∧ s'.OfBlank ∧
    s'.cursor = s.cursor := by
  unfold Lexer.noteCandidate
  split
  · obtain ⟨s', dropped, blank, at'⟩ := h.dropCandidate
    have column : s.indent ≠ s.cursor.column := by
      rw [h.indent]
      omega
    refine ⟨{ s' with candidates := (s'.depth, _) :: s'.candidates }, by simp only [dropped]; rfl,
      { blank with candidates := List.forall_mem_cons.mpr ⟨?_, blank.candidates⟩ }, at'⟩
    simp [column]
  · exact ⟨s, rfl, h, rfl⟩

theorem emits (h : s.OfBlank) {t : Token} (blank : t.OfBlank) : (s.emit [t]).OfBlank :=
  { h with
    tokens := fun u mem => by
      obtain mem | mem := List.mem_append.mp mem
      · exact h.tokens u mem
      · exact List.mem_singleton.mp mem ▸ blank }

/-- What a step on a blank text ends with. -/
def Steps (x : Except Error Lexer) : Prop := x = .error .malformed ∨ ∃ s, x = .ok s ∧ s.OfBlank

theorem plainText (h : s.OfBlank) : Steps s.plainText := by
  obtain ⟨s', noted, blank, -⟩ := h.noteCandidate
  obtain ⟨left, text⟩ := areBlank_plainScalar s'.inFlow (s'.indent + 1) blank.rest
  refine .inr ⟨_, by rw [Lexer.plainText, noted]; rfl, ?_⟩
  exact { blank.emits (.inr ⟨_, rfl, isBlankText_ofList.mpr text⟩) with rest := left }

theorem finish (h : s.OfBlank) : Steps s.finish := by
  obtain ⟨s', dropped, blank, -⟩ := h.dropCandidate
  refine .inr ⟨_, by rw [Lexer.finish, h.unwind, dropped]; rfl, ?_⟩
  exact { blank.emits (.inl rfl) with candidates := fun _ mem => by cases mem }

/-- No mark of the format is blank, so a blank starts a plain scalar or nothing. -/
theorem dispatch (h : s.OfBlank) {ch : Char} (here : s.cursor.peek = some ch) : Steps (s.dispatch ch) := by
  have blank : Text.isBlank ch = true := by
    obtain ⟨rest, split⟩ := List.head?_eq_some_iff.mp here
    exact h.rest ch (split ▸ List.mem_cons_self)
  have unmarked (mark : Char) (plain : Text.isBlank mark = false) : s.cursor.atMarker mark = false := by
    unfold Cursor.atMarker
    split
    · rename_i a b d rest found
      have first : a ≠ mark := ne_of_isBlank (h.rest a (found ▸ List.mem_cons_self)) plain
      simp [first]
    · rfl
  have marks (mark : Char) (plain : Text.isBlank mark = false) : ch ≠ mark := ne_of_isBlank blank plain
  unfold Lexer.dispatch
  simp only [unmarked '-' (by decide), unmarked '.' (by decide), marks '%' (by decide), marks '[' (by decide),
    marks '\x7b' (by decide), marks ']' (by decide), marks '\x7d' (by decide), marks ',' (by decide),
    marks '-' (by decide), marks '?' (by decide), marks ':' (by decide), marks '*' (by decide),
    marks '&' (by decide), marks '!' (by decide), marks '|' (by decide), marks '>' (by decide),
    marks '\'' (by decide), marks '"' (by decide), Bool.false_eq_true, and_false, false_and, if_false]
  split
  · exact h.plainText
  · exact .inl rfl

theorem step (h : s.OfBlank) : Steps s.step := by
  obtain ⟨s', dropped, blank⟩ := (h.skipMark.skipToToken (s.length + 1)).dropStale
  simp only [Lexer.step, dropped, Outcome.ok_bind, blank.unwind]
  cases here : s'.cursor.peek with
  | none => exact blank.finish
  | some ch => exact blank.dispatch here

theorem Steps.bind {x : Except Error Lexer} {f : Lexer → Except Error Lexer} (first : Steps x)
    (next : ∀ {s : Lexer}, s.OfBlank → Steps (f s)) : Steps (x >>= f) := by
  obtain rfl | ⟨s, rfl, blank⟩ := first
  · exact .inl rfl
  · exact next blank

theorem readyIn (h : s.OfBlank) (fuel : Nat) : Steps (s.readyIn fuel) := by
  induction fuel generalizing s with
  | zero => exact .inl rfl
  | succ fuel ih =>
      obtain ⟨s', dropped, blank⟩ := h.dropStale
      rw [Lexer.readyIn]
      split
      · exact .inr ⟨s, rfl, h⟩
      · split
        · exact h.step.bind ih
        · simp only [dropped, Outcome.ok_bind]
          split
          · exact blank.step.bind ih
          · exact .inr ⟨s', rfl, blank⟩

theorem first (h : s.OfBlank) : s.first.OfBlank := by
  unfold Lexer.first
  cases found : s.tokens with
  | nil => exact .inl rfl
  | cons t rest => exact h.tokens t (found ▸ List.mem_cons_self)

theorem drop (h : s.OfBlank) : s.drop.OfBlank :=
  { h with tokens := fun t mem => h.tokens t (List.mem_of_mem_drop mem) }

end OfBlank

end Lexer

/-! ## The node of a blank text -/

namespace NodeReader

variable {α β : Type}

theorem run_peek (r : NodeReader) :
    peek.run r = r.lexer.ready.map fun s => (s.first, { r with lexer := s }) := by
  cases ready : r.lexer.ready <;> simp [peek, ready, Except.map]

/-- From a state that `P` holds of, a step finds the text malformed or ends as `Q` says. -/
def Ends (P : NodeReader → Prop) (m : M α) (Q : α → NodeReader → Prop) : Prop :=
  ∀ r, P r → m.run r = .error .malformed ∨ ∃ a r', m.run r = .ok (a, r') ∧ Q a r'

variable {P : NodeReader → Prop} {Q : α → NodeReader → Prop} {R : β → NodeReader → Prop}

theorem ends_bind {m : M α} {f : α → M β} (first : Ends P m Q) (next : ∀ a, Ends (Q a) (f a) R) :
    Ends P (m >>= f) R := by
  intro r before
  rw [StateT.run_bind]
  obtain stops | ⟨a, r', runs, after⟩ := first r before
  · exact .inl (by rw [stops]; rfl)
  · rw [runs]
    exact next a r' after

theorem ends_pure {a : α} (h : ∀ r, P r → Q a r) : Ends P (pure a) Q :=
  fun r before => .inr ⟨a, r, rfl, h r before⟩

theorem ends_throw : Ends P (throw .malformed : M α) Q := fun _ _ => .inl rfl

theorem ends_get {Q : NodeReader → NodeReader → Prop} (h : ∀ r, P r → Q r r) : Ends P get Q :=
  fun r before => .inr ⟨r, r, rfl, h r before⟩

theorem ends_modify {f : NodeReader → NodeReader} {Q : Unit → NodeReader → Prop}
    (h : ∀ r, P r → Q () (f r)) : Ends P (modify f) Q :=
  fun r before => .inr ⟨(), f r, rfl, h r before⟩

/-- A state in a blank text with some nodes at some depth. -/
structure OfBlank (nodes : Nodes) (level : Nat) (r : NodeReader) : Prop where
  lexer : r.lexer.OfBlank
  nodes : r.nodes = nodes
  anchors : r.anchors = []
  level : r.level = level

variable {nodes : Nodes} {level : Nat}

theorem ends_peek : Ends (OfBlank nodes level) peek fun t r => t.OfBlank ∧ OfBlank nodes level r := by
  intro r h
  rw [run_peek]
  obtain stops | ⟨s, ready, blank⟩ := h.lexer.readyIn (r.lexer.length + 2)
  · exact .inl (by rw [Lexer.ready, stops]; rfl)
  · exact .inr ⟨s.first, { r with lexer := s }, by rw [Lexer.ready, ready]; rfl, blank.first,
      { h with lexer := blank }⟩

theorem ends_drop : Ends (OfBlank nodes level) drop fun _ => OfBlank nodes level :=
  ends_modify fun _ h => { h with lexer := h.lexer.drop }

theorem ends_given {p : Prop} {m : M α} (h : p → Ends P m Q) : Ends (fun r => p ∧ P r) m Q :=
  fun r before => h before.1 r before.2

theorem ends_header : Ends (OfBlank nodes level) header fun h r => h = .empty ∧ OfBlank nodes level r := by
  refine ends_bind (Q := fun p r => p = ⟨none, none⟩ ∧ OfBlank nodes level r) ?_ fun p => ?_
  · refine ends_bind ends_peek fun t => ends_given fun blank => ?_
    obtain rfl | ⟨w, rfl, -⟩ := blank <;> exact ends_pure fun r h => ⟨rfl, h⟩
  · refine ends_given fun none => ?_
    subst none
    exact ends_pure fun r h => ⟨rfl, h⟩

theorem ends_addScalar {w : String} : Ends (OfBlank #[] level) (addScalar .empty true w)
    fun i r => i = 0 ∧ OfBlank #[⟨Tag.ofText w, .scalar w⟩] level r := by
  intro r h
  refine .inr ⟨r.nodes.size, { r with nodes := r.nodes.push ⟨Tag.ofText w, .scalar w⟩ }, rfl, ?_, ?_⟩
  · rw [h.nodes]
    rfl
  · exact { h with nodes := by rw [h.nodes]; rfl }

/-- One text of blanks and nothing else. -/
def IsAlone (nodes : Nodes) (w : String) : Prop :=
  Text.isBlankText w = true ∧ nodes = #[⟨Tag.ofText w, .scalar w⟩]

theorem ends_deeper {m : M α} {Q : α → Nodes → Prop}
    (inside : Ends (OfBlank nodes 1) m fun a r => Q a r.nodes ∧ OfBlank r.nodes 1 r) :
    Ends (OfBlank nodes 0) (deeper m) fun a r => Q a r.nodes ∧ OfBlank r.nodes 0 r := by
  refine ends_bind (ends_get (Q := fun s r => s.level = 0 ∧ OfBlank nodes 0 r)
    fun r h => ⟨h.level, h⟩) fun s => ends_given fun level => ?_
  rw [if_neg (by rw [level]; decide)]
  refine ends_bind (Q := fun _ => OfBlank nodes 1)
    (ends_modify fun r h => { h with level := by rw [h.level] }) fun _ => ?_
  refine ends_bind inside fun a => ?_
  refine ends_bind (Q := fun _ r => Q a r.nodes ∧ OfBlank r.nodes 0 r) ?_ fun _ => ends_pure fun _ h => h
  exact ends_modify fun r h => ⟨h.1, { h.2 with level := by rw [h.2.level] }⟩

theorem ends_node (fuel : Nat) : Ends (OfBlank #[] 0) (node true false fuel)
    fun i r => (i = 0 ∧ ∃ w, IsAlone r.nodes w) ∧ OfBlank r.nodes 0 r := by
  cases fuel with
  | zero => exact ends_throw
  | succ fuel =>
      rw [node]
      refine ends_deeper (Q := fun i nodes => i = 0 ∧ ∃ w, IsAlone nodes w) ?_
      refine ends_bind ends_peek fun t => ends_given fun blank => ?_
      obtain rfl | ⟨v, rfl, -⟩ := blank
      all_goals
        refine ends_bind ends_header fun h => ends_given fun none => ?_
        subst none
        refine ends_bind ends_peek fun t => ends_given fun blank => ?_
        obtain rfl | ⟨w, rfl, blank⟩ := blank
        · exact ends_throw
        · refine ends_bind ends_drop fun _ r h => ?_
          obtain stops | ⟨i, r', runs, first, after⟩ := ends_addScalar (w := w) r h
          · exact .inl stops
          · exact .inr ⟨i, r', runs, ⟨first, w, blank, after.nodes⟩, { after with nodes := rfl }⟩

theorem ends_dropEnds (fuel : Nat) : Ends (OfBlank nodes 0) (dropEnds fuel) fun _ => OfBlank nodes 0 := by
  cases fuel with
  | zero => exact ends_pure fun _ h => h
  | succ fuel =>
      rw [dropEnds]
      refine ends_bind (Q := fun b r => b = false ∧ OfBlank nodes 0 r) ?_ fun b => ends_given fun no => ?_
      · refine ends_bind ends_peek fun t => ends_given fun blank => ?_
        obtain rfl | ⟨w, rfl, -⟩ := blank <;> exact ends_pure fun _ h => ⟨rfl, h⟩
      · subst no
        exact ends_pure fun _ h => h

theorem ends_documentStart (fuel : Nat) :
    Ends (OfBlank nodes 0) (documentStart fuel) fun _ => OfBlank nodes 0 := by
  refine ends_bind (Q := fun _ => OfBlank nodes 0) (ends_modify fun _ h => { h with }) fun _ => ?_
  refine ends_bind (Q := fun _ => OfBlank nodes 0) ?_ fun _ => ?_
  · cases fuel with
    | zero => exact ends_throw
    | succ fuel =>
        rw [directivesIn]
        refine ends_bind ends_peek fun t => ends_given fun blank => ?_
        obtain rfl | ⟨w, rfl, -⟩ := blank <;> exact ends_pure fun _ h => h
  · refine ends_bind (Q := fun _ => OfBlank nodes 0) (ends_modify fun _ h => { h with }) fun _ => ?_
    refine ends_bind ends_peek fun t => ends_given fun blank => ?_
    obtain rfl | ⟨w, rfl, -⟩ := blank <;> exact ends_throw

theorem ends_document (fuel : Nat) : Ends (OfBlank #[] 0) (document fuel)
    fun root r => root = none ∨ root = some 0 ∧ ∃ w, IsAlone r.nodes w := by
  refine ends_bind ends_peek fun t => ends_given fun blank => ?_
  obtain rfl | ⟨w, rfl, -⟩ := blank
  · exact ends_pure fun _ _ => .inl rfl
  · refine ends_bind (ends_node fuel) fun i r h => ?_
    obtain ⟨⟨rfl, w, alone⟩, h⟩ := h
    refine ends_bind (ends_dropEnds fuel) (fun _ => ?_) r h
    refine ends_bind ends_peek fun t => ends_given fun blank => ?_
    obtain rfl | ⟨v, rfl, -⟩ := blank
    · exact ends_pure fun _ h => .inr ⟨rfl, w, h.nodes ▸ alone⟩
    · exact ends_bind (ends_documentStart fuel) fun _ => ends_throw

end NodeReader

/-! ## The value of a blank text -/

section

variable {ch : Char} {cs : List Char}

theorem isAsciiDigit_blank (h : Text.isBlank ch = true) : isAsciiDigit ch = false := by
  rw [isAsciiDigit, Bool.and_eq_false_iff, decide_eq_false_iff_not, decide_eq_false_iff_not, ← not_and_or]
  rintro ⟨least, most⟩
  have least : 48 ≤ ch.toNat := least
  have most : ch.toNat ≤ 57 := most
  simp only [Text.isBlank, Bool.or_eq_true, Bool.and_eq_true, decide_eq_true_eq, beq_iff_eq] at h
  omega

theorem ofList_ne {word : String} (h : Text.isBlank ch = true)
    (plain : word.toList.head?.all (!Text.isBlank ·) = true) : String.ofList (ch :: cs) ≠ word := by
  rintro rfl
  simp [h] at plain

theorem not_mem_words {words : List String} (h : Text.isBlank ch = true)
    (plain : (words.all fun w => w.toList.head?.all (!Text.isBlank ·)) = true) :
    words.contains (String.ofList (ch :: cs)) = false := by
  rw [List.contains_eq_mem, decide_eq_false_iff_not]
  exact fun mem => ofList_ne h (List.all_eq_true.mp plain _ mem) rfl

theorem unsigned_blank (h : Text.isBlank ch = true) : unsigned (ch :: cs) = ch :: cs := by
  unfold unsigned
  split
  · rename_i found
    cases found
    cases h
  · rename_i found
    cases found
    cases h
  · rfl

theorem isFloat_blank (h : Text.isBlank ch = true) : isFloat (ch :: cs) = false := by
  have point : ch ≠ '.' := ne_of_isBlank h (by decide)
  have infinite : [".inf", ".Inf", ".INF"].contains (String.ofList (ch :: cs)) = false :=
    not_mem_words h (by decide)
  have none : [".nan", ".NaN", ".NAN"].contains (String.ofList (ch :: cs)) = false :=
    not_mem_words h (by decide)
  simp only [isFloat, unsigned_blank h, List.head?_cons, Option.any_some, isAsciiDigit_blank h,
    Bool.false_and, Bool.false_or, infinite, none, Bool.or_false]
  split
  · rename_i found
    exact absurd (List.cons.inj found).1 point
  · rfl

theorem isInt_blank (h : Text.isBlank ch = true) : isInt (ch :: cs) = false := by
  have zero : ch ≠ '0' := ne_of_isBlank h (by decide)
  unfold isInt
  rw [unsigned_blank h]
  split <;> rename_i found
  · exact absurd (List.cons.inj found).1 zero
  · exact absurd (List.cons.inj found).1 zero
  · exact absurd (List.cons.inj found).1 zero
  · rw [← (List.cons.inj found).1, isAsciiDigit_blank h, Bool.false_and]
  · rfl

theorem timestampParts?_blank (h : Text.isBlank ch = true) : timestampParts? false (ch :: cs) = none := by
  have digits : someDigits? 4 4 (ch :: cs) = none := by
    simp [someDigits?, isAsciiDigit_blank h]
  rw [timestampParts?, digits]
  rfl

end

theorem withoutLineEnd_eq_nil {w : String} (h : withoutLineEnd w.toList = []) (other : w ≠ "\n") :
    w = "" := by
  refine String.toList_injective ?_
  unfold withoutLineEnd at h
  split at h
  · rename_i last
    obtain ⟨before, split⟩ := List.getLast?_eq_some_iff.mp last
    rw [split, List.dropLast_concat] at h
    exact absurd (String.toList_injective (by rw [split, h]; decide)) other
  · exact h

/-- A text of blanks means itself, unless there is none of it. -/
theorem ofText_blank {w : String} (h : Text.isBlankText w = true) :
    Tag.ofText w = .text ∨ Tag.ofText w = .null := by
  have blank : AreBlank w.toList := isBlankText_ofList.mp (by rwa [String.ofList_toList])
  by_cases lineEnd : w = "\n"
  · subst lineEnd
    exact .inl (by decide)
  · cases found : withoutLineEnd w.toList with
    | nil => exact .inr (withoutLineEnd_eq_nil found lineEnd ▸ by decide)
    | cons ch cs =>
        have part : (withoutLineEnd w.toList).Sublist w.toList := by
          unfold withoutLineEnd
          split
          · exact List.dropLast_sublist _
          · exact List.Sublist.refl _
        have first : Text.isBlank ch = true := blank ch (part.subset (found ▸ List.mem_cons_self))
        refine .inl ?_
        unfold Tag.ofText
        simp only [found]
        rw [if_neg lineEnd, not_mem_words first (by decide), if_neg Bool.false_ne_true,
          not_mem_words first (by decide), if_neg Bool.false_ne_true, if_neg (ofList_ne first (by decide)),
          if_neg (ofList_ne first (by decide)), not_mem_words first (by decide),
          if_neg Bool.false_ne_true, isFloat_blank first, if_neg Bool.false_ne_true, isInt_blank first,
          if_neg Bool.false_ne_true, timestampParts?_blank first]
        rfl

theorem value_alone {nodes : Nodes} {w : String} (h : NodeReader.IsAlone nodes w) :
    nodes.value 0 = .ok .null ∨ nodes.value 0 = .ok (.text w) := by
  obtain ⟨blank, rfl⟩ := h
  obtain tag | tag := ofText_blank blank
  · exact .inr (by rw [tag]; rfl)
  · exact .inl (by rw [tag]; rfl)

/-- A blank text is malformed or holds null or a blank text. -/
theorem read_blank {s : String} (h : Text.isBlankText s = true) : read s = .error .malformed ∨
    read s = .ok .null ∨ ∃ w, Text.isBlankText w = true ∧ read s = .ok (.text w) := by
  have blank : AreBlank s.toList := isBlankText_ofList.mp (by rwa [String.ofList_toList])
  by_cases printable : (Text.codes s.toList).all isPrintable = true
  · have lexed : Lexer.ofText s = .ok (.start s.toList) := if_pos printable
    have begins : NodeReader.OfBlank #[] 0 ⟨.start s.toList, #[], [], NodeReader.usualHandles, 0⟩ :=
      ⟨Lexer.ofBlank_start blank, rfl, rfl, rfl⟩
    obtain stops | ⟨root, r, runs, held⟩ := NodeReader.ends_document (16 * (s.length + 2)) _ begins
    · exact .inl (by simp [read, Nodes.ofText, lexed, stops])
    · obtain rfl | ⟨rfl, w, alone⟩ := held
      · exact .inr (.inl (by simp [read, Nodes.ofText, lexed, runs]))
      · have run : read s = r.nodes.value 0 := by simp [read, Nodes.ofText, lexed, runs]
        obtain none | text := value_alone alone
        · exact .inr (.inl (run.trans none))
        · exact .inr (.inr ⟨w, alone.1, run.trans text⟩)
  · have refused : Lexer.ofText s = .error .malformed := if_neg printable
    exact .inl (by simp [read, Nodes.ofText, refused])

end Splice.Yaml
