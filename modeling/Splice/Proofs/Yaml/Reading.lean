import Splice.Proofs.Yaml.Blank
import Splice.Proofs.Yaml.Pieces

/-! # The nodes of a text in brackets

From the tokens of its pieces a value is read as nodes that stand together in the table: its own node and
the nodes of its parts in their order. Nodes that were there before stay as they are.
-/

namespace Splice.Yaml

open Outcome

mutual
/-- A value is what the nodes from one number up to another stand for, the first of them for the value
itself. -/
def Holds (g : Nodes) : Value → Nat → Nat → Prop
  | .list items, i, j => ∃ ns, g[i]? = some ⟨.sequence, .sequence ns⟩ ∧ HoldsItems g items ns (i + 1) j
  | .mapping entries, i, j => ∃ es, g[i]? = some ⟨.mapping, .mapping es⟩ ∧
      HoldsEntries g entries es (i + 1) j
  | v, i, j => ∃ tag w, g[i]? = some ⟨tag, .scalar w⟩ ∧ tag.IsScalar ∧ tag.read w = .ok v ∧ j = i + 1

def HoldsItems (g : Nodes) : List Value → List Nat → Nat → Nat → Prop
  | [], [], i, j => i = j
  | v :: vs, n :: ns, i, j => n = i ∧ ∃ k, Holds g v i k ∧ HoldsItems g vs ns k j
  | _, _, _, _ => False

def HoldsEntries (g : Nodes) : List (Value × Value) → List (Nat × Nat) → Nat → Nat → Prop
  | [], [], i, j => i = j
  | (k, v) :: rest, (a, b) :: es, i, j =>
    a = i ∧ b = i + 1 ∧ (∃ s, k = .text s ∧ g[i]? = some ⟨.text, .scalar s⟩) ∧ (∀ e ∈ rest, e.1 ≠ k) ∧
      ∃ m, Holds g v (i + 1) m ∧ HoldsEntries g rest es m j
  | _, _, _, _ => False
end

section

variable {g g' : Nodes}

theorem holds_leaf {v : Value} (leaf : IsLeaf v) {i j : Nat} : Holds g v i j ↔
    ∃ tag w, g[i]? = some ⟨tag, .scalar w⟩ ∧ tag.IsScalar ∧ tag.read w = .ok v ∧ j = i + 1 := by
  cases v <;> first | rfl | cases leaf

mutual
theorem Holds.lt {v : Value} {i j : Nat} (h : Holds g v i j) : i < j := by
  cases v with
  | list items =>
      obtain ⟨ns, _, parts⟩ := h
      have := parts.le
      omega
  | mapping entries =>
      obtain ⟨es, _, parts⟩ := h
      have := parts.le
      omega
  | _ =>
      obtain ⟨_, _, _, _, _, rfl⟩ := (holds_leaf (by trivial)).mp h
      exact Nat.lt_succ_self i

theorem HoldsItems.le {items : List Value} {ns : List Nat} {i j : Nat} (h : HoldsItems g items ns i j) :
    i ≤ j := by
  cases items with
  | nil =>
      cases ns with
      | nil => exact Nat.le_of_eq h
      | cons => cases h
  | cons v items =>
      cases ns with
      | nil => cases h
      | cons n ns =>
          obtain ⟨-, k, first, rest⟩ := h
          exact Nat.le_trans (Nat.le_of_lt first.lt) rest.le

theorem HoldsEntries.le {entries : List (Value × Value)} {es : List (Nat × Nat)} {i j : Nat}
    (h : HoldsEntries g entries es i j) : i ≤ j := by
  cases entries with
  | nil =>
      cases es with
      | nil => exact Nat.le_of_eq h
      | cons => cases h
  | cons e entries =>
      cases es with
      | nil => cases h
      | cons n es =>
          obtain ⟨-, -, -, -, m, value, rest⟩ := h
          exact Nat.le_trans (Nat.le_of_lt (Nat.lt_of_succ_lt value.lt)) rest.le
end

mutual
/-- What a value's nodes stand for depends on no other nodes. -/
theorem Holds.congr {v : Value} {i j : Nat} (h : Holds g v i j)
    (same : ∀ n, i ≤ n → n < j → g'[n]? = g[n]?) :
    Holds g' v i j := by
  have here := same i (Nat.le_refl i) h.lt
  cases v with
  | list items =>
      obtain ⟨ns, node, parts⟩ := h
      exact ⟨ns, here.trans node, parts.congr fun n from' below =>
        same n (Nat.le_of_succ_le from') below⟩
  | mapping entries =>
      obtain ⟨es, node, parts⟩ := h
      exact ⟨es, here.trans node, parts.congr fun n from' below =>
        same n (Nat.le_of_succ_le from') below⟩
  | _ =>
      obtain ⟨tag, w, node, more⟩ := (holds_leaf (by trivial)).mp h
      exact (holds_leaf (by trivial)).mpr ⟨tag, w, here.trans node, more⟩

theorem HoldsItems.congr {items : List Value} {ns : List Nat} {i j : Nat} (h : HoldsItems g items ns i j)
    (same : ∀ n, i ≤ n → n < j → g'[n]? = g[n]?) : HoldsItems g' items ns i j := by
  cases items with
  | nil =>
      cases ns with
      | nil => exact h
      | cons => cases h
  | cons v items =>
      cases ns with
      | nil => cases h
      | cons n ns =>
          obtain ⟨at', k, first, rest⟩ := h
          have later := first.lt
          have end' := rest.le
          exact ⟨at', k, first.congr fun n lo hi => same n lo (by omega),
            rest.congr fun n lo hi => same n (by omega) hi⟩

theorem HoldsEntries.congr {entries : List (Value × Value)} {es : List (Nat × Nat)} {i j : Nat}
    (h : HoldsEntries g entries es i j) (same : ∀ n, i ≤ n → n < j → g'[n]? = g[n]?) :
    HoldsEntries g' entries es i j := by
  cases entries with
  | nil =>
      cases es with
      | nil => exact h
      | cons => cases h
  | cons e entries =>
      cases es with
      | nil => cases h
      | cons n es =>
          obtain ⟨first, second, ⟨s, text, key⟩, others, m, value, rest⟩ := h
          have later := value.lt
          have end' := rest.le
          exact ⟨first, second, ⟨s, text, (same i (by omega) (by omega)).trans key⟩, others, m,
            value.congr fun n lo hi => same n (by omega) (by omega),
            rest.congr fun n lo hi => same n (by omega) hi⟩
end

end

/-- The tokens that a value in brackets starts with. -/
def Token.StartsValue (t : Token) : Prop :=
  t = .flowSequenceStart ∨ t = .flowMappingStart ∨ ∃ isPlain w, t = .scalar isPlain w

namespace NodeReader

variable {r : NodeReader} {t : Token} {ts : List Token}

theorem run_deeper {α : Type} {m : M α} {r' : NodeReader} {a : α} (fits : r.level < levelLimit)
    (h : m.run { r with level := r.level + 1 } = .ok (a, r')) :
    (deeper m).run r = .ok (a, { r' with level := r'.level - 1 }) := by
  simp [deeper, Nat.not_le.mpr fits, h]

theorem peek_streams (h : r.lexer.Streams (t :: ts)) :
    ∃ l : Lexer, l.Streams (t :: ts) ∧ l.drop.Streams ts ∧
    peek.run r = .ok (t, { r with lexer := l }) := by
  obtain ⟨l, ready, first, now, next⟩ := h.ready
  refine ⟨l, now, next, ?_⟩
  rw [run_peek, ready, ← first]
  rfl

theorem nextIs_streams (h : r.lexer.Streams (t :: ts)) (marks : List Token) (answer : Bool)
    (known : marks.contains t = answer) :
    ∃ l : Lexer, l.Streams (t :: ts) ∧ l.drop.Streams ts ∧
      (nextIs marks).run r = .ok (answer, { r with lexer := l }) := by
  obtain ⟨l, now, next, peeks⟩ := peek_streams h
  refine ⟨l, now, next, ?_⟩
  rw [nextIs, StateT.run_bind, peeks, ok_bind, ← known]
  rfl

theorem expect_streams (h : r.lexer.Streams (t :: ts)) :
    ∃ l : Lexer, l.Streams ts ∧ (expect t).run r = .ok ((), { r with lexer := l }) := by
  obtain ⟨l, _, next, peeks⟩ := peek_streams h
  refine ⟨l.drop, next, ?_⟩
  rw [expect, StateT.run_bind, peeks, ok_bind, if_pos rfl]
  rfl

theorem header_streams (h : r.lexer.Streams (t :: ts)) (starts : t.StartsValue) :
    ∃ l : Lexer, l.Streams (t :: ts) ∧ header.run r = .ok (.empty, { r with lexer := l }) := by
  obtain ⟨l, now, next, peeks⟩ := peek_streams h
  refine ⟨l, now, ?_⟩
  have none : properties.run r = .ok (⟨none, none⟩, { r with lexer := l }) := by
    rw [properties, StateT.run_bind, peeks, ok_bind]
    obtain rfl | rfl | ⟨isPlain, w, rfl⟩ := starts <;> rfl
  rw [header, StateT.run_bind, none, ok_bind]
  rfl

/-- What a node in brackets is read by once its first token is dropped. -/
def inBrackets (fuel : Nat) : Token → M Nat
  | .scalar isPlain text => addScalar .empty isPlain text
  | .flowSequenceStart => addCollection .empty .sequence (.sequence <$> flowItems true fuel)
  | .flowMappingStart => addCollection .empty .mapping (.mapping <$> flowEntries true fuel)
  | _ => throw .malformed

theorem node_streams (h : r.lexer.Streams (t :: ts)) (starts : t.StartsValue)
    (fits : r.level < levelLimit)
    (block unindented : Bool) (fuel : Nat) :
    ∃ l : Lexer, l.Streams ts ∧ ∀ {i : Nat} {r' : NodeReader},
      (inBrackets fuel t).run { r with lexer := l, level := r.level + 1 } = .ok (i, r') →
        (node block unindented (fuel + 1)).run r = .ok (i, { r' with level := r'.level - 1 }) := by
  obtain ⟨l₁, now₁, -, peeks₁⟩ := peek_streams (r := { r with level := r.level + 1 }) h
  obtain ⟨l₂, now₂, heads⟩ :=
    header_streams (r := { r with level := r.level + 1, lexer := l₁ }) now₁ starts
  obtain ⟨l₃, -, next, peeks₃⟩ := peek_streams (r := { r with level := r.level + 1, lexer := l₂ }) now₂
  refine ⟨l₃.drop, next, fun run => ?_⟩
  rw [node]
  apply run_deeper fits
  rw [StateT.run_bind, peeks₁, ok_bind]
  obtain rfl | rfl | ⟨isPlain, w, rfl⟩ := starts
  all_goals
    simp only [StateT.run_bind, heads, ok_bind, peeks₃]
    exact run

/-- A value starts with none of the tokens between the parts of a collection. -/
theorem contains_startsValue (h : t.StartsValue) {marks : List Token}
    (between : marks ⊆ [.key, .value, .flowEntry, .flowSequenceEnd, .flowMappingEnd]) :
    marks.contains t = false := by
  rw [List.contains_eq_mem, decide_eq_false_iff_not]
  intro mem
  have found := between mem
  obtain rfl | rfl | ⟨isPlain, w, rfl⟩ := h <;> simp at found

theorem flowItems_end (h : r.lexer.Streams (.flowSequenceEnd :: ts)) (first : Bool) (fuel : Nat) :
    ∃ l : Lexer, l.Streams ts ∧
    (flowItems first (fuel + 1)).run r = .ok ([], { r with lexer := l }) := by
  obtain ⟨l, _, next, peeks⟩ := nextIs_streams h [.flowSequenceEnd] true rfl
  refine ⟨l.drop, next, ?_⟩
  rw [flowItems, StateT.run_bind, peeks, ok_bind]
  rfl

theorem flowEntries_end (h : r.lexer.Streams (.flowMappingEnd :: ts)) (first : Bool) (fuel : Nat) :
    ∃ l : Lexer, l.Streams ts ∧
    (flowEntries first (fuel + 1)).run r = .ok ([], { r with lexer := l }) := by
  obtain ⟨l, _, next, peeks⟩ := nextIs_streams h [.flowMappingEnd] true rfl
  refine ⟨l.drop, next, ?_⟩
  rw [flowEntries, StateT.run_bind, peeks, ok_bind]
  rfl

/-- The comma in front of all parts but the first. -/
def comma (first : Bool) : List Token := if first then [] else [.flowEntry]

/-- In front of a part the collection does not end, and after the comma, if there is one, the part
begins. -/
theorem comma_streams {first : Bool} (mark : Token) (h : r.lexer.Streams (comma first ++ t :: ts))
    (begins : [mark].contains t = false) (ends : [mark].contains .flowEntry = false) :
    ∃ l : Lexer, l.Streams (t :: ts) ∧ ∀ {α : Type} (stop next : M α), (do
      if ← nextIs [mark] then stop
      else
        if !first then expect .flowEntry
        next).run r = next.run { r with lexer := l } := by
  cases first with
  | true =>
      obtain ⟨l, now, -, peeks⟩ := nextIs_streams h [mark] false begins
      refine ⟨l, now, fun stop next => ?_⟩
      rw [StateT.run_bind, peeks]
      rfl
  | false =>
      obtain ⟨l₁, now₁, -, peeks⟩ := nextIs_streams h [mark] false ends
      obtain ⟨l₂, now₂, expects⟩ := expect_streams (r := { r with lexer := l₁ }) now₁
      refine ⟨l₂, now₂, fun stop next => ?_⟩
      rw [StateT.run_bind, peeks, ok_bind, if_neg Bool.false_ne_true, Bool.not_false, if_pos rfl,
        StateT.run_bind,
        expects]
      rfl

theorem run_drop (l : Lexer) :
    drop.run { r with lexer := l } = .ok ((), { r with lexer := l.drop }) := rfl

/-- At the start of an item, after its comma if it is not the first, the item is read and then the
others. -/
theorem flowItems_next {first : Bool} (h : r.lexer.Streams (comma first ++ t :: ts))
    (starts : t.StartsValue)
    (fuel : Nat) : ∃ l : Lexer, l.Streams (t :: ts) ∧ (flowItems first (fuel + 1)).run r =
      (do let item ← node false false fuel
          return item :: (← flowItems false fuel) : M (List Nat)).run { r with lexer := l } := by
  have noEnd : [Token.flowSequenceEnd].contains t = false := contains_startsValue starts (by simp)
  have noKey : [Token.key].contains t = false := contains_startsValue starts (by simp)
  obtain ⟨l₁, now₁, begins⟩ := comma_streams _ h noEnd rfl
  obtain ⟨l₂, now₂, -, peeks₂⟩ := nextIs_streams (r := { r with lexer := l₁ }) now₁ _ false noKey
  obtain ⟨l₃, now₃, -, peeks₃⟩ := nextIs_streams (r := { r with lexer := l₂ }) now₂ _ false noEnd
  refine ⟨l₃, now₃, ?_⟩
  rw [flowItems]
  apply (begins _ _).trans
  rw [StateT.run_bind, peeks₂, ok_bind, if_neg Bool.false_ne_true, StateT.run_bind, peeks₃]
  rfl

/-- At the start of an entry its key is read, its value, and then the other entries. -/
theorem flowEntries_next {first : Bool} {s : String}
    (h : r.lexer.Streams (comma first ++ .key :: .scalar false s :: ts)) (fuel : Nat) :
    ∃ l : Lexer, l.Streams (.scalar false s :: ts) ∧ (flowEntries first (fuel + 1)).run r =
      (do let key ← node false false fuel
          let value ← flowValue [.flowEntry, .flowMappingEnd] fuel
          return (key, value) :: (← flowEntries false fuel) : M (List (Nat × Nat))).run
            { r with lexer := l } := by
  obtain ⟨l₁, now₁, begins⟩ := comma_streams .flowMappingEnd h rfl rfl
  obtain ⟨l₂, -, next₂, peeks₂⟩ := nextIs_streams (r := { r with lexer := l₁ }) now₁ [.key] true rfl
  obtain ⟨l₃, now₃, -, peeks₃⟩ :=
    nextIs_streams (r := { r with lexer := l₂.drop }) next₂
      [.value, .flowEntry, .flowMappingEnd] false rfl
  refine ⟨l₃, now₃, ?_⟩
  rw [flowEntries]
  apply (begins _ _).trans
  rw [StateT.run_bind, peeks₂, ok_bind, if_pos rfl]
  simp only [StateT.run_bind, run_drop, ok_bind, peeks₃]
  rfl

/-- After the colon the value is read. -/
theorem flowValue_streams (h : r.lexer.Streams (.value :: t :: ts)) (starts : t.StartsValue)
    (fuel : Nat) :
    ∃ l : Lexer, l.Streams (t :: ts) ∧ (flowValue [.flowEntry, .flowMappingEnd] (fuel + 1)).run r =
      (node false false fuel).run { r with lexer := l } := by
  have noEnd : [Token.flowEntry, .flowMappingEnd].contains t = false :=
    contains_startsValue starts (by simp)
  obtain ⟨l₁, -, next₁, peeks₁⟩ := nextIs_streams h [.value] true rfl
  obtain ⟨l₂, now₂, -, peeks₂⟩ := nextIs_streams (r := { r with lexer := l₁.drop }) next₁ _ false noEnd
  refine ⟨l₂, now₂, ?_⟩
  rw [flowValue, StateT.run_bind, peeks₁, ok_bind, if_pos rfl]
  simp only [StateT.run_bind, run_drop, ok_bind, peeks₂]
  rfl

/-! ## Nodes that are added -/

/-- What reading leaves: the tokens that come next, the level as it was, and the nodes that were
there. -/
structure Adds (r r' : NodeReader) (ts : List Token) : Prop where
  lexer : r'.lexer.Streams ts
  level : r'.level = r.level
  grows : r.nodes.size ≤ r'.nodes.size
  kept : ∀ n < r.nodes.size, r'.nodes[n]? = r.nodes[n]?

theorem Adds.trans {r' r'' : NodeReader} {us : List Token} (h : Adds r r' us)
    (more : Adds r' r'' ts) : Adds r r'' ts where
  lexer := more.lexer
  level := more.level.trans h.level
  grows := Nat.le_trans h.grows more.grows
  kept n old := (more.kept n (Nat.lt_of_lt_of_le old h.grows)).trans (h.kept n old)

/-- A scalar is added as one node. -/
theorem addScalar_adds (given : r.lexer.Streams ts) (isPlain : Bool) (w : String) :
    ∃ r', (addScalar .empty isPlain w).run r = .ok (r.nodes.size, r') ∧ Adds r r' ts ∧
      r'.nodes.size = r.nodes.size + 1 ∧
      r'.nodes[r.nodes.size]? = some ⟨if isPlain then Tag.ofText w else .text, .scalar w⟩ := by
  have tag : Header.empty.scalarTag isPlain w = if isPlain then Tag.ofText w else .text := by
    cases isPlain <;> rfl
  rw [← tag]
  refine ⟨{ r with nodes := r.nodes.push ⟨Header.empty.scalarTag isPlain w, .scalar w⟩ }, rfl, ?_,
    ?_, ?_⟩
  · exact ⟨given, rfl, by simp, fun n old => by simp [Array.getElem?_push, Nat.ne_of_lt old]⟩
  · simp
  · simp

/-- A collection is added in front of its parts, which are put into its node at the end. -/
theorem addCollection_adds {α : Type} {usual : Tag} {mark : α → Content} {parts : M α} {a : α}
    {r' : NodeReader}
    (run : parts.run { r with nodes := r.nodes.push ⟨usual, .sequence []⟩ } = .ok (a, r'))
    (adds : Adds { r with nodes := r.nodes.push ⟨usual, .sequence []⟩ } r' ts) :
    ∃ r'', (addCollection .empty usual (mark <$> parts)).run r = .ok (r.nodes.size, r'') ∧
    Adds r r'' ts ∧
      r''.nodes.size = r'.nodes.size ∧ r''.nodes[r.nodes.size]? = some ⟨usual, mark a⟩ ∧
      ∀ n, r.nodes.size < n → r''.nodes[n]? = r'.nodes[n]? := by
  have others (n : Nat) (apart : n ≠ r.nodes.size) :
      (r'.nodes.setContent r.nodes.size (mark a))[n]? = r'.nodes[n]? := by
    rw [Nodes.setContent, Array.getElem?_modify, if_neg (Ne.symm apart)]
  have grows := adds.grows
  have here := adds.kept r.nodes.size (by simp)
  refine ⟨{ r' with nodes := r'.nodes.setContent r.nodes.size (mark a) }, ?_, ?_, ?_, ?_, ?_⟩
  · have added : (add .empty (Header.empty.collectionTag usual) (.sequence [])).run r =
        .ok (r.nodes.size, { r with nodes := r.nodes.push ⟨usual, .sequence []⟩ }) := rfl
    rw [addCollection, StateT.run_bind, added, ok_bind, StateT.run_bind, StateT.run_map, run]
    rfl
  · refine ⟨adds.lexer, adds.level, ?_, fun n old => ?_⟩
    · simp [Nodes.setContent] at grows ⊢
      omega
    · rw [others n (Nat.ne_of_lt old), adds.kept n (by simp; omega)]
      simp [Array.getElem?_push, Nat.ne_of_lt old]
  · simp [Nodes.setContent]
  · simp [Nodes.setContent, Array.getElem?_modify, here]
  · exact fun n later => others n (Nat.ne_of_gt later)

/-- What is read one level deeper is added here. -/
theorem Adds.outside {l : Lexer} {r' : NodeReader}
    (h : Adds { r with lexer := l, level := r.level + 1 } r' ts) :
    Adds r { r' with level := r'.level - 1 } ts where
  lexer := h.lexer
  level := by rw [h.level]; rfl
  grows := h.grows
  kept := h.kept

theorem Adds.readied {l : Lexer} {r' : NodeReader} (h : Adds { r with lexer := l } r' ts) :
    Adds r r' ts :=
  { h with }

theorem length_pieces_pos (v : Value) : 0 < (pieces v).length := by
  cases v <;> exact Nat.succ_pos _

theorem length_listPieces_pos (items : List Value) : 0 < (listPieces false items).length := by
  cases items <;> exact Nat.succ_pos _

theorem length_entryPieces_pos (entries : List (Value × Value)) :
    0 < (entryPieces false entries).length := by
  cases entries <;> exact Nat.succ_pos _

theorem tokensOf_pieces {v : Value} (h : Readable v) (rest : List Item) :
    ∃ t ts, tokensOf (pieces v ++ rest) = t :: ts ∧ t.StartsValue := by
  cases v with
  | list items => exact ⟨_, _, tokensOf_cons _ _, .inl rfl⟩
  | mapping entries => exact ⟨_, _, tokensOf_cons _ _, .inr (.inl rfl)⟩
  | _ =>
      have h := readable_leaf (by trivial) h
      rw [IsReadable] at h
      rw [pieces_leaf (by trivial), List.singleton_append, tokensOf_cons]
      split at h
      · rename_i w found
        rw [found]
        exact ⟨_, _, rfl, .inr (.inr ⟨true, w, rfl⟩)⟩
      · rename_i s found
        rw [found]
        exact ⟨_, _, rfl, .inr (.inr ⟨false, s, rfl⟩)⟩
      · cases h

theorem node_scalar {isPlain : Bool} {w : String} (given : r.lexer.Streams (.scalar isPlain w :: ts))
    (fits : r.level < levelLimit) (block unindented : Bool) (fuel : Nat) :
    ∃ r', (node block unindented (fuel + 1)).run r = .ok (r.nodes.size, r') ∧ Adds r r' ts ∧
      r'.nodes.size = r.nodes.size + 1 ∧
      r'.nodes[r.nodes.size]? = some ⟨if isPlain then Tag.ofText w else .text, .scalar w⟩ := by
  obtain ⟨l, next, reads⟩ :=
    node_streams given (.inr (.inr ⟨isPlain, w, rfl⟩)) fits block unindented fuel
  obtain ⟨r', run, adds, size, here⟩ :=
    addScalar_adds (r := { r with lexer := l, level := r.level + 1 }) next isPlain w
  exact ⟨_, reads run, adds.outside, size, here⟩

theorem node_leaf {v : Value} (leaf : IsLeaf v) (h : Readable v) {rest : List Item}
    (given : r.lexer.Streams (tokensOf (pieces v ++ rest))) (fits : r.level < levelLimit)
    (block unindented : Bool) (fuel : Nat) :
    ∃ r', (node block unindented (fuel + 1)).run r = .ok (r.nodes.size, r') ∧ Adds r r' (tokensOf rest) ∧
      Holds r'.nodes (kept v) r.nodes.size r'.nodes.size := by
  have h := readable_leaf leaf h
  rw [IsReadable] at h
  rw [pieces_leaf leaf, List.singleton_append, tokensOf_cons] at given
  split at h
  · rename_i w found
    rw [found] at given
    obtain ⟨r', run, adds, size, here⟩ := node_scalar given fits block unindented fuel
    exact ⟨r', run, adds, (holds_leaf (isLeaf_kept leaf)).mpr ⟨_, w, here, h.2.1,
      by rw [kept_leaf leaf]; exact h.2.2, size⟩⟩
  · rename_i s found
    rw [found] at given
    obtain ⟨r', run, adds, size, here⟩ := node_scalar given fits block unindented fuel
    have scalar : Tag.text.IsScalar := by simp [Tag.IsScalar]
    exact ⟨r', run, adds, (holds_leaf (isLeaf_kept leaf)).mpr ⟨_, s, here, scalar, by rw [h.2]; rfl,
      size⟩⟩
  · cases h

mutual
/-- The pieces of a value are read as the nodes of the value. -/
theorem node_adds {r : NodeReader} {v : Value} (h : Readable v) {rest : List Item} {fuel : Nat}
    (given : r.lexer.Streams (tokensOf (pieces v ++ rest))) (fits : r.level + height v ≤ levelLimit)
    (enough : (pieces v).length ≤ fuel) (block unindented : Bool) :
    ∃ r', (node block unindented fuel).run r = .ok (r.nodes.size, r') ∧ Adds r r' (tokensOf rest) ∧
      Holds r'.nodes (kept v) r.nodes.size r'.nodes.size := by
  cases v with
  | list items =>
      rw [pieces, List.length_cons] at enough
      rw [height, ← Nat.add_assoc] at fits
      rw [pieces, List.cons_append, tokensOf_cons] at given
      obtain ⟨fuel, rfl⟩ : ∃ f, fuel = f + 1 := ⟨fuel - 1, by omega⟩
      obtain ⟨l, next, reads⟩ := node_streams given (.inl rfl) (by omega) block unindented fuel
      obtain ⟨ns, r', run, adds, parts⟩ := flowItems_adds
        (r := { r with
          lexer := l, level := r.level + 1, nodes := r.nodes.push ⟨.sequence, .sequence []⟩ })
        true h next (by dsimp only; omega) (Nat.le_of_succ_le_succ enough)
      obtain ⟨r'', collected, adds, size, here, others⟩ := addCollection_adds
        (r := { r with lexer := l, level := r.level + 1 }) run adds
      rw [Array.size_push, ← size] at parts
      exact ⟨_, reads collected, adds.outside, ns, here, parts.congr fun n later _ => others n later⟩
  | mapping entries =>
      rw [pieces, List.length_cons] at enough
      rw [height, ← Nat.add_assoc] at fits
      rw [pieces, List.cons_append, tokensOf_cons] at given
      obtain ⟨fuel, rfl⟩ : ∃ f, fuel = f + 1 := ⟨fuel - 1, by omega⟩
      obtain ⟨l, next, reads⟩ := node_streams given (.inr (.inl rfl)) (by omega) block unindented fuel
      obtain ⟨es, r', run, adds, parts⟩ := flowEntries_adds
        (r := { r with
          lexer := l, level := r.level + 1, nodes := r.nodes.push ⟨.mapping, .sequence []⟩ })
        true h next (by dsimp only; omega) (Nat.le_of_succ_le_succ enough)
      obtain ⟨r'', collected, adds, size, here, others⟩ := addCollection_adds
        (r := { r with lexer := l, level := r.level + 1 }) run adds
      rw [Array.size_push, ← size] at parts
      exact ⟨_, reads collected, adds.outside, es, here, parts.congr fun n later _ => others n later⟩
  | _ =>
      rw [pieces_leaf (by trivial), List.length_singleton] at enough
      obtain ⟨fuel, rfl⟩ : ∃ f, fuel = f + 1 := ⟨fuel - 1, by omega⟩
      exact node_leaf (by trivial) h given fits block unindented fuel

theorem flowItems_adds {r : NodeReader} {items : List Value} (first : Bool) (h : ReadableItems items)
    {rest : List Item} {fuel : Nat} (given : r.lexer.Streams (tokensOf (listPieces first items ++ rest)))
    (fits : r.level + heightOfItems items ≤ levelLimit)
    (enough : (listPieces first items).length ≤ fuel) :
    ∃ ns r', (flowItems first fuel).run r = .ok (ns, r') ∧ Adds r r' (tokensOf rest) ∧
      HoldsItems r'.nodes (keptItems items) ns r.nodes.size r'.nodes.size := by
  cases items with
  | nil =>
      obtain ⟨fuel, rfl⟩ : ∃ f, fuel = f + 1 :=
        ⟨fuel - 1, by rw [listPieces, List.length_singleton] at enough; omega⟩
      obtain ⟨l, next, run⟩ := flowItems_end given first fuel
      exact ⟨[], _, run, ⟨next, rfl, Nat.le_refl _, fun _ _ => rfl⟩, rfl⟩
  | cons v items =>
      obtain ⟨valued, others⟩ := h
      rw [listPieces, List.append_assoc, List.append_assoc] at given
      obtain ⟨t, ts, split, starts⟩ := tokensOf_pieces valued (listPieces false items ++ rest)
      have separated : r.lexer.Streams (comma first ++ t :: ts) := by
        rw [← split]
        cases first <;> exact given
      rw [listPieces, List.length_append, List.length_append] at enough
      have room := length_pieces_pos v
      have more := length_listPieces_pos items
      obtain ⟨fuel, rfl⟩ : ∃ f, fuel = f + 1 := ⟨fuel - 1, by omega⟩
      obtain ⟨l, now, next⟩ := flowItems_next separated starts fuel
      rw [← split] at now
      rw [heightOfItems] at fits
      obtain ⟨r₁, run₁, adds₁, holds⟩ := node_adds (r := { r with lexer := l }) valued now
        (by dsimp only; omega) (by omega : _ ≤ fuel) false false
      obtain ⟨ns, r₂, run₂, adds₂, parts⟩ := flowItems_adds false others adds₁.lexer
        (by rw [adds₁.level]; dsimp only; omega) (by omega : _ ≤ fuel)
      refine ⟨r.nodes.size :: ns, r₂, ?_, (adds₁.trans adds₂).readied, rfl, r₁.nodes.size, ?_, parts⟩
      · rw [next, StateT.run_bind, run₁, ok_bind, StateT.run_bind, run₂]
        rfl
      · exact holds.congr fun n _ below => adds₂.kept n below

theorem flowEntries_adds {r : NodeReader} {entries : List (Value × Value)} (first : Bool)
    (h : ReadableEntries entries)
    {rest : List Item} {fuel : Nat}
    (given : r.lexer.Streams (tokensOf (entryPieces first entries ++ rest)))
    (fits : r.level + heightOfEntries entries ≤ levelLimit)
    (enough : (entryPieces first entries).length ≤ fuel) :
    ∃ es r', (flowEntries first fuel).run r = .ok (es, r') ∧ Adds r r' (tokensOf rest) ∧
      HoldsEntries r'.nodes (keptEntries entries) es r.nodes.size r'.nodes.size := by
  cases entries with
  | nil =>
      obtain ⟨fuel, rfl⟩ : ∃ f, fuel = f + 1 :=
        ⟨fuel - 1, by rw [entryPieces, List.length_singleton] at enough; omega⟩
      obtain ⟨l, next, run⟩ := flowEntries_end given first fuel
      exact ⟨[], _, run, ⟨next, rfl, Nat.le_refl _, fun _ _ => rfl⟩, rfl⟩
  | cons e entries =>
      obtain ⟨k, v⟩ := e
      obtain ⟨⟨s, text, -⟩, apart, valued, others⟩ := h
      rw [entryPieces, keyName_eq text, List.append_assoc, List.cons_append, List.cons_append,
        List.append_assoc] at given
      obtain ⟨t, ts, split, starts⟩ := tokensOf_pieces valued (entryPieces false entries ++ rest)
      have separated :
        r.lexer.Streams (comma first ++ .key :: .scalar false s :: .value :: t :: ts) := by
        rw [← split]
        cases first <;> exact given
      rw [entryPieces, List.length_append, List.length_cons, List.length_cons,
        List.length_append] at enough
      have room := length_pieces_pos v
      have more := length_entryPieces_pos entries
      obtain ⟨fuel, rfl⟩ : ∃ f, fuel = f + 3 := ⟨fuel - 3, by omega⟩
      rw [heightOfEntries] at fits
      have deep := height_pos v
      obtain ⟨l, now, next⟩ := flowEntries_next separated (fuel + 2)
      obtain ⟨r₁, run₁, adds₁, size, key⟩ := node_scalar (r := { r with lexer := l }) now
        (by dsimp only; omega) false false (fuel + 1)
      obtain ⟨l₁, now₁, reads⟩ := flowValue_streams adds₁.lexer starts (fuel + 1)
      rw [← split] at now₁
      obtain ⟨r₂, run₂, adds₂, value⟩ := node_adds (r := { r₁ with lexer := l₁ }) valued now₁
        (by dsimp only; rw [adds₁.level]; dsimp only; omega) (by omega : _ ≤ fuel + 1) false false
      obtain ⟨es, r₃, run₃, adds₃, parts⟩ := flowEntries_adds false others adds₂.lexer
        (by rw [adds₂.level]; dsimp only; rw [adds₁.level]; dsimp only; omega) (by omega : _ ≤ fuel + 2)
      have later := (adds₂.readied.trans adds₃).kept
      refine ⟨(r.nodes.size, r₁.nodes.size) :: es, r₃, ?_,
        ((adds₁.trans adds₂.readied).trans adds₃).readied,
        rfl, size, ?_, keptEntries_ne apart, r₂.nodes.size, ?_, parts⟩
      · rw [next, StateT.run_bind, run₁, ok_bind, StateT.run_bind, reads, run₂, ok_bind,
          StateT.run_bind, run₃]
        rfl
      · exact ⟨s, congrArg Value.text (keyName_eq text),
          (later _ (by rw [size]; exact Nat.lt_succ_self _)).trans key⟩
      · rw [size] at value
        exact value.congr fun n _ below => adds₃.kept n below
end

theorem document_adds {v : Value} (h : Readable v) (given : r.lexer.Streams (tokensOf (pieces v)))
    (fits : r.level + height v ≤ levelLimit) {fuel : Nat} (enough : (pieces v).length ≤ fuel) :
    ∃ r', (document fuel).run r = .ok (some r.nodes.size, r') ∧
    Holds r'.nodes (kept v) r.nodes.size r'.nodes.size := by
  have whole : pieces v = pieces v ++ [] := (List.append_nil _).symm
  rw [whole] at given
  obtain ⟨t, ts, split, starts⟩ := tokensOf_pieces h []
  rw [split] at given
  obtain ⟨l, now, -, peeks⟩ := peek_streams given
  rw [← split] at now
  obtain ⟨r', run, adds, holds⟩ := node_adds (r := { r with lexer := l }) h now fits enough true false
  have last : r'.lexer.Streams [.streamEnd] := adds.lexer
  have begins : t ≠ .streamEnd ∧ isDocumentStart t = false := by
    obtain rfl | rfl | ⟨isPlain, w, rfl⟩ := starts <;> simp [isDocumentStart]
  have ends : ∃ l : Lexer, l.Streams [.streamEnd] ∧
    (dropEnds fuel).run r' = .ok ((), { r' with lexer := l }) := by
    cases fuel with
    | zero => exact ⟨r'.lexer, last, rfl⟩
    | succ fuel =>
        obtain ⟨l', now', -, peeks'⟩ := nextIs_streams last [.documentEnd] false rfl
        refine ⟨l', now', ?_⟩
        rw [dropEnds, StateT.run_bind, peeks']
        rfl
  obtain ⟨l', now', drops⟩ := ends
  obtain ⟨l'', -, -, peeks''⟩ := peek_streams (r := { r' with lexer := l' }) now'
  refine ⟨{ r' with lexer := l'' }, ?_, holds⟩
  rw [document, StateT.run_bind, peeks, ok_bind, if_neg begins.1, begins.2]
  simp only [Bool.false_eq_true, if_false, StateT.run_bind, run, ok_bind, drops, peeks'', if_true]
  rfl

end NodeReader

/-! ## The nodes of the whole text -/

theorem all_isPrintable {cs : List Char} (h : AreAscii cs) : (Text.codes cs).all isPrintable = true := by
  induction cs with
  | nil => rfl
  | cons ch cs ih =>
      obtain ⟨first, rest⟩ := areAscii_cons.mp h
      have plain : Text.held ch = [ch] := by
        apply if_neg
        have bound := first.2
        simp only [Text.isReserved, Bool.and_eq_true, decide_eq_true_eq]
        omega
      have step := Text.codes_held ch cs
      rw [plain, List.singleton_append] at step
      have printable : isPrintable ch.toNat = true := by
        obtain ⟨least, most⟩ := first
        have within : 0x20 ≤ ch.toNat ∧ ch.toNat ≤ 0x7E := ⟨least, by omega⟩
        simp [isPrintable, within]
      rw [step, List.all_cons, printable, ih rest]
      rfl

/-- The pieces of a collection are a whole text. -/
theorem follows_collection {v : Value} (collection : ¬ IsLeaf v) (h : Readable v) :
    Follows 0 true (pieces v) := by
  rw [← List.append_nil (pieces v)]
  cases v with
  | list items => exact .opens (follows_listPieces true h .nil)
  | mapping entries => exact .opens (follows_entryPieces true h .nil)
  | _ => exact absurd trivial collection

/-- A collection is read as its nodes, which are all nodes of the text. -/
theorem ofText_pieces {v : Value} (collection : ¬ IsLeaf v) (h : Readable v)
    (fits : height v ≤ NodeReader.levelLimit) :
    ∃ g, Nodes.ofText (String.ofList (textOf (pieces v))) = .ok (g, some 0) ∧
      Holds g (kept v) 0 g.size := by
  have follows := follows_collection collection h
  have lexer : Lexer.ofText (String.ofList (textOf (pieces v))) = .ok (.start (textOf (pieces v))) := by
    rw [Lexer.ofText, String.toList_ofList]
    exact if_pos (all_isPrintable follows.ascii)
  have short := length_le_textOf follows
  obtain ⟨r', run, holds⟩ := NodeReader.document_adds
    (r := ⟨.start (textOf (pieces v)), #[], [], NodeReader.usualHandles, 0⟩) h
    (Lexer.streams_start follows)
    (by simpa using fits) (by simp; omega : _ ≤ 16 * ((String.ofList (textOf (pieces v))).length + 2))
  refine ⟨r'.nodes, ?_, holds⟩
  rw [Nodes.ofText, lexer, ok_bind]
  simp only [run, ok_bind]
  rfl

end Splice.Yaml
