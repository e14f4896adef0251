import Splice.Proofs.Yaml.Making

/-! # The value of a text in brackets

Once all that is found is finished, the value of a node is the one that its nodes stand for. A walk over
the parts in their order comes to each node once, so no value is met that was kept before.
-/

namespace Splice.Yaml

open Outcome

namespace Builder

variable {g : Nodes} {b : Builder} {i : Nat}

/-- From a number on no value is kept yet. -/
def Unset (i : Nat) (kept : Array (Option Value)) : Prop := ∀ n, i ≤ n → kept[n]?.join = none

theorem Unset.mono {kept : Array (Option Value)} (h : Unset i kept) {j : Nat} (le : i ≤ j) :
    Unset j kept :=
  fun n above => h n (Nat.le_trans le above)

theorem Unset.keep {kept : Array (Option Value)} {j : Nat} (h : Unset j kept) (before : i < j)
    (v : Option Value) :
    Unset j (kept.setIfInBounds i v) := by
  intro n above
  rw [Array.getElem?_setIfInBounds_ne (by omega)]
  exact h n above

theorem run_then {σ α β : Type} {x : StateM σ α} {f : α → StateM σ β} {s s' : σ} {a : α}
    (h : x.run s = (a, s')) :
    (x >>= f).run s = (f a).run s' := by
  show (f (x.run s).1).run (x.run s).2 = _
  rw [h]

theorem run_get {σ : Type} (s : σ) : (get : StateM σ σ).run s = (s, s) := rfl

/-- The values of an entry inside some collections, with the ones of them that occur in it. -/
def entryIn (b : Builder) (fuel : Nat) (around : List Nat) (e : Nat × Nat) :
    StateM (Array (Option Value)) ((Value × Value) × List Nat) := do
  let (key, inKey) ← b.valueIn fuel around e.1
  let (value, inValue) ← b.valueIn fuel around e.2
  return ((key, value), inKey ++ inValue)

section

variable {around : List Nat} {fuel : Nat} {kept kept' : Array (Option Value)}

theorem valueIn_scalar (new : i ∉ around) (fresh : kept[i]?.join = none) {v : Value} {nan : Bool}
    (found : b.made? i = some (.scalar v nan)) :
    (b.valueIn (fuel + 1) around i).run kept = ((v, []), kept.setIfInBounds i (some v)) := by
  rw [valueIn]
  simp only [List.contains_eq_mem, new, decide_false, Bool.false_eq_true, if_false]
  rw [run_then (run_get kept)]
  simp only [fresh, found]
  rfl

theorem valueIn_list (new : i ∉ around) (fresh : kept[i]?.join = none) {items : List Value}
    {ns : List Nat}
    (found : b.made? i = some (.list ns))
    (parts : (ns.mapM (b.valueIn fuel (i :: around))).run kept = (items.map fun v => (v, []), kept')) :
    (b.valueIn (fuel + 1) around i).run kept =
    ((.list items, []), kept'.setIfInBounds i (some (.list items))) := by
  have values : (items.map fun v => (v, ([] : List Nat))).map (·.1) = items := by
    simp [Function.comp_def]
  have met : (items.map fun v => (v, ([] : List Nat))).flatMap (·.2) = [] := by simp
  rw [valueIn]
  simp only [List.contains_eq_mem, new, decide_false, Bool.false_eq_true, if_false]
  rw [run_then (run_get kept)]
  simp only [fresh, found]
  rw [run_then parts, values, met]
  rfl

theorem valueIn_mapping (new : i ∉ around) (fresh : kept[i]?.join = none)
    {entries : List (Value × Value)}
    {es : List (Nat × Nat)} (found : b.made? i = some (.mapping es))
    (parts : (es.mapM (b.entryIn fuel (i :: around))).run kept = (entries.map fun e => (e, []), kept')) :
    (b.valueIn (fuel + 1) around i).run kept =
      ((.mapping entries, []), kept'.setIfInBounds i (some (.mapping entries))) := by
  have values : (entries.map fun e => (e, ([] : List Nat))).map (·.1) = entries := by
    simp [Function.comp_def]
  have met : (entries.map fun e => (e, ([] : List Nat))).flatMap (·.2) = [] := by simp
  rw [valueIn]
  simp only [List.contains_eq_mem, new, decide_false, Bool.false_eq_true, if_false]
  rw [run_then (run_get kept)]
  simp only [fresh, found]
  refine (run_then parts).trans ?_
  rw [values, met]
  rfl

end

theorem valueIn_leaf (complete : Complete g b) {v : Value} (leaf : IsLeaf v) {i j : Nat}
    (h : Holds g v i j)
    (made : b.made? i ≠ none) {fuel : Nat} {around : List Nat} {kept : Array (Option Value)}
    (new : i ∉ around)
    (fresh : kept[i]?.join = none) (unset : Unset (i + 1) kept) :
    ∃ kept', (b.valueIn (fuel + 1) around i).run kept = ((v, []), kept') ∧ Unset j kept' := by
  obtain ⟨m, found⟩ := Option.ne_none_iff_exists'.mp made
  obtain ⟨tag, w, node, -, meaning, rfl⟩ := (holds_leaf leaf).mp h
  cases (complete i m found).1 with
  | scalar other _ same =>
      rw [node] at other
      cases other
      rw [meaning] at same
      cases same
      exact ⟨_, valueIn_scalar new fresh found, unset.keep (Nat.lt_succ_self i) _⟩
  | list other => rw [node] at other; cases other
  | mapping other => rw [node] at other; cases other

mutual
/-- The value of a node is the one that its nodes stand for. -/
theorem valueIn_holds (complete : Complete g b) {v : Value} {i j : Nat} (h : Holds g v i j)
    (made : b.made? i ≠ none)
    {fuel : Nat} (enough : j ≤ fuel + i) {around : List Nat} (outside : ∀ a ∈ around, a < i)
    {kept : Array (Option Value)} (unset : Unset i kept) :
    ∃ kept', (b.valueIn fuel around i).run kept = ((v, []), kept') ∧ Unset j kept' := by
  have grows := h.lt
  obtain ⟨fuel, rfl⟩ : ∃ f, fuel = f + 1 := ⟨fuel - 1, by omega⟩
  have new : i ∉ around := fun mem => Nat.lt_irrefl i (outside i mem)
  have inside : ∀ a ∈ i :: around, a < i + 1 :=
    List.forall_mem_cons.mpr ⟨Nat.lt_succ_self i, fun a mem => Nat.lt_succ_of_lt (outside a mem)⟩
  have fresh := unset i (Nat.le_refl i)
  have later := unset.mono (Nat.le_succ i)
  obtain ⟨m, found⟩ := Option.ne_none_iff_exists'.mp made
  obtain ⟨shape, parts⟩ := complete i m found
  cases v with
  | list items =>
      obtain ⟨ns, node, holds⟩ := h
      cases shape with
      | list other =>
          rw [node] at other
          cases other
          obtain ⟨kept', run, left⟩ :=
            valuesIn_holds complete holds parts (by omega : j ≤ fuel + (i + 1)) inside later
          exact ⟨_, valueIn_list new fresh found run, left.keep grows _⟩
      | scalar other => rw [node] at other; cases other
      | mapping other => rw [node] at other; cases other
  | mapping entries =>
      obtain ⟨es, node, holds⟩ := h
      cases shape with
      | mapping other =>
          rw [node] at other
          cases other
          obtain ⟨kept', run, left⟩ :=
            entriesIn_holds complete holds parts (by omega : j ≤ fuel + (i + 1)) inside later
          exact ⟨_, valueIn_mapping new fresh found run, left.keep grows _⟩
      | scalar other => rw [node] at other; cases other
      | list other => rw [node] at other; cases other
  | _ => exact valueIn_leaf complete (by trivial) h made new fresh later

theorem valuesIn_holds (complete : Complete g b) {items : List Value} {ns : List Nat} {i j : Nat}
    (h : HoldsItems g items ns i j) (made : ∀ n ∈ ns, b.made? n ≠ none)
    {fuel : Nat} (enough : j ≤ fuel + i) {around : List Nat} (outside : ∀ a ∈ around, a < i)
    {kept : Array (Option Value)} (unset : Unset i kept) :
    ∃ kept', (ns.mapM (b.valueIn fuel around)).run kept = (items.map fun v => (v, []), kept') ∧
    Unset j kept' := by
  cases items with
  | nil =>
      cases ns with
      | nil => exact ⟨kept, rfl, unset.mono (Nat.le_of_eq h)⟩
      | cons => cases h
  | cons v items =>
      cases ns with
      | nil => cases h
      | cons n ns =>
          obtain ⟨rfl, k, first, rest⟩ := h
          have grows := first.lt
          have more := rest.le
          obtain ⟨kept₁, run₁, left₁⟩ := valueIn_holds complete first (made n List.mem_cons_self)
            (by omega : k ≤ fuel + n) outside unset
          obtain ⟨kept₂, run₂, left₂⟩ := valuesIn_holds complete rest
            (fun n mem => made n (List.mem_cons_of_mem _ mem)) (by omega : j ≤ fuel + k)
            (fun a mem => Nat.lt_trans (outside a mem) grows) left₁
          refine ⟨kept₂, ?_, left₂⟩
          rw [List.mapM_cons, run_then run₁, run_then run₂]
          rfl

theorem entriesIn_holds (complete : Complete g b) {entries : List (Value × Value)}
    {es : List (Nat × Nat)} {i j : Nat}
    (h : HoldsEntries g entries es i j) (made : ∀ n ∈ (Made.mapping es).parts, b.made? n ≠ none)
    {fuel : Nat} (enough : j ≤ fuel + i) {around : List Nat} (outside : ∀ a ∈ around, a < i)
    {kept : Array (Option Value)} (unset : Unset i kept) :
    ∃ kept', (es.mapM (b.entryIn fuel around)).run kept = (entries.map fun e => (e, []), kept') ∧
    Unset j kept' := by
  cases entries with
  | nil =>
      cases es with
      | nil => exact ⟨kept, rfl, unset.mono (Nat.le_of_eq h)⟩
      | cons => cases h
  | cons e entries =>
      cases es with
      | nil => cases h
      | cons n es =>
          obtain ⟨k, v⟩ := e
          obtain ⟨a, c⟩ := n
          obtain ⟨rfl, rfl, ⟨s, rfl, node⟩, -, m, value, rest⟩ := h
          have grows := value.lt
          have more := rest.le
          obtain ⟨fuel, rfl⟩ : ∃ f, fuel = f + 1 := ⟨fuel - 1, by omega⟩
          have leaf : IsLeaf (.text s) := by trivial
          have key : Holds g (.text s) a (a + 1) :=
            (holds_leaf leaf).mpr ⟨.text, s, node, by simp [Tag.IsScalar], rfl, rfl⟩
          obtain ⟨kept₁, run₁, left₁⟩ := valueIn_leaf complete leaf key (made a (by simp [Made.parts]))
            (fun mem => Nat.lt_irrefl a (outside a mem)) (unset a (Nat.le_refl a))
            (unset.mono (Nat.le_succ a))
          obtain ⟨kept₂, run₂, left₂⟩ :=
            valueIn_holds complete value (made (a + 1) (by simp [Made.parts]))
            (by omega : m ≤ fuel + 1 + (a + 1)) (fun b mem => Nat.lt_succ_of_lt (outside b mem)) left₁
          obtain ⟨kept₃, run₃, left₃⟩ := entriesIn_holds complete rest
            (fun n mem => made n (List.mem_append_right [a, a + 1] mem)) (by omega : j ≤ fuel + 1 + m)
            (fun b mem => by have := outside b mem; omega) left₂
          refine ⟨kept₃, ?_, left₃⟩
          have entry : (b.entryIn (fuel + 1) around (a, a + 1)).run kept =
            (((.text s, v), []), kept₂) := by
            rw [entryIn, run_then run₁, run_then run₂]
            rfl
          rw [List.mapM_cons, run_then entry, run_then run₃]
          rfl
end

end Builder

/-! ## The value of the whole text -/

section

variable {g : Nodes}

theorem HoldsItems.within {items : List Value} {ns : List Nat} {i j : Nat}
    (h : HoldsItems g items ns i j)
    (inside : j ≤ g.size) : ∀ n ∈ ns, n < g.size := by
  induction items generalizing ns i with
  | nil =>
      cases ns with
      | nil => exact List.forall_mem_nil _
      | cons => cases h
  | cons v items ih =>
      cases ns with
      | nil => cases h
      | cons n ns =>
          obtain ⟨rfl, k, first, rest⟩ := h
          have grows := first.lt
          have more := rest.le
          exact List.forall_mem_cons.mpr ⟨by omega, ih rest⟩

theorem HoldsEntries.within {entries : List (Value × Value)} {es : List (Nat × Nat)} {i j : Nat}
    (h : HoldsEntries g entries es i j) (inside : j ≤ g.size) :
    ∀ e ∈ es, e.1 < g.size ∧ e.2 < g.size := by
  induction entries generalizing es i with
  | nil =>
      cases es with
      | nil => exact List.forall_mem_nil _
      | cons => cases h
  | cons e entries ih =>
      cases es with
      | nil => cases h
      | cons n es =>
          obtain ⟨rfl, same, -, -, m, value, rest⟩ := h
          have grows := value.lt
          have more := rest.le
          exact List.forall_mem_cons.mpr ⟨⟨by omega, by omega⟩, ih rest⟩

theorem HoldsEntries.key {entries : List (Value × Value)} {es : List (Nat × Nat)} {i j : Nat}
    (h : HoldsEntries g entries es i j) :
    ∀ e ∈ es, ∃ d ∈ entries, ∃ s, d.1 = .text s ∧ g[e.1]? = some ⟨.text, .scalar s⟩ := by
  induction entries generalizing es i with
  | nil =>
      cases es with
      | nil => exact List.forall_mem_nil _
      | cons => cases h
  | cons d entries ih =>
      cases es with
      | nil => cases h
      | cons e es =>
          obtain ⟨rfl, -, ⟨s, text, node⟩, -, m, -, rest⟩ := h
          refine List.forall_mem_cons.mpr ⟨⟨d, List.mem_cons_self, s, text, node⟩, fun e mem => ?_⟩
          obtain ⟨d', mem', found⟩ := ih rest e mem
          exact ⟨d', List.mem_cons_of_mem _ mem', found⟩

/-- Entries whose keys are texts that differ have nodes whose keys are. -/
theorem HoldsEntries.keys {entries : List (Value × Value)} {es : List (Nat × Nat)} {i j : Nat}
    (holds : HoldsEntries g entries es i j) : Keys g es := by
  refine ⟨fun e mem => ?_, ?_⟩
  · obtain ⟨d, -, s, -, node⟩ := holds.key e mem
    exact ⟨s, node⟩
  · induction entries generalizing es i with
    | nil =>
        cases es with
        | nil => exact .nil
        | cons => cases holds
    | cons d entries ih =>
        cases es with
        | nil => cases holds
        | cons e es =>
            obtain ⟨rfl, -, ⟨s, key, node⟩, others, m, -, more⟩ := holds
            refine .cons (fun e mem same => ?_) (ih more)
            obtain ⟨d', mem', s', text, node'⟩ := more.key e mem
            rw [node, node'] at same
            cases same
            exact others d' mem' (text.trans key.symm)

mutual
/-- Each node of a value is one that something is made of. -/
theorem Holds.shape {v : Value} {i j : Nat} (holds : Holds g v i j) (inside : j ≤ g.size) :
    ∀ n, i ≤ n → n < j → ∃ m, Shape g n m := by
  intro n least below
  cases v with
  | list items =>
      obtain ⟨ns, node, parts⟩ := holds
      by_cases here : n = i
      · exact ⟨_, .list (here ▸ node) (parts.within inside)⟩
      · exact parts.shape inside n (by omega) below
  | mapping entries =>
      obtain ⟨es, node, parts⟩ := holds
      by_cases here : n = i
      · exact ⟨_, .mapping (here ▸ node) (parts.within inside) parts.keys⟩
      · exact parts.shape inside n (by omega) below
  | _ =>
      obtain ⟨tag, w, node, scalar, meaning, rfl⟩ := (holds_leaf (by trivial)).mp holds
      obtain rfl : n = i := by omega
      exact ⟨_, .scalar node scalar meaning⟩

theorem HoldsItems.shape {items : List Value} {ns : List Nat} {i j : Nat}
    (holds : HoldsItems g items ns i j) (inside : j ≤ g.size) :
    ∀ n, i ≤ n → n < j → ∃ m, Shape g n m := by
  intro n least below
  cases items with
  | nil =>
      cases ns with
      | nil =>
          cases holds
          omega
      | cons => cases holds
  | cons v items =>
      cases ns with
      | nil => cases holds
      | cons c ns =>
          obtain ⟨-, k, first, rest⟩ := holds
          by_cases here : n < k
          · exact first.shape (Nat.le_trans rest.le inside) n least here
          · exact rest.shape inside n (by omega) below

theorem HoldsEntries.shape {entries : List (Value × Value)} {es : List (Nat × Nat)} {i j : Nat}
    (holds : HoldsEntries g entries es i j) (inside : j ≤ g.size) :
    ∀ n, i ≤ n → n < j → ∃ m, Shape g n m := by
  intro n least below
  cases entries with
  | nil =>
      cases es with
      | nil =>
          cases holds
          omega
      | cons => cases holds
  | cons d entries =>
      cases es with
      | nil => cases holds
      | cons e es =>
          obtain ⟨-, -, ⟨s, -, node⟩, -, m, value, rest⟩ := holds
          by_cases key : n = i
          · exact ⟨_, .scalar (key ▸ node) (by simp [Tag.IsScalar]) rfl⟩
          · by_cases here : n < m
            · exact value.shape (Nat.le_trans rest.le inside) n (by omega) here
            · exact rest.shape inside n (by omega) below
end

/-- The value of nodes that all stand for one value is that value. -/
theorem value_holds {v : Value} (holds : Holds g v 0 g.size) : g.value 0 = .ok v := by
  have plain : ArePlain g := fun i inside => holds.shape (Nat.le_refl _) i (Nat.zero_le i) inside
  have blank (α : Type) (n : Nat) : (Array.replicate g.size (none : Option α))[n]?.join = none := by
    rw [Array.getElem?_replicate]
    split <;> rfl
  have start : Builder.Filling g ⟨g, Array.replicate g.size none, #[]⟩ 0 :=
    { nodes := rfl
      size := Array.size_replicate
      reached := Nat.zero_le _
      distinct := List.nodup_nil
      found := List.forall_mem_nil _
      waiting := List.forall_mem_nil _
      done := fun i _ m made => by
        rw [Builder.made?, blank Made i] at made
        cases made }
  obtain ⟨m, b₁, run₁, h₁, -, made⟩ := Builder.make_filling plain start holds.lt
  obtain ⟨b₂, run₂, complete, still⟩ :=
    Builder.fillFrom_complete plain (g.size + 1) h₁ (Nat.lt_succ_self _)
  have unset : Builder.Unset 0 (Array.replicate g.size none) := fun n _ => blank Value n
  obtain ⟨kept', run, -⟩ :=
    Builder.valueIn_holds complete holds (still 0 (by rw [made]; exact Option.some_ne_none m))
    (Nat.le_succ _ : g.size ≤ g.size + 1 + 0) (List.forall_mem_nil _) unset
  simp only [Nodes.value, StateT.run_bind, run₁, ok_bind, run₂, run]
  rfl

end

end Splice.Yaml
