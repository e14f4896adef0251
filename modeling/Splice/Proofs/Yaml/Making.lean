import Mathlib.Data.List.Nodup
import Mathlib.Data.List.Perm.Subperm
import Splice.Proofs.Yaml.Reading

/-! # Making what nodes stand for

Collections are made empty and filled in the order in which they are found. All parts of one are made
before it is filled, so once no collection waits, what is made is finished and closed under parts.
-/

namespace Splice.Yaml

open Outcome

/-! ## What is made of a node -/

/-- The keys of entries are texts that differ. -/
structure Keys (g : Nodes) (es : List (Nat × Nat)) : Prop where
  texts : ∀ e ∈ es, ∃ s, g[e.1]? = some ⟨.text, .scalar s⟩
  differ : es.Pairwise fun d e => g[d.1]? ≠ g[e.1]?

theorem Keys.tag {g : Nodes} {es : List (Nat × Nat)} (h : Keys g es) : ∀ e ∈ es, g.tag e.1 = .text := by
  intro e mem
  obtain ⟨s, node⟩ := h.texts e mem
  rw [Nodes.tag, node]
  rfl

/-- What is made of a node in the end. -/
inductive Shape (g : Nodes) (i : Nat) : Made → Prop where
  | scalar {tag : Tag} {w : String} {v : Value} (node : g[i]? = some ⟨tag, .scalar w⟩)
      (scalar : tag.IsScalar)
    (meaning : tag.read w = .ok v) : Shape g i (.scalar v (tag = .float && isNaNWord w))
  | list {ns : List Nat} (node : g[i]? = some ⟨.sequence, .sequence ns⟩)
      (within : ∀ n ∈ ns, n < g.size) :
    Shape g i (.list ns)
  | mapping {es : List (Nat × Nat)} (node : g[i]? = some ⟨.mapping, .mapping es⟩)
    (within : ∀ e ∈ es, e.1 < g.size ∧ e.2 < g.size) (keys : Keys g es) : Shape g i (.mapping es)

/-- What is made of a collection at first. -/
inductive Begun (g : Nodes) (i : Nat) : Made → Prop where
  | list {ns : List Nat} (shape : Shape g i (.list ns)) : Begun g i (.list [])
  | mapping {es : List (Nat × Nat)} (shape : Shape g i (.mapping es)) : Begun g i (.mapping [])

/-- The nodes that a collection is made of. -/
def Made.parts : Made → List Nat
  | .list ns => ns
  | .mapping es => es.flatMap fun e => [e.1, e.2]
  | _ => []

/-- Nodes that something is made of, each of them. -/
def ArePlain (g : Nodes) : Prop := ∀ i < g.size, ∃ m, Shape g i m

namespace Builder

variable {g : Nodes} {b : Builder} {i n p : Nat} {m : Made}

/-- What is made so far, with one more thing. -/
def put (b : Builder) (i : Nat) (m : Made) : Builder :=
    { b with made := b.made.setIfInBounds i (some m) }

theorem made?_put (h : i < b.made.size) : (b.put i m).made? n = if n = i then some m else b.made? n := by
  unfold made? put
  split
  · rename_i same
    rw [same, Array.getElem?_setIfInBounds_self_of_lt h]
    rfl
  · rename_i apart
    rw [Array.getElem?_setIfInBounds_ne (Ne.symm apart)]

theorem lt_of_made? (h : b.made? i = some m) : i < b.made.size := by
  unfold made? at h
  by_contra outside
  rw [Array.getElem?_eq_none (Nat.le_of_not_lt outside)] at h
  cases h

/-- What holds while collections are filled: those from a place in their order on are still empty, and
all else that is made is finished. -/
structure Filling (g : Nodes) (b : Builder) (place : Nat) : Prop where
  nodes : b.nodes = g
  size : b.made.size = g.size
  reached : place ≤ b.order.toList.length
  distinct : b.order.toList.Nodup
  found : ∀ i ∈ b.order.toList, b.made? i ≠ none
  waiting : ∀ i ∈ b.order.toList.drop place, ∃ m, b.made? i = some m ∧ Begun g i m
  done : ∀ i ∉ b.order.toList.drop place, ∀ m, b.made? i = some m →
    Shape g i m ∧ ∀ n ∈ m.parts, b.made? n ≠ none

/-- What is made stays. -/
structure Grows (b b' : Builder) : Prop where
  kept : ∀ i m, b.made? i = some m → b'.made? i = some m
  order : ∃ new, b'.order.toList = b.order.toList ++ new

theorem Grows.refl (b : Builder) : Grows b b := ⟨fun _ _ h => h, [], (List.append_nil _).symm⟩

theorem Grows.trans {b' b'' : Builder} (h : Grows b b') (more : Grows b' b'') : Grows b b'' := by
  obtain ⟨new, order⟩ := h.order
  obtain ⟨new', order'⟩ := more.order
  exact ⟨fun i m made => more.kept i m (h.kept i m made), new ++ new',
    by rw [order', order, List.append_assoc]⟩

theorem Grows.made {b' : Builder} (h : Grows b b') (made : b.made? i ≠ none) : b'.made? i ≠ none := by
  cases found : b.made? i with
  | none => exact absurd found made
  | some m =>
      rw [h.kept i m found]
      exact Option.some_ne_none m

namespace Filling

theorem put_size (h : Filling g b p) : (b.put i m).made.size = g.size := by
  rw [put, Array.size_setIfInBounds, h.size]

/-- A scalar that is made is finished. -/
theorem put_scalar (h : Filling g b p) (inside : i < g.size) (new : b.made? i = none) {v : Value}
    {nan : Bool}
    (shape : Shape g i (.scalar v nan)) :
    Filling g (b.put i (.scalar v nan)) p ∧ Grows b (b.put i (.scalar v nan)) := by
  have look (n : Nat) := made?_put (n := n) (m := .scalar v nan) (h.size ▸ inside)
  have grows : Grows b (b.put i (.scalar v nan)) := by
    refine ⟨fun n m made => ?_, [], (List.append_nil _).symm⟩
    rw [look, if_neg (by rintro rfl; rw [new] at made; cases made), made]
  refine ⟨⟨h.nodes, h.put_size, h.reached, h.distinct, fun n mem => grows.made (h.found n mem),
    ?_, ?_⟩, grows⟩
  · intro n mem
    obtain ⟨m, made, begun⟩ := h.waiting n mem
    exact ⟨m, grows.kept n m made, begun⟩
  · intro n mem m made
    rw [look] at made
    split at made
    · rename_i same
      cases made
      exact ⟨same ▸ shape, fun _ mem => by cases mem⟩
    · obtain ⟨shape, parts⟩ := h.done n mem m made
      exact ⟨shape, fun n mem => grows.made (parts n mem)⟩

/-- A collection that is made waits. -/
theorem put_begun (h : Filling g b p) (inside : i < g.size) (new : b.made? i = none)
    (begun : Begun g i m) :
    Filling g { b.put i m with order := b.order.push i } p ∧
    Grows b { b.put i m with order := b.order.push i } := by
  have look (n : Nat) : ({ b.put i m with order := b.order.push i } : Builder).made? n =
      if n = i then some m else b.made? n := made?_put (h.size ▸ inside)
  have grows : Grows b { b.put i m with order := b.order.push i } := by
    refine ⟨fun n m made => ?_, [i], by simp⟩
    rw [look, if_neg (by rintro rfl; rw [new] at made; cases made), made]
  have outside : i ∉ b.order.toList := fun mem => h.found i mem new
  have left : (b.order.push i).toList.drop p = b.order.toList.drop p ++ [i] := by
    rw [Array.toList_push, List.drop_append_of_le_length h.reached]
  refine ⟨⟨h.nodes, h.put_size, ?_, ?_, ?_, ?_, ?_⟩, grows⟩
  · have := h.reached
    simp at this ⊢
    omega
  · rw [Array.toList_push]
    exact List.concat_eq_append ▸ List.Nodup.concat outside h.distinct
  · intro n mem
    rw [look]
    split
    · exact Option.some_ne_none m
    · rename_i apart
      rw [Array.toList_push, List.mem_append, List.mem_singleton] at mem
      exact h.found n (mem.resolve_right apart)
  · intro n mem
    rw [left, List.mem_append, List.mem_singleton] at mem
    cases mem with
    | inl mem =>
        obtain ⟨m, made, begun⟩ := h.waiting n mem
        exact ⟨m, grows.kept n m made, begun⟩
    | inr same =>
        rw [same, look, if_pos rfl]
        exact ⟨m, rfl, begun⟩
  · intro n mem m made
    rw [left, List.mem_append, List.mem_singleton, not_or] at mem
    rw [look, if_neg mem.2] at made
    obtain ⟨shape, parts⟩ := h.done n mem.1 m made
    exact ⟨shape, fun n mem => grows.made (parts n mem)⟩

/-- The first collection that waits is finished once its parts are made. -/
theorem finish (h : Filling g b p) (here : b.order.toList[p]? = some i) (shape : Shape g i m)
    (parts : ∀ n ∈ m.parts, b.made? n ≠ none) :
    Filling g (b.put i m) (p + 1) ∧ ∀ n, b.made? n ≠ none → (b.put i m).made? n ≠ none := by
  obtain ⟨inside, at'⟩ := List.getElem?_eq_some_iff.mp here
  have left : b.order.toList.drop p = i :: b.order.toList.drop (p + 1) := by
    rw [← at', List.cons_getElem_drop_succ]
  have unique : i ∉ b.order.toList.drop (p + 1) := by
    have distinct := h.distinct.sublist (List.drop_sublist p _)
    rw [left] at distinct
    exact (List.nodup_cons.mp distinct).1
  obtain ⟨_, made, -⟩ := h.waiting i (left ▸ List.mem_cons_self)
  have look (n : Nat) : (b.put i m).made? n = if n = i then some m else b.made? n :=
    made?_put (lt_of_made? made)
  have still (n : Nat) (made : b.made? n ≠ none) : (b.put i m).made? n ≠ none := by
    rw [look]
    split
    · exact Option.some_ne_none m
    · exact made
  refine ⟨⟨h.nodes, h.put_size, inside, h.distinct, fun n mem => still n (h.found n mem), ?_, ?_⟩, still⟩
  · intro n mem
    rw [look, if_neg (by rintro rfl; exact unique mem)]
    exact h.waiting n (left ▸ List.mem_cons_of_mem _ mem)
  · intro n mem m' made
    rw [look] at made
    split at made
    · rename_i same
      cases made
      exact ⟨same ▸ shape, fun n mem => still n (parts n mem)⟩
    · rename_i apart
      have finished : n ∉ b.order.toList.drop p := by
        rw [left, List.mem_cons, not_or]
        exact ⟨apart, mem⟩
      obtain ⟨shape, parts⟩ := h.done n finished m' made
      exact ⟨shape, fun n mem => still n (parts n mem)⟩

end Filling

/-! ## Making a node -/

theorem scalar_node {tag : Tag} {w : String} {v : Value} (node : g[i]? = some ⟨tag, .scalar w⟩)
    (scalar : tag.IsScalar) (meaning : tag.read w = .ok v) :
    g.scalar i = .ok (.scalar v (tag = .float && isNaNWord w)) := by
  have kind : g.tag i = tag := by rw [Nodes.tag, node]; rfl
  have content : g.content i = .scalar w := by rw [Nodes.content, node]; rfl
  have none : g.entries? i = none := by rw [Nodes.entries?, content]
  have text : g.text (g.size + 1) i = .ok w := by rw [Nodes.text, content]
  have plain : ¬ (tag = .merge ∨ tag = .default ∨ tag = .unknown) := by
    obtain rfl | rfl | rfl | rfl | rfl | rfl | rfl := scalar <;> decide
  simp only [Nodes.scalar, kind, plain, if_false, text, none, Option.isSome_none, Bool.false_eq_true,
    and_false, meaning, ok_bind]
  rfl

/-- A node is made if it is not yet, and what is made stays. -/
theorem make_filling (plain : ArePlain g) (h : Filling g b p) (inside : i < g.size) :
    ∃ m b', (make i).run b = .ok (m, b') ∧ Filling g b' p ∧ Grows b b' ∧ b'.made? i = some m := by
  cases found : b.made? i with
  | some m =>
      refine ⟨m, b, ?_, h, .refl b, found⟩
      simp [make, found]
  | none =>
      obtain ⟨m, shape⟩ := plain i inside
      cases shape with
      | @scalar tag w v node scalar meaning =>
          obtain ⟨filling, grows⟩ := h.put_scalar inside found (.scalar node scalar meaning)
          have kind : b.nodes.tag i = tag := by rw [h.nodes, Nodes.tag, node]; rfl
          have made := scalar_node node scalar meaning
          rw [← h.nodes] at made
          refine ⟨_, _, ?_, filling, grows, by rw [made?_put (h.size ▸ inside), if_pos rfl]⟩
          simp only [make, StateT.run_bind, StateT.run_get, pure_eq, ok_bind, found, kind]
          obtain rfl | rfl | rfl | rfl | rfl | rfl | rfl := scalar
          all_goals simp [made, setMade, put]
      | @list ns node within =>
          obtain ⟨filling, grows⟩ := h.put_begun inside found (.list (.list node within))
          have kind : b.nodes.tag i = .sequence := by rw [h.nodes, Nodes.tag, node]; rfl
          refine ⟨_, _, ?_, filling, grows, (made?_put (h.size ▸ inside)).trans (if_pos rfl)⟩
          simp [make, found, kind, setMade, put]
      | @mapping es node within keys =>
          obtain ⟨filling, grows⟩ := h.put_begun inside found (.mapping (.mapping node within keys))
          have kind : b.nodes.tag i = .mapping := by rw [h.nodes, Nodes.tag, node]; rfl
          refine ⟨_, _, ?_, filling, grows, (made?_put (h.size ▸ inside)).trans (if_pos rfl)⟩
          simp [make, found, kind, setMade, put]

/-! ## Filling a list -/

theorem forM_make (plain : ArePlain g) {ns : List Nat} (within : ∀ n ∈ ns, n < g.size)
    (h : Filling g b p) :
    ∃ b', (ns.forM fun item => discard (make item)).run b = .ok ((), b') ∧ Filling g b' p ∧ Grows b b' ∧
      ∀ n ∈ ns, b'.made? n ≠ none := by
  induction ns generalizing b with
  | nil => exact ⟨b, rfl, h, .refl b, fun _ mem => by cases mem⟩
  | cons n ns ih =>
      obtain ⟨m, b₁, run₁, h₁, grows₁, made⟩ := make_filling plain h (within n List.mem_cons_self)
      obtain ⟨b₂, run₂, h₂, grows₂, others⟩ := ih (fun n mem => within n (List.mem_cons_of_mem _ mem)) h₁
      refine ⟨b₂, ?_, h₂, grows₁.trans grows₂, ?_⟩
      · have one : (discard (make n)).run b = .ok ((), b₁) := by
          show ((Function.const _ ()) <$> make n).run b = _
          rw [StateT.run_map, run₁]
          rfl
        rw [List.forM, StateT.run_bind, one, ok_bind, run₂]
      · intro c mem
        cases mem with
        | head => exact grows₂.made (by rw [made]; exact Option.some_ne_none m)
        | tail _ mem => exact others c mem

/-! ## Filling a mapping -/

/-- A mapping with no merge key and no key of a default value stays as it is. -/
theorem flatten_plain {es : List (Nat × Nat)} (node : g[i]? = some ⟨.mapping, .mapping es⟩)
    (texts : ∀ e ∈ es, g.tag e.1 = .text) : (Nodes.flatten i).run g = .ok ((), g) := by
  have content : g.entries? i = some es := by
    rw [Nodes.entries?, Nodes.content, node]
    rfl
  have merges : g.firstMerge? es = none := by
    clear node content
    induction es with
    | nil => rfl
    | cons e es ih =>
        rw [Nodes.firstMerge?, texts e List.mem_cons_self, if_neg (by decide),
          ih fun e mem => texts e (List.mem_cons_of_mem _ mem)]
        rfl
  have settled : g.settleDefaults es = g := by
    clear node content merges
    induction es with
    | nil => rfl
    | cons e es ih =>
        rw [Nodes.settleDefaults, List.foldl_cons, texts e List.mem_cons_self, if_neg (by decide)]
        exact ih fun e mem => texts e (List.mem_cons_of_mem _ mem)
  have same : g.setContent i (.mapping es) = g := by
    apply Array.ext_getElem?
    intro n
    rw [Nodes.setContent, Array.getElem?_modify]
    split
    · rename_i here
      rw [← here, node]
      rfl
    · rfl
  have entries : (Nodes.entriesOf i).run g = .ok (es, g) := by
    simp [Nodes.entriesOf, content]
  simp [Nodes.flatten, Nodes.flattenIn, entries, merges, settled, same]

theorem made_key (h : Filling g b p) {k : Nat} {s : String} (node : g[k]? = some ⟨.text, .scalar s⟩)
    (made : b.made? k = some m) : m = .scalar (.text s) false := by
  by_cases mem : k ∈ b.order.toList.drop p
  · obtain ⟨_, -, begun⟩ := h.waiting k mem
    cases begun with
    | list shape =>
        cases shape with
        | list other => rw [node] at other; cases other
    | mapping shape =>
        cases shape with
        | mapping other => rw [node] at other; cases other
  · obtain ⟨shape, -⟩ := h.done k mem m made
    cases shape with
    | scalar other _ meaning =>
        rw [node] at other
        cases other
        cases meaning
        rfl
    | list other => rw [node] at other; cases other
    | mapping other => rw [node] at other; cases other

/-- An entry with a key of its own goes to the end. -/
theorem putEntry_new (h : Filling g b p) {done : List (Nat × Nat)} {e : Nat × Nat}
    (keys : Keys g (done ++ [e]))
    (made : ∀ d ∈ done ++ [e], b.made? d.1 ≠ none) : b.putEntry e.1 e.2 done = done ++ [e] := by
  obtain ⟨s, node⟩ := keys.texts e (by simp)
  obtain ⟨m, here⟩ := Option.ne_none_iff_exists'.mp (made e (by simp))
  obtain rfl := made_key h node here
  induction done with
  | nil => rfl
  | cons d done ih =>
      obtain ⟨s', node'⟩ := keys.texts d (by simp)
      obtain ⟨m', there⟩ := Option.ne_none_iff_exists'.mp (made d (by simp))
      obtain rfl := made_key h node' there
      rw [List.cons_append] at keys made
      have apart : g[d.1]? ≠ g[e.1]? := List.rel_of_pairwise_cons keys.differ (by simp)
      have other : s' ≠ s := by
        intro same
        rw [node, node', same] at apart
        exact apart rfl
      have place : d.1 ≠ e.1 := by
        intro same
        rw [same] at apart
        exact apart rfl
      have differ : isSameKey d.1 e.1 (.scalar (.text s') false) (.scalar (.text s) false) = false := by
        simp [isSameKey, place, Value.sameKey, other]
      obtain ⟨k, v⟩ := d
      rw [putEntry, there, here]
      dsimp only
      rw [differ, if_neg Bool.false_ne_true,
        ih ⟨fun e mem => keys.texts e (List.mem_cons_of_mem _ mem), keys.differ.of_cons⟩
          fun e mem => made e (List.mem_cons_of_mem _ mem)]
      rfl

/-- Make an entry and put it into a mapping. -/
def addEntry (done : List (Nat × Nat)) (e : Nat × Nat) : M (List (Nat × Nat)) := do
  match ← make e.1 with
  | .scalar _ _ => pure ()
  | _ => throw .malformed
  let _ ← make e.2
  return (← get).putEntry e.1 e.2 done

theorem addEntry_filling (plain : ArePlain g) {done : List (Nat × Nat)} {e : Nat × Nat}
    (within : e.1 < g.size ∧ e.2 < g.size) (keys : Keys g (done ++ [e]))
    (made : ∀ d ∈ done, b.made? d.1 ≠ none)
    (h : Filling g b p) : ∃ b', (addEntry done e).run b = .ok (done ++ [e], b') ∧ Filling g b' p ∧
    Grows b b' ∧
      b'.made? e.1 ≠ none ∧ b'.made? e.2 ≠ none := by
  obtain ⟨s, node⟩ := keys.texts e (by simp)
  obtain ⟨m, b₁, run₁, h₁, grows₁, key⟩ := make_filling plain h within.1
  obtain rfl := made_key h₁ node key
  obtain ⟨m, b₂, run₂, h₂, grows₂, value⟩ := make_filling plain h₁ within.2
  have key' : b₂.made? e.1 ≠ none := grows₂.made (by rw [key]; exact Option.some_ne_none _)
  have put := putEntry_new h₂ keys fun d mem => by
    rw [List.mem_append, List.mem_singleton] at mem
    cases mem with
    | inl mem => exact (grows₁.trans grows₂).made (made d mem)
    | inr same => exact same ▸ key'
  refine ⟨b₂, ?_, h₂, grows₁.trans grows₂, key', by rw [value]; exact Option.some_ne_none m⟩
  simp only [addEntry, StateT.run_bind, run₁, ok_bind, StateT.run_pure, pure_eq, run₂,
    StateT.run_get, put]

theorem foldlM_addEntry (plain : ArePlain g) {es done : List (Nat × Nat)}
    (within : ∀ e ∈ es, e.1 < g.size ∧ e.2 < g.size) (keys : Keys g (done ++ es))
    (made : ∀ d ∈ done, b.made? d.1 ≠ none ∧ b.made? d.2 ≠ none) (h : Filling g b p) :
    ∃ b', (es.foldlM addEntry done).run b = .ok (done ++ es, b') ∧ Filling g b' p ∧ Grows b b' ∧
      ∀ e ∈ done ++ es, b'.made? e.1 ≠ none ∧ b'.made? e.2 ≠ none := by
  induction es generalizing b done with
  | nil => exact ⟨b, by rw [List.append_nil]; rfl, h, .refl b, by rwa [List.append_nil]⟩
  | cons e es ih =>
      have split : done ++ e :: es = (done ++ [e]) ++ es := by simp
      rw [split] at keys ⊢
      have first : Keys g (done ++ [e]) :=
        ⟨fun d mem => keys.texts d (List.mem_append_left _ mem), (List.pairwise_append.mp keys.differ).1⟩
      obtain ⟨b₁, run₁, h₁, grows₁, key, value⟩ :=
        addEntry_filling plain (within e List.mem_cons_self) first (fun d mem => (made d mem).1) h
      have made₁ : ∀ d ∈ done ++ [e], b₁.made? d.1 ≠ none ∧ b₁.made? d.2 ≠ none := by
        intro d mem
        rw [List.mem_append, List.mem_singleton] at mem
        cases mem with
        | inl mem => exact ⟨grows₁.made (made d mem).1, grows₁.made (made d mem).2⟩
        | inr same => exact same ▸ ⟨key, value⟩
      obtain ⟨b₂, run₂, h₂, grows₂, all⟩ :=
        ih (fun e mem => within e (List.mem_cons_of_mem _ mem)) keys made₁ h₁
      exact ⟨b₂, by rw [List.foldlM_cons, StateT.run_bind, run₁, ok_bind, run₂], h₂,
        grows₁.trans grows₂, all⟩

theorem mappingEntries_filling (plain : ArePlain g) {es : List (Nat × Nat)}
    (node : g[i]? = some ⟨.mapping, .mapping es⟩) (within : ∀ e ∈ es, e.1 < g.size ∧ e.2 < g.size)
    (keys : Keys g es)
    (h : Filling g b p) : ∃ b', (mappingEntries i).run b = .ok (es, b') ∧ Filling g b' p ∧ Grows b b' ∧
      ∀ e ∈ es, b'.made? e.1 ≠ none ∧ b'.made? e.2 ≠ none := by
  obtain ⟨b', run, filling, grows, made⟩ :=
    foldlM_addEntry plain within (by rwa [List.nil_append] : Keys g ([] ++ es)) (List.forall_mem_nil _) h
  refine ⟨b', ?_, filling, grows, made⟩
  have flat := flatten_plain node keys.tag
  have content : g.entries? i = some es := by
    rw [Nodes.entries?, Nodes.content, node]
    rfl
  have folded : mappingEntries i = (do
      let b ← get
      let flat ← (Nodes.flatten i).run b.nodes
      set { b with nodes := flat.2 }
      ((flat.2.entries? i).getD []).foldlM addEntry [] : M (List (Nat × Nat))) := rfl
  have still : { b with nodes := g } = b := by rw [← h.nodes]
  rw [folded]
  have lifted : (liftM (Except.ok ((), g) : Except Error (Unit × Nodes)) : M (Unit × Nodes)).run b =
      .ok (((), g), b) := rfl
  simp only [StateT.run_bind, StateT.run_get, pure_eq, ok_bind, h.nodes, flat, lifted, StateT.run_set,
    still,
    content]
  exact run

/-! ## Filling all collections -/

/-- The first collection that waits is filled. -/
theorem fill_filling (plain : ArePlain g) (h : Filling g b p) (here : b.order.toList[p]? = some i) :
    ∃ b', (fill i).run b = .ok ((), b') ∧ Filling g b' (p + 1) ∧
      ∀ n, b.made? n ≠ none → b'.made? n ≠ none := by
  obtain ⟨inside, at'⟩ := List.getElem?_eq_some_iff.mp here
  have mem : i ∈ b.order.toList.drop p :=
    at' ▸ List.mem_iff_getElem?.mpr ⟨0, by rw [List.getElem?_drop]; simp⟩
  have stays {b' : Builder} (grows : Grows b b') : b'.order.toList[p]? = some i := by
    obtain ⟨new, order⟩ := grows.order
    rw [order, List.getElem?_append_left inside, here]
  obtain ⟨m, made, begun⟩ := h.waiting i mem
  cases begun with
  | @list ns shape =>
      cases shape with
      | list node within =>
          obtain ⟨b', run, filling, grows, parts⟩ := forM_make plain within h
          obtain ⟨filled, still⟩ := filling.finish (stays grows) (.list node within) parts
          refine ⟨_, ?_, filled, fun n made => still n (grows.made made)⟩
          have content : b.nodes.content i = .sequence ns := by rw [h.nodes, Nodes.content, node]; rfl
          have items' : (items i).run b = .ok (ns, b) := by
            simp [items, content]
          simp only [fill, StateT.run_bind, StateT.run_get, pure_eq, ok_bind, made, items', run]
          rfl
  | @mapping es shape =>
      cases shape with
      | mapping node within keys =>
          obtain ⟨b', run, filling, grows, parts⟩ := mappingEntries_filling plain node within keys h
          have all : ∀ n ∈ (Made.mapping es).parts, b'.made? n ≠ none := by
            intro n mem
            obtain ⟨e, mem, part⟩ := List.mem_flatMap.mp mem
            simp only [List.mem_cons, List.not_mem_nil, or_false] at part
            cases part with
            | inl same => exact same ▸ (parts e mem).1
            | inr same => exact same ▸ (parts e mem).2
          obtain ⟨filled, still⟩ := filling.finish (stays grows) (.mapping node within keys) all
          refine ⟨_, ?_, filled, fun n made => still n (grows.made made)⟩
          simp only [fill, StateT.run_bind, StateT.run_get, pure_eq, ok_bind, made, run]
          rfl

/-- What is made once no collection waits: all of it is finished, and its parts are made. -/
def Complete (g : Nodes) (b : Builder) : Prop :=
  ∀ i m, b.made? i = some m → Shape g i m ∧ ∀ n ∈ m.parts, b.made? n ≠ none

theorem Filling.length_le (h : Filling g b p) : b.order.toList.length ≤ g.size := by
  have within : b.order.toList ⊆ List.range g.size := by
    intro i mem
    obtain ⟨m, made⟩ := Option.ne_none_iff_exists'.mp (h.found i mem)
    exact List.mem_range.mpr (h.size ▸ lt_of_made? made)
  have short := (List.subperm_of_subset h.distinct within).length_le
  rwa [List.length_range] at short

theorem fillFrom_complete (plain : ArePlain g) (fuel : Nat) (h : Filling g b p)
    (enough : g.size < fuel + p) :
    ∃ b', (fillFrom fuel p).run b = .ok ((), b') ∧ Complete g b' ∧
      ∀ n, b.made? n ≠ none → b'.made? n ≠ none := by
  induction fuel generalizing b p with
  | zero =>
      have reached := h.reached
      have short := h.length_le
      omega
  | succ fuel ih =>
      cases here : b.order.toList[p]? with
      | none =>
          refine ⟨b, ?_, ?_, fun _ made => made⟩
          · have none : b.order[p]? = none := by rw [← Array.getElem?_toList, here]
            simp only [fillFrom, StateT.run_bind, StateT.run_get, pure_eq, ok_bind, none]
            rfl
          · intro i m made
            have finished : b.order.toList.drop p = [] :=
              List.drop_eq_nil_of_le (List.getElem?_eq_none_iff.mp here)
            exact h.done i (by rw [finished]; exact List.not_mem_nil) m made
      | some i =>
          have some' : b.order[p]? = some i := by rw [← Array.getElem?_toList, here]
          obtain ⟨b₁, run₁, h₁, still₁⟩ := fill_filling plain h here
          obtain ⟨b₂, run₂, complete, still₂⟩ := ih h₁ (by omega)
          refine ⟨b₂, ?_, complete, fun n made => still₂ n (still₁ n made)⟩
          simp only [fillFrom, StateT.run_bind, StateT.run_get, pure_eq, ok_bind, some', run₁, run₂]

end Builder
end Splice.Yaml
