import Mathlib.Logic.Basic

/-! # Outcomes of steps that may fail

When a chain of steps succeeds, each of its steps does. The lemmas take a successful chain apart one
step at a time, so that no proof opens the monad.
-/

namespace Splice.Outcome

variable {ε ε' α β : Type}

@[simp] theorem bind_eq_ok {x : Except ε α} {f : α → Except ε β} {b : β} :
    (x >>= f) = .ok b ↔ ∃ a, x = .ok a ∧ f a = .ok b := by
  cases x <;> simp [bind, Except.bind]

theorem bind_eq_error {x : Except ε α} {f : α → Except ε β} {e : ε} :
    (x >>= f) = .error e ↔ x = .error e ∨ ∃ a, x = .ok a ∧ f a = .error e := by
  cases x <;> simp [bind, Except.bind]

theorem map_eq_ok {x : Except ε α} {f : α → β} {b : β} :
    x.map f = .ok b ↔ ∃ a, x = .ok a ∧ f a = b := by
  cases x <;> simp [Except.map]

theorem map_eq_error {x : Except ε α} {f : α → β} {e : ε} : x.map f = .error e ↔ x = .error e := by
  cases x <;> simp [Except.map]

theorem exists_eq_ok {x : Except ε α} (h : x.toOption.isSome = true) : ∃ a, x = .ok a := by
  cases x with
  | ok a => exact ⟨a, rfl⟩
  | error e => cases h

theorem eq_ok_of_toOption {x : Except ε α} {a : α} (h : x.toOption = some a) : x = .ok a := by
  cases x with
  | ok b => exact congrArg Except.ok (Option.some.inj h)
  | error e => cases h

@[simp] theorem ok_bind (a : α) (f : α → Except ε β) : (Except.ok a >>= f) = f a := rfl

@[simp] theorem error_bind (e : ε) (f : α → Except ε β) :
    (Except.error e >>= f) = .error e := rfl

@[simp] theorem pure_eq (a : α) : (pure a : Except ε α) = .ok a := rfl

@[simp] theorem throw_eq (e : ε) : (throw e : Except ε α) = .error e := rfl

theorem forM_eq_ok {f : α → Except ε Unit} {xs : List α} : xs.forM f = .ok () ↔ ∀ x ∈ xs, f x = .ok () := by
  induction xs with
  | nil => simp
  | cons x xs ih =>
      rw [List.forM, bind_eq_ok, List.forall_mem_cons, ← ih]
      exact ⟨fun ⟨_, first, rest⟩ => ⟨first, rest⟩, fun ⟨first, rest⟩ => ⟨(), first, rest⟩⟩

/-- A walk that ends has met every item, and gives nothing but what the items gave. -/
theorem mapM_eq_ok {f : α → Except ε β} {xs : List α} {ys : List β} (h : xs.mapM f = .ok ys) :
    (∀ x ∈ xs, ∃ y ∈ ys, f x = .ok y) ∧ ∀ y ∈ ys, ∃ x ∈ xs, f x = .ok y := by
  induction xs generalizing ys with
  | nil =>
      obtain rfl := Except.ok.inj h
      exact ⟨List.forall_mem_nil _, List.forall_mem_nil _⟩
  | cons x rest ih =>
      rw [List.mapM_cons, bind_eq_ok] at h
      obtain ⟨y, first, h⟩ := h
      obtain ⟨more, met, h⟩ := bind_eq_ok.mp h
      obtain rfl := Except.ok.inj h
      obtain ⟨each, back⟩ := ih met
      constructor
      · refine List.forall_mem_cons.mpr ⟨⟨y, List.mem_cons_self, first⟩, fun z mem => ?_⟩
        obtain ⟨w, among, given⟩ := each z mem
        exact ⟨w, List.mem_cons_of_mem y among, given⟩
      · refine List.forall_mem_cons.mpr ⟨⟨x, List.mem_cons_self, first⟩, fun w mem => ?_⟩
        obtain ⟨z, among, given⟩ := back w mem
        exact ⟨z, List.mem_cons_of_mem x among, given⟩

theorem mapM_eq_map {f : α → Except ε β} {g : α → β} {xs : List α} (h : ∀ x ∈ xs, f x = .ok (g x)) :
    xs.mapM f = .ok (xs.map g) := by
  induction xs with
  | nil => rfl
  | cons x rest ih =>
      obtain ⟨first, others⟩ := List.forall_mem_cons.mp h
      rw [List.mapM_cons, first, ok_bind, ih others, ok_bind, pure_eq, List.map_cons]

/-- What a walk gives for one of its items stands among what it gives for the items around it. -/
theorem mapM_split {f : α → Except ε β} {before after : List α} {x : α} {ys : List β}
    (h : (before ++ x :: after).mapM f = .ok ys) :
    ∃ bs y cs, ys = bs ++ y :: cs ∧ f x = .ok y ∧ after.mapM f = .ok cs := by
  rw [List.mapM_append, bind_eq_ok] at h
  obtain ⟨bs, -, h⟩ := h
  obtain ⟨_, walked, h⟩ := bind_eq_ok.mp h
  obtain rfl := Except.ok.inj h
  rw [List.mapM_cons, bind_eq_ok] at walked
  obtain ⟨y, here, walked⟩ := walked
  obtain ⟨cs, rest, walked⟩ := bind_eq_ok.mp walked
  obtain rfl := Except.ok.inj walked
  exact ⟨bs, y, cs, rfl, here, rest⟩

/-- A walk fails as the first item that fails. -/
theorem mapM_eq_error {f : α → Except ε β} {xs : List α} {e : ε} :
    xs.mapM f = .error e ↔ ∃ before x after, xs = before ++ x :: after ∧
      (∀ b ∈ before, ∃ y, f b = .ok y) ∧ f x = .error e := by
  induction xs with
  | nil => simp
  | cons x rest ih =>
      simp only [List.mapM_cons, bind_eq_error, ih, pure_eq, reduceCtorEq, and_false, exists_false,
        or_false]
      constructor
      · rintro (failed | ⟨y, first, before, z, after, rfl, fine, failed⟩)
        · exact ⟨[], x, rest, rfl, List.forall_mem_nil _, failed⟩
        · exact ⟨x :: before, z, after, rfl, List.forall_mem_cons.mpr ⟨⟨y, first⟩, fine⟩, failed⟩
      · rintro ⟨before, z, after, split, fine, failed⟩
        cases before with
        | nil =>
            obtain ⟨rfl, -⟩ := List.cons.inj split
            exact .inl failed
        | cons b before =>
            obtain ⟨rfl, later⟩ := List.cons.inj split
            obtain ⟨⟨y, first⟩, fine⟩ := List.forall_mem_cons.mp fine
            exact .inr ⟨y, first, before, z, after, later, fine, failed⟩

/-- A walk that carries a state fails at the first item that fails, in the state that the items before
it lead to. -/
theorem foldlM_eq_error {f : β → α → Except ε β} {xs : List α} {b : β} {e : ε}
    (h : xs.foldlM f b = .error e) : ∃ before x after c, xs = before ++ x :: after ∧
      before.foldlM f b = .ok c ∧ f c x = .error e := by
  induction xs generalizing b with
  | nil => cases h
  | cons x rest ih =>
      rw [List.foldlM_cons, bind_eq_error] at h
      rcases h with failed | ⟨c, stepped, h⟩
      · exact ⟨[], x, rest, b, rfl, rfl, failed⟩
      · obtain ⟨before, y, after, d, rfl, walked, failed⟩ := ih h
        refine ⟨x :: before, y, after, d, rfl, ?_, failed⟩
        rw [List.foldlM_cons, stepped, ok_bind, walked]

/-- Two computations that begin with the same step agree, up to a choice made at their end, if they
do so after it. -/
theorem exists_bind_eq_map {γ κ : Type} (k : κ) {x : Except ε α} {f : α → Except ε β}
    {g : α → Except ε γ} {finish : κ → γ → β} (h : ∀ a, ∃ k, f a = (g a).map (finish k)) :
    ∃ k, (x >>= f) = (x >>= g).map (finish k) := by
  cases x with
  | error e => exact ⟨k, rfl⟩
  | ok a => exact h a

end Splice.Outcome
