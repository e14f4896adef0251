import Mathlib.Order.Defs.Unbundled
import Splice.Pipeline

/-! # How actions end

`Ends x m a n` says that an action ends with a value, without a failure, and turns one machine into
another; `Fails x m f n` says the same of a failure. An action of several steps ends exactly when each
step does, and fails with the first step that fails.

`Keeps R x` says that the machines before and after an action are in a relation, whatever becomes of
the action. If the relation is a preorder, an action keeps it when each of its steps does.
-/

namespace Splice.Action

variable {α β : Type} {m n : Machine}

/-- An action ends with a value, and leaves the machine `n` where it found `m`. -/
def Ends (x : Action α) (m : Machine) (a : α) (n : Machine) : Prop := x.run.run m = (.ok a, n)

/-- An action fails, and leaves the machine `n` where it found `m`. -/
def Fails (x : Action α) (m : Machine) (f : Failure) (n : Machine) : Prop :=
  x.run.run m = (.error f, n)

/-- An action has an outcome, a value or a failure, and leaves the machine `n` where it found `m`. -/
def Gives (x : Action α) (m : Machine) (o : Except Failure α) (n : Machine) : Prop :=
  x.run.run m = (o, n)

theorem gives_ok {x : Action α} {a : α} : Gives x m (.ok a) n ↔ Ends x m a n := Iff.rfl

theorem gives_error {x : Action α} {f : Failure} : Gives x m (.error f) n ↔ Fails x m f n := Iff.rfl

theorem Gives.unique {x : Action α} {o o' : Except Failure α} {n n' : Machine} (h : Gives x m o n)
    (h' : Gives x m o' n') : o = o' ∧ n = n' :=
  Prod.mk.inj (h.symm.trans h')

theorem Ends.unique {x : Action α} {a b : α} {n k : Machine} (h : Ends x m a n) (h' : Ends x m b k) :
    a = b ∧ n = k := by
  obtain ⟨same, machine⟩ := Gives.unique (gives_ok.mpr h) (gives_ok.mpr h')
  exact ⟨Except.ok.inj same, machine⟩

theorem exists_gives (x : Action α) (m : Machine) : ∃ o n, Gives x m o n := ⟨_, _, rfl⟩

/-- The machine that an action leaves. -/
def after (x : Action α) (m : Machine) : Machine := (x.run.run m).2

theorem gives_after (x : Action α) (m : Machine) : Gives x m (x.run.run m).1 (after x m) := rfl

theorem ends_after {x : Action α} {a : α} (h : (x.run.run m).1.toOption = some a) :
    Ends x m a (after x m) := by
  cases done : x.run.run m with
  | mk outcome k =>
      cases outcome with
      | ok b =>
          obtain rfl : b = a := by simpa [done, Except.toOption] using h
          rw [Ends, after, done]
      | error f => simp [done, Except.toOption] at h

theorem exists_ends_after {x : Action α} (h : (x.run.run m).1.toOption.isSome = true) :
    ∃ a, Ends x m a (after x m) := by
  obtain ⟨a, given⟩ := Option.isSome_iff_exists.mp h
  exact ⟨a, ends_after given⟩

theorem exists_ends_after_of {x : Action α} {P : α → Prop} [DecidablePred P]
    (h : (x.run.run m).1.toOption.any (fun a => decide (P a)) = true) :
    ∃ a, Ends x m a (after x m) ∧ P a := by
  cases done : x.run.run m with
  | mk outcome k =>
      cases outcome with
      | ok a => exact ⟨a, by rw [Ends, after, done], by simpa [done, Except.toOption] using h⟩
      | error f => simp [done, Except.toOption] at h

theorem fails_after {x : Action α} (h : (x.run.run m).1.toOption.isNone = true) :
    ∃ f, Fails x m f (after x m) := by
  cases done : x.run.run m with
  | mk outcome k =>
      cases outcome with
      | ok b => simp [done, Except.toOption] at h
      | error f => exact ⟨f, by rw [Fails, after, done]⟩

/-- The failure of an action that fails. -/
def failure? : Except Failure α → Option Failure
  | .ok _ => none
  | .error f => some f

theorem exists_fails_after {x : Action α} {P : Failure → Prop} [DecidablePred P]
    (h : (failure? (x.run.run m).1).any (fun f => decide (P f)) = true) :
    ∃ f, Fails x m f (after x m) ∧ P f := by
  cases done : x.run.run m with
  | mk outcome k =>
      cases outcome with
      | ok a => simp [done, failure?] at h
      | error f => exact ⟨f, by rw [Fails, after, done], by simpa [done, failure?] using h⟩

@[simp] theorem ends_pure {a b : α} : Ends (pure a) m b n ↔ b = a ∧ n = m := by
  simp only [Ends, ExceptT.run_pure, StateT.run_pure]
  constructor
  · rintro ⟨⟩
    exact ⟨rfl, rfl⟩
  · rintro ⟨rfl, rfl⟩
    rfl

@[simp] theorem ends_bind {x : Action α} {f : α → Action β} {b : β} :
    Ends (x >>= f) m b n ↔ ∃ a k, Ends x m a k ∧ Ends (f a) k b n := by
  simp only [Ends, ExceptT.run_bind, StateT.run_bind]
  constructor
  · intro h
    cases first : x.run.run m with
    | mk outcome k =>
        rw [first] at h
        cases outcome with
        | ok a => exact ⟨a, k, rfl, h⟩
        | error e => cases h
  · rintro ⟨a, k, first, second⟩
    rw [first]
    exact second

@[simp] theorem ends_get {a : Machine} : Ends get m a n ↔ a = m ∧ n = m := by
  constructor
  · rintro ⟨⟩
    exact ⟨rfl, rfl⟩
  · rintro ⟨rfl, rfl⟩
    rfl

@[simp] theorem ends_set {k : Machine} {u : Unit} : Ends (set k) m u n ↔ n = k := by
  constructor
  · rintro ⟨⟩
    rfl
  · rintro rfl
    rfl

@[simp] theorem ends_modify {f : Machine → Machine} {u : Unit} :
    Ends (modify f) m u n ↔ n = f m := by
  constructor
  · rintro ⟨⟩
    rfl
  · rintro rfl
    rfl

@[simp] theorem not_ends_throw {e : Failure} {a : α} : ¬ Ends (throw e) m a n := by
  rintro ⟨⟩

@[simp] theorem ends_lift {ε : Type} {because : ε → Failure} {x : Except ε α} {a : α} :
    Ends (Machine.lift because x) m a n ↔ x = .ok a ∧ n = m := by
  cases x with
  | ok b => simp [Machine.lift, eq_comm]
  | error e => simp [Machine.lift]

@[simp] theorem not_fails_pure {a : α} {f : Failure} : ¬ Fails (pure a) m f n := by
  rintro ⟨⟩

@[simp] theorem not_fails_get {f : Failure} : ¬ Fails get m f n := by
  rintro ⟨⟩

@[simp] theorem not_fails_set {k : Machine} {f : Failure} : ¬ Fails (set k) m f n := by
  rintro ⟨⟩

@[simp] theorem not_fails_modify {g : Machine → Machine} {f : Failure} :
    ¬ Fails (modify g) m f n := by
  rintro ⟨⟩

@[simp] theorem fails_throw {e f : Failure} :
    Fails (throw e : Action α) m f n ↔ f = e ∧ n = m := by
  constructor
  · rintro ⟨⟩
    exact ⟨rfl, rfl⟩
  · rintro ⟨rfl, rfl⟩
    rfl

@[simp] theorem fails_bind {x : Action α} {f : α → Action β} {e : Failure} :
    Fails (x >>= f) m e n ↔ Fails x m e n ∨ ∃ a k, Ends x m a k ∧ Fails (f a) k e n := by
  simp only [Ends, Fails, ExceptT.run_bind, StateT.run_bind]
  cases first : x.run.run m with
  | mk outcome k =>
      cases outcome with
      | ok a =>
          constructor
          · intro later
            exact .inr ⟨a, k, rfl, later⟩
          · rintro (⟨⟨⟩⟩ | ⟨b, j, ⟨⟩, later⟩)
            exact later
      | error f =>
          constructor
          · rintro ⟨⟩
            exact .inl rfl
          · rintro (⟨⟨⟩⟩ | ⟨b, j, ⟨⟩, later⟩)
            rfl

theorem gives_pure {a : α} {o : Except Failure α} : Gives (pure a) m o n ↔ o = .ok a ∧ n = m := by
  cases o with
  | ok b => simp [gives_ok]
  | error f => simp [gives_error]

theorem gives_throw {e : Failure} {o : Except Failure α} :
    Gives (throw e) m o n ↔ o = .error e ∧ n = m := by
  cases o with
  | ok b => simp [gives_ok]
  | error f => simp [gives_error]

theorem gives_bind {x : Action α} {f : α → Action β} {o : Except Failure β} :
    Gives (x >>= f) m o n ↔
      (∃ e, Fails x m e n ∧ o = .error e) ∨ ∃ a k, Ends x m a k ∧ Gives (f a) k o n := by
  cases o with
  | ok b => simp [gives_ok]
  | error e => simp [gives_error]

theorem Ends.bind {x : Action α} {f : α → Action β} {a : α} {k : Machine} {o : Except Failure β}
    (first : Ends x m a k) (later : Gives (f a) k o n) : Gives (x >>= f) m o n :=
  gives_bind.mpr (.inr ⟨a, k, first, later⟩)

theorem Fails.bind {x : Action α} {e : Failure} (first : Fails x m e n) (f : α → Action β) :
    Gives (x >>= f) m (.error e) n :=
  gives_bind.mpr (.inl ⟨e, first, rfl⟩)

@[simp] theorem fails_lift {ε : Type} {because : ε → Failure} {x : Except ε α} {f : Failure} :
    Fails (Machine.lift because x) m f n ↔ ∃ e, x = .error e ∧ f = because e ∧ n = m := by
  cases x with
  | ok b => simp [Machine.lift]
  | error e => simp [Machine.lift]

@[simp] theorem ends_need {x : Option α} {a : α} :
    Ends (Machine.need x) m a n ↔ x = some a ∧ n = m := by
  cases x with
  | none => simp [Machine.need]
  | some b => simp [Machine.need, eq_comm]

@[simp] theorem fails_need {x : Option α} {f : Failure} :
    Fails (Machine.need x) m f n ↔ x = none ∧ f = .unset ∧ n = m := by
  cases x with
  | none => simp [Machine.need]
  | some b => simp [Machine.need]

section Handlers

variable {x : Action α} {h : Failure → Action α}

theorem run_tryCatch (m : Machine) :
    (tryCatch x h).run.run m = match x.run.run m with
      | (.ok a, k) => (.ok a, k)
      | (.error f, k) => (h f).run.run k := by
  have opened : (tryCatch x h).run.run m = (ExceptT.tryCatch x h).run.run m := rfl
  rw [opened, ExceptT.tryCatch, ExceptT.run_mk, StateT.run_bind]
  cases first : x.run.run m with
  | mk outcome k =>
      have first : StateT.run x m = (outcome, k) := first
      rw [first]
      cases outcome <;> rfl

@[simp] theorem ends_tryCatch {a : α} :
    Ends (tryCatch x h) m a n ↔ Ends x m a n ∨ ∃ f k, Fails x m f k ∧ Ends (h f) k a n := by
  rw [Ends, run_tryCatch, Ends]
  simp only [Fails]
  cases first : x.run.run m with
  | mk outcome k =>
      cases outcome with
      | ok b =>
          constructor
          · exact .inl
          · rintro (ended | ⟨f, j, ⟨⟩, -⟩)
            exact ended
      | error f =>
          constructor
          · intro later
            exact .inr ⟨f, k, rfl, later⟩
          · rintro (⟨⟨⟩⟩ | ⟨f, j, ⟨⟩, later⟩)
            exact later

@[simp] theorem fails_tryCatch {e : Failure} :
    Fails (tryCatch x h) m e n ↔ ∃ f k, Fails x m f k ∧ Fails (h f) k e n := by
  rw [Fails, run_tryCatch]
  simp only [Fails]
  cases first : x.run.run m with
  | mk outcome k =>
      cases outcome with
      | ok b =>
          constructor
          · rintro ⟨⟩
          · rintro ⟨f, j, ⟨⟩, -⟩
      | error f =>
          constructor
          · intro later
            exact ⟨f, k, rfl, later⟩
          · rintro ⟨f, j, ⟨⟩, later⟩
            exact later

theorem gives_tryCatch {o : Except Failure α} : Gives (tryCatch x h) m o n ↔
    (∃ a, Ends x m a n ∧ o = .ok a) ∨ ∃ f k, Fails x m f k ∧ Gives (h f) k o n := by
  cases o with
  | ok a => simp [gives_ok]
  | error f => simp [gives_error]

theorem attempt_eq (x : Action α) :
    Pipeline.attempt x =
      tryCatch (x >>= fun a => pure (.ok a)) fun f => pure (.error f) :=
  rfl

@[simp] theorem ends_attempt {o : Except Failure α} :
    Ends (Pipeline.attempt x) m o n ↔ Gives x m o n := by
  rw [attempt_eq, ends_tryCatch]
  simp only [ends_bind, fails_bind, ends_pure, not_fails_pure, and_false, exists_false, or_false]
  cases o with
  | ok a =>
      rw [gives_ok]
      constructor
      · rintro (⟨b, k, ended, ⟨⟩, rfl⟩ | ⟨f, k, -, ⟨⟩, -⟩)
        exact ended
      · intro ended
        exact .inl ⟨a, n, ended, rfl, rfl⟩
  | error f =>
      rw [gives_error]
      constructor
      · rintro (⟨b, k, -, ⟨⟩, -⟩ | ⟨g, k, failed, ⟨⟩, rfl⟩)
        exact failed
      · intro failed
        exact .inr ⟨f, n, failed, rfl, rfl⟩

@[simp] theorem not_fails_attempt {f : Failure} : ¬ Fails (Pipeline.attempt x) m f n := by
  simp only [attempt_eq, fails_tryCatch, not_fails_pure, and_false, exists_false, not_false_eq_true]

end Handlers

section Keeps

variable {R : Machine → Machine → Prop}

/-- The machines before and after an action are in a relation, however it ends. -/
def Keeps (R : Machine → Machine → Prop) (x : Action α) : Prop := ∀ m o n, Gives x m o n → R m n

theorem Keeps.ends {x : Action α} (h : Keeps R x) {a : α} (ended : Ends x m a n) : R m n :=
  h m (.ok a) n ended

theorem Keeps.fails {x : Action α} (h : Keeps R x) {f : Failure} (failed : Fails x m f n) : R m n :=
  h m (.error f) n failed

theorem Keeps.mono {S : Machine → Machine → Prop} {x : Action α} (h : Keeps R x)
    (weaker : ∀ m n, R m n → S m n) : Keeps S x :=
  fun m o n done => weaker m n (h m o n done)

theorem keeps_iff {x : Action α} :
    Keeps R x ↔ (∀ m a n, Ends x m a n → R m n) ∧ ∀ m f n, Fails x m f n → R m n := by
  constructor
  · intro h
    exact ⟨fun _ _ _ => h.ends, fun _ _ _ => h.fails⟩
  · rintro ⟨ends, fails⟩ m o n done
    cases o with
    | ok a => exact ends m a n done
    | error f => exact fails m f n done

theorem keeps_modify {g : Machine → Machine} (h : ∀ m, R m (g m)) : Keeps R (modify g) := by
  refine keeps_iff.mpr ⟨fun m _ n ended => ?_, fun m _ n failed => ?_⟩
  · obtain rfl := ends_modify.mp ended
    exact h m
  · exact absurd failed not_fails_modify

theorem keeps_attempt {x : Action α} (h : Keeps R x) : Keeps R (Pipeline.attempt x) := by
  refine keeps_iff.mpr ⟨fun m o n ended => ?_, fun m _ n failed => ?_⟩
  · exact h m o n (ends_attempt.mp ended)
  · exact absurd failed not_fails_attempt

variable [IsPreorder Machine R]

theorem keeps_pure (a : α) : Keeps R (pure a) := by
  refine keeps_iff.mpr ⟨fun m _ n ended => ?_, fun m _ n failed => ?_⟩
  · obtain ⟨-, rfl⟩ := ends_pure.mp ended
    exact refl_of R n
  · exact absurd failed not_fails_pure

theorem keeps_get : Keeps R get := by
  refine keeps_iff.mpr ⟨fun m _ n ended => ?_, fun m _ n failed => ?_⟩
  · obtain ⟨-, rfl⟩ := ends_get.mp ended
    exact refl_of R n
  · exact absurd failed not_fails_get

theorem keeps_throw (f : Failure) : Keeps R (throw f : Action α) := by
  refine keeps_iff.mpr ⟨fun m _ n ended => ?_, fun m _ n failed => ?_⟩
  · exact absurd ended not_ends_throw
  · obtain ⟨-, rfl⟩ := fails_throw.mp failed
    exact refl_of R n

theorem keeps_lift {ε : Type} (because : ε → Failure) (x : Except ε α) :
    Keeps R (Machine.lift because x) := by
  cases x with
  | ok a => exact keeps_pure a
  | error e => exact keeps_throw (because e)

theorem keeps_need (x : Option α) : Keeps R (Machine.need x) := by
  cases x with
  | none => exact keeps_throw .unset
  | some a => exact keeps_pure a

theorem keeps_bind {x : Action α} {f : α → Action β} (first : Keeps R x)
    (later : ∀ a, Keeps R (f a)) : Keeps R (x >>= f) := by
  refine keeps_iff.mpr ⟨fun m _ n ended => ?_, fun m _ n failed => ?_⟩
  · obtain ⟨a, k, ended, rest⟩ := ends_bind.mp ended
    exact trans_of R (first.ends ended) ((later a).ends rest)
  · rcases fails_bind.mp failed with failed | ⟨a, k, ended, rest⟩
    · exact first.fails failed
    · exact trans_of R (first.ends ended) ((later a).fails rest)

theorem keeps_tryCatch {x : Action α} {h : Failure → Action α} (first : Keeps R x)
    (later : ∀ f, Keeps R (h f)) : Keeps R (tryCatch x h) := by
  refine keeps_iff.mpr ⟨fun m _ n ended => ?_, fun m _ n failed => ?_⟩
  · rcases ends_tryCatch.mp ended with ended | ⟨f, k, failed, rest⟩
    · exact first.ends ended
    · exact trans_of R (first.fails failed) ((later f).ends rest)
  · obtain ⟨f, k, failed, rest⟩ := fails_tryCatch.mp failed
    exact trans_of R (first.fails failed) ((later f).fails rest)

end Keeps

end Splice.Action
