import Splice.Proofs.Action

/-! # Actions that tell what they do

The machine does not remember in which order the steps of an action were done. An action that tells
gives, besides its outcome, the events on its way, in their order; what was told before a failure stays
told. `silent` is the action without its events. It goes through the operations of the monad, so that an
action that tells does what another action does if the two are written alike.
-/

namespace Splice

open Splice.Action

/-- An action that tells of events. -/
structure Told (ε α : Type) where
  run : Machine → (Except Failure α × Machine) × List ε

namespace Told

variable {ε α β : Type}

/-- The events of a first action come before those of what follows it. -/
def next (f : α → Told ε β) :
    (Except Failure α × Machine) × List ε → (Except Failure β × Machine) × List ε
  | ((.ok a, k), told) => (((f a).run k).1, told ++ ((f a).run k).2)
  | ((.error e, k), told) => ((.error e, k), told)

instance : Monad (Told ε) where
  pure a := ⟨fun m => ((.ok a, m), [])⟩
  bind x f := ⟨fun m => next f (x.run m)⟩

/-- An action that tells nothing. -/
def call (x : Action α) : Told ε α := ⟨fun m => (x.run.run m, [])⟩

def tell (e : ε) : Told ε Unit := ⟨fun m => ((.ok (), m), [e])⟩

def attempt (x : Told ε α) : Told ε (Except Failure α) :=
  ⟨fun m => ((.ok (x.run m).1.1, (x.run m).1.2), (x.run m).2)⟩

/-- An action whose failure is handled without telling of it. -/
def handle (x : Told ε α) (h : Failure → Action α) : Told ε α :=
  ⟨fun m =>
    match (x.run m).1 with
    | (.ok a, k) => ((.ok a, k), (x.run m).2)
    | (.error f, k) => ((h f).run.run k, (x.run m).2)⟩

def both (a b : Told ε Unit) : Told ε Unit := do
  let first ← attempt a
  let second ← attempt b
  match first, second with
  | .error f, _ => call (throw f)
  | _, .error f => call (throw f)
  | _, _ => return ()

/-! ## What is told -/

/-- An action has an outcome, leaves a machine, and tells of events on its way. -/
def Tells (x : Told ε α) (m : Machine) (o : Except Failure α) (n : Machine) (told : List ε) : Prop :=
  x.run m = ((o, n), told)

section Tells

variable {m n : Machine} {o : Except Failure α} {told : List ε}

theorem exists_tells (x : Told ε α) (m : Machine) : ∃ o n told, Tells x m o n told := ⟨_, _, _, rfl⟩

theorem tells_pure {a : α} : Tells (pure a : Told ε α) m o n told ↔ o = .ok a ∧ n = m ∧ told = [] := by
  constructor
  · rintro ⟨⟩
    exact ⟨rfl, rfl, rfl⟩
  · rintro ⟨rfl, rfl, rfl⟩
    rfl

theorem tells_call {x : Action α} : Tells (call x) m o n told ↔ Gives x m o n ∧ told = [] := by
  simp only [Tells, call, Gives, Prod.mk.injEq, eq_comm (a := told)]

theorem tells_tell {e : ε} {o : Except Failure Unit} :
    Tells (tell e) m o n told ↔ o = .ok () ∧ n = m ∧ told = [e] := by
  constructor
  · rintro ⟨⟩
    exact ⟨rfl, rfl, rfl⟩
  · rintro ⟨rfl, rfl, rfl⟩
    rfl

theorem tells_bind {x : Told ε α} {f : α → Told ε β} {o : Except Failure β} :
    Tells (x >>= f) m o n told ↔ (∃ e, Tells x m (.error e) n told ∧ o = .error e) ∨
      ∃ a k first more, Tells x m (.ok a) k first ∧ Tells (f a) k o n more ∧ told = first ++ more := by
  have opened : (x >>= f).run m = next f (x.run m) := rfl
  simp only [Tells, opened]
  cases done : x.run m with
  | mk ending first =>
      obtain ⟨outcome, k⟩ := ending
      cases outcome with
      | ok a =>
          constructor
          · intro later
            have outcome := congrArg Prod.fst later
            exact .inr ⟨a, k, first, ((f a).run k).2, rfl, Prod.ext outcome rfl,
              (congrArg Prod.snd later).symm⟩
          · rintro (⟨e, ⟨⟩, -⟩ | ⟨b, j, first', more, ⟨⟩, later, rfl⟩)
            rw [next, later]
      | error e =>
          constructor
          · rintro ⟨⟩
            exact .inl ⟨e, rfl, rfl⟩
          · rintro (⟨e', ⟨⟩, rfl⟩ | ⟨b, j, first', more, ⟨⟩, -⟩)
            rfl

theorem tells_call_bind {x : Action α} {f : α → Told ε β} {o : Except Failure β} :
    Tells (call x >>= f) m o n told ↔ (∃ e, Fails x m e n ∧ o = .error e ∧ told = []) ∨
      ∃ a k, Ends x m a k ∧ Tells (f a) k o n told := by
  simp only [tells_bind, tells_call]
  constructor
  · rintro (⟨e, ⟨failed, rfl⟩, rfl⟩ | ⟨a, k, first, more, ⟨ended, rfl⟩, later, rfl⟩)
    · exact .inl ⟨e, failed, rfl, rfl⟩
    · exact .inr ⟨a, k, ended, later⟩
  · rintro (⟨e, failed, rfl, rfl⟩ | ⟨a, k, ended, later⟩)
    · exact .inl ⟨e, ⟨failed, rfl⟩, rfl⟩
    · exact .inr ⟨a, k, [], told, ⟨ended, rfl⟩, later, rfl⟩

theorem tells_tell_bind {e : ε} {f : Unit → Told ε β} {o : Except Failure β} :
    Tells (tell e >>= f) m o n told ↔ ∃ more, Tells (f ()) m o n more ∧ told = e :: more := by
  simp only [tells_bind, tells_tell]
  constructor
  · rintro (⟨e', ⟨absurd, -⟩, -⟩ | ⟨a, k, first, more, ⟨-, rfl, rfl⟩, later, rfl⟩)
    · cases absurd
    · exact ⟨more, later, rfl⟩
  · rintro ⟨more, later, rfl⟩
    exact .inr ⟨(), m, [e], more, ⟨trivial, rfl, rfl⟩, later, rfl⟩

theorem tells_throw {e : Failure} :
    Tells (call (throw e)) m o n told ↔ o = .error e ∧ n = m ∧ told = [] := by
  rw [tells_call, gives_throw, and_assoc]

theorem tells_attempt {x : Told ε α} {o : Except Failure (Except Failure α)} :
    Tells (attempt x) m o n told ↔ ∃ r, Tells x m r n told ∧ o = .ok r := by
  constructor
  · rintro ⟨⟩
    exact ⟨_, rfl, rfl⟩
  · rintro ⟨r, done, rfl⟩
    rw [Tells] at done
    simp only [Tells, attempt, done]

theorem tells_handle {x : Told ε α} {h : Failure → Action α} : Tells (handle x h) m o n told ↔
    (∃ a, Tells x m (.ok a) n told ∧ o = .ok a) ∨
      ∃ f k, Tells x m (.error f) k told ∧ Gives (h f) k o n := by
  simp only [Tells, handle, Gives]
  cases done : x.run m with
  | mk ending first =>
      obtain ⟨outcome, k⟩ := ending
      cases outcome with
      | ok a =>
          constructor
          · rintro ⟨⟩
            exact .inl ⟨a, rfl, rfl⟩
          · rintro (⟨b, ⟨⟩, rfl⟩ | ⟨f, j, ⟨⟩, -⟩)
            rfl
      | error f =>
          constructor
          · intro handled
            have outcome := congrArg Prod.fst handled
            obtain rfl : first = told := congrArg Prod.snd handled
            exact .inr ⟨f, k, rfl, outcome⟩
          · rintro (⟨b, ⟨⟩, -⟩ | ⟨g, j, ⟨⟩, handled⟩)
            exact Prod.ext handled rfl

theorem tells_attempt_bind {x : Told ε α} {f : Except Failure α → Told ε β} {o : Except Failure β} :
    Tells (attempt x >>= f) m o n told ↔
      ∃ r k first more, Tells x m r k first ∧ Tells (f r) k o n more ∧ told = first ++ more := by
  simp only [tells_bind, tells_attempt]
  constructor
  · rintro (⟨e, ⟨r, -, absurd⟩, -⟩ | ⟨r, k, first, more, ⟨_, tried, ⟨⟩⟩, later, rfl⟩)
    · cases absurd
    · exact ⟨r, k, first, more, tried, later, rfl⟩
  · rintro ⟨r, k, first, more, tried, later, rfl⟩
    exact .inr ⟨r, k, first, more, ⟨r, tried, rfl⟩, later, rfl⟩

/-- The second of two actions is done whatever becomes of the first. -/
theorem tells_both {a b : Told ε Unit} {o : Except Failure Unit} (h : Tells (both a b) m o n told) :
    ∃ first second k before later, Tells a m first k before ∧ Tells b k second n later ∧
      told = before ++ later ∧ o = first.bind fun _ => second := by
  obtain ⟨first, k, before, _, done, rest, rfl⟩ := tells_attempt_bind.mp h
  obtain ⟨second, j, later, last, done', ends, rfl⟩ := tells_attempt_bind.mp rest
  cases first with
  | error f =>
      obtain ⟨rfl, rfl, rfl⟩ := tells_throw.mp ends
      exact ⟨_, second, k, before, later, done, done', by simp, rfl⟩
  | ok u =>
      cases second with
      | error f =>
          obtain ⟨rfl, rfl, rfl⟩ := tells_throw.mp ends
          exact ⟨_, _, k, before, later, done, done', by simp, rfl⟩
      | ok v =>
          obtain ⟨rfl, rfl, rfl⟩ := tells_pure.mp ends
          exact ⟨_, _, k, before, later, done, done', by simp, rfl⟩

end Tells

/-! ## What is done -/

/-- An action without its events. -/
def silent (x : Told ε α) : Action α := ExceptT.mk fun m => (x.run m).1

theorem gives_silent {x : Told ε α} {m n : Machine} {o : Except Failure α} :
    Gives (silent x) m o n ↔ ∃ told, Tells x m o n told := by
  constructor
  · intro done
    exact ⟨(x.run m).2, Prod.ext done rfl⟩
  · rintro ⟨told, done⟩
    exact congrArg Prod.fst done

/-- Actions with the same outcomes are the same. -/
theorem eq_of_gives {x y : Action α} (h : ∀ m o n, Gives x m o n → Gives y m o n) : x = y := by
  funext m
  exact (h m _ _ rfl).symm

@[simp] theorem silent_pure (a : α) : silent (pure a : Told ε α) = pure a := rfl

@[simp] theorem silent_call (x : Action α) : silent (call x : Told ε α) = x := rfl

@[simp] theorem silent_tell (e : ε) : silent (tell e) = pure () := rfl

@[simp] theorem silent_bind (x : Told ε α) (f : α → Told ε β) :
    silent (x >>= f) = silent x >>= fun a => silent (f a) := by
  refine eq_of_gives fun m o n done => ?_
  obtain ⟨told, done⟩ := gives_silent.mp done
  rcases tells_bind.mp done with ⟨e, failed, rfl⟩ | ⟨a, k, first, more, ended, later, -⟩
  · exact (gives_error.mp (gives_silent.mpr ⟨told, failed⟩)).bind _
  · exact (gives_ok.mp (gives_silent.mpr ⟨first, ended⟩)).bind (gives_silent.mpr ⟨more, later⟩)

@[simp] theorem silent_attempt (x : Told ε α) : silent (attempt x) = Pipeline.attempt (silent x) := by
  refine eq_of_gives fun m o n done => ?_
  obtain ⟨told, done⟩ := gives_silent.mp done
  obtain ⟨r, tried, rfl⟩ := tells_attempt.mp done
  exact ends_attempt.mpr (gives_silent.mpr ⟨told, tried⟩)

@[simp] theorem silent_handle (x : Told ε α) (h : Failure → Action α) :
    silent (handle x h) = tryCatch (silent x) h := by
  refine eq_of_gives fun m o n done => gives_tryCatch.mpr ?_
  obtain ⟨told, done⟩ := gives_silent.mp done
  rcases tells_handle.mp done with ⟨a, ended, rfl⟩ | ⟨f, k, failed, handled⟩
  · exact .inl ⟨a, gives_silent.mpr ⟨told, ended⟩, rfl⟩
  · exact .inr ⟨f, k, gives_silent.mpr ⟨told, failed⟩, handled⟩

@[simp] theorem silent_both (a b : Told ε Unit) :
    silent (both a b) = Pipeline.both (silent a) (silent b) := by
  simp only [both, Pipeline.both, silent_bind, silent_attempt]
  refine bind_congr fun first => bind_congr fun second => ?_
  cases first <;> cases second <;> rfl

end Told
end Splice
