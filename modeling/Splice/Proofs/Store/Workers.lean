import Mathlib.Logic.Relation
import Splice.Proofs.Jobs
import Splice.Proofs.Store.Changes

/-! # Workers on one store

Any number of workers claim the jobs of one store. A claim is a transaction, which moves the oldest
pending job to processing, and a look at its row after that; new jobs and other workers may come in
between. No job is handed out twice, because whoever holds a job or is about to is the only one, and
no such job is pending.
-/

namespace Splice.Store

/-- A claim between its transaction and its look at the row. -/
structure Claim where
  before : Store
  row : JobRow

/-- A claim that came to its end. -/
structure Ended where
  before : Store
  returned : Option JobRow

/-- What is known of a claim at its end: the job that it returns was pending, and is being processed;
it returns nothing only if nothing was pending. -/
def Ended.Right (e : Ended) : Prop :=
  match e.returned with
  | some r => r .status = some "processing" ∧
      ∃ row ∈ e.before.jobs, row .id = r .id ∧ row .status = some "pending"
  | none => ∀ row ∈ e.before.jobs, row .status ≠ some "pending"

/-- Workers on one store, and how their claims ended. -/
structure Crew (W : Type) where
  store : Store := {}
  claiming : W → Option Claim := fun _ => none
  /-- The jobs that a worker was given. -/
  held : W → List JobRow := fun _ => []
  ended : List Ended := []

namespace Crew

variable {W : Type}

/-- The keys of the jobs that claims returned, in the order of their return. -/
def handedOut (s : Crew W) : List Cell := (s.ended.filterMap Ended.returned).map fun r => r .id

variable [DecidableEq W]

/-- One step of anyone. A claim that fails leaves everything as it is and is no step. -/
inductive Step : Crew W → Crew W → Prop
  | enqueue {s : Crew W} {store : Store} {id now : String} {order : Order}
      (h : s.store.enqueue id now order = .ok store) : Step s { s with store }
  | claim {s : Crew W} {store : Store} {w : W} {row : JobRow} {now : String}
      (idle : s.claiming w = none) (next : s.store.nextPending? = some row)
      (h : s.store.start (row .id) now = .ok store) :
      Step s { s with store, claiming := Function.update s.claiming w (some ⟨s.store, row⟩) }
  | nothing {s : Crew W} {w : W} (idle : s.claiming w = none) (next : s.store.nextPending? = none) :
      Step s { s with ended := s.ended ++ [⟨s.store, none⟩] }
  | look {s : Crew W} {w : W} {c : Claim} (h : s.claiming w = some c) :
      Step s { s with
        claiming := Function.update s.claiming w none
        held := Function.update s.held w (s.held w ++ (s.store.get? (c.row .id)).toList)
        ended := s.ended ++ [⟨c.before, s.store.get? (c.row .id)⟩] }
  | markDone {s : Crew W} {store : Store} {w : W} {r : JobRow} {now : String} {url : Value}
      (own : r ∈ s.held w) (h : s.store.markDone (.text (Job.ofRow r).id) now url = .ok store) :
      Step s { s with store }
  | markError {s : Crew W} {store : Store} {w : W} {r : JobRow} {now : String} {message : Value}
      (own : r ∈ s.held w) (h : s.store.markError (.text (Job.ofRow r).id) now message = .ok store) :
      Step s { s with store }

/-- What steps lead to from an empty store. -/
inductive Reachable : Crew W → Prop
  | start : Reachable {}
  | step {s t : Crew W} (h : Reachable s) (next : Step s t) : Reachable t

omit [DecidableEq W]

/-- What steps keep. A job in a claim is being processed and not handed out yet, and in no other claim;
a job that was handed out is not pending any more. -/
structure Sound (s : Crew W) : Prop where
  keyed : s.store.Keyed
  chosen : ∀ w c, s.claiming w = some c → c.row ∈ c.before.jobs ∧ c.row .status = some "pending"
  claimed : ∀ w c, s.claiming w = some c → ∃ k, c.row .id = some k ∧
    s.store.status? k = some (some "processing") ∧ some k ∉ s.handedOut
  apart : ∀ v w c d, s.claiming v = some c → s.claiming w = some d → c.row .id = d.row .id → v = w
  distinct : s.handedOut.Nodup
  taken : ∀ i ∈ s.handedOut, ∃ k status, i = some k ∧ s.store.status? k = some status ∧
    status ≠ some "pending"
  held : ∀ w, ∀ r ∈ s.held w, r .id ∈ s.handedOut
  right : ∀ e ∈ s.ended, e.Right

namespace Sound

theorem empty : Sound ({} : Crew W) where
  keyed := ⟨by simp, by simp⟩
  chosen := by simp
  claimed := by simp
  apart := by simp
  distinct := by simp [handedOut]
  taken := by simp [handedOut]
  held := by simp
  right := by simp

variable {s : Crew W}

/-- A store may change as long as no job in a claim stops being processed and no job that was handed
out becomes pending. -/
theorem withStore (h : s.Sound) {store : Store} (keyed : store.Keyed)
    (processing : ∀ k, s.store.status? k = some (some "processing") → some k ∉ s.handedOut →
      store.status? k = some (some "processing"))
    (taken : ∀ k status, s.store.status? k = some status → status ≠ some "pending" →
      ∃ later, store.status? k = some later ∧ later ≠ some "pending") :
    Sound { s with store } where
  keyed := keyed
  chosen := h.chosen
  claimed := by
    intro w c hc
    obtain ⟨k, key, status, free⟩ := h.claimed w c hc
    exact ⟨k, key, processing k status free, free⟩
  apart := h.apart
  distinct := h.distinct
  taken := by
    intro i hi
    obtain ⟨k, status, rfl, before, notPending⟩ := h.taken i hi
    obtain ⟨later, after, notPending⟩ := taken k status before notPending
    exact ⟨k, later, rfl, after, notPending⟩
  held := h.held
  right := h.right

theorem enqueue (h : s.Sound) {store : Store} {id now : String} {order : Order}
    (added : s.store.enqueue id now order = .ok store) : Sound { s with store } := by
  have free : s.store.status? id = none := by
    rw [status?, get?_eq_none (enqueue_eq_ok added).1, Option.map_none]
  have others : ∀ k status, s.store.status? k = some status → store.status? k = some status := by
    intro k status before
    rw [enqueue_status? added, if_neg]
    · exact before
    · rintro rfl
      simp [free] at before
  exact h.withStore (enqueue_keyed added h.keyed) (fun k before _ => others k _ before)
    fun k status before notPending => ⟨status, others k status before, notPending⟩

/-- A job that was handed out may move anywhere but back to pending. -/
theorem mark (h : s.Sound) {store : Store} {k status : String} (own : some k ∈ s.handedOut)
    (moved : s.store.Moves k status store) (notPending : some status ≠ some "pending") :
    Sound { s with store } := by
  refine h.withStore (moved.keyed h.keyed) ?_ ?_
  · intro j before free
    rw [moved.status?_eq, if_neg]
    · exact before
    · rintro rfl
      exact free own
  · intro j before known open_status
    rw [moved.status?_eq]
    by_cases same : j = k
    · subst same
      exact ⟨some status, by simp [known], notPending⟩
    · exact ⟨before, by simp [same, known], open_status⟩

theorem nothing (h : s.Sound) (next : s.store.nextPending? = none) :
    Sound { s with ended := s.ended ++ [⟨s.store, none⟩] } := by
  have same : handedOut { s with ended := s.ended ++ [⟨s.store, none⟩] } = s.handedOut := by
    simp [handedOut]
  refine ⟨h.keyed, h.chosen, ?_, h.apart, ?_, ?_, ?_, ?_⟩
  · rw [same]
    exact h.claimed
  · rw [same]
    exact h.distinct
  · rw [same]
    exact h.taken
  · rw [same]
    exact h.held
  · intro e he
    rcases List.mem_append.mp he with he | he
    · exact h.right e he
    · obtain rfl := List.mem_singleton.mp he
      exact nextPending?_eq_none next

variable [DecidableEq W]

/-- A worker may enter a claim of a job that is being processed and that nobody has. -/
theorem enter (h : s.Sound) (w : W) {c : Claim} {k : String}
    (chosen : c.row ∈ c.before.jobs ∧ c.row .status = some "pending") (key : c.row .id = some k)
    (processing : s.store.status? k = some (some "processing")) (free : some k ∉ s.handedOut)
    (alone : ∀ v d, s.claiming v = some d → d.row .id ≠ some k) :
    Sound { s with claiming := Function.update s.claiming w (some c) } where
  keyed := h.keyed
  chosen := by
    intro v d hd
    simp only [Function.update_apply] at hd
    split at hd
    · obtain rfl := Option.some.inj hd
      exact chosen
    · exact h.chosen v d hd
  claimed := by
    intro v d hd
    simp only [Function.update_apply] at hd
    split at hd
    · obtain rfl := Option.some.inj hd
      exact ⟨k, key, processing, free⟩
    · exact h.claimed v d hd
  apart := by
    intro v u d e hd he same
    simp only [Function.update_apply] at hd he
    split at hd
    · obtain rfl := Option.some.inj hd
      split at he
      · exact ‹v = w›.trans ‹u = w›.symm
      · exact absurd (same.symm.trans key) (alone u e he)
    · split at he
      · obtain rfl := Option.some.inj he
        exact absurd (same.trans key) (alone v d hd)
      · exact h.apart v u d e hd he same
  distinct := h.distinct
  taken := h.taken
  held := h.held
  right := h.right

/-- The transaction of a claim takes a job that nobody has. -/
theorem claim (h : s.Sound) {store : Store} (w : W) {row : JobRow} {now : String}
    (next : s.store.nextPending? = some row) (started : s.store.start (row .id) now = .ok store) :
    Sound { s with store, claiming := Function.update s.claiming w (some ⟨s.store, row⟩) } := by
  obtain ⟨mem, pending⟩ := nextPending?_eq_some next
  obtain ⟨k, key⟩ := h.keyed.someKey row mem
  have before : s.store.status? k = some (some "pending") := by
    rw [status?, ← key, h.keyed.get?_of_mem mem, Option.map_some, pending]
  have notPending : ∀ j status, s.store.status? j = some status → status ≠ some "pending" →
      j ≠ k := by
    rintro j status known notPending rfl
    exact notPending (Option.some.inj (known.symm.trans before))
  rw [key] at started
  have moved := start_moves started
  have processing : store.status? k = some (some "processing") := by
    simp [moved.status?_eq, before]
  have others : ∀ j status, s.store.status? j = some status → status ≠ some "pending" →
      store.status? j = some status := by
    intro j status known open_status
    rw [moved.status?_eq, if_neg (notPending j status known open_status)]
    exact known
  have changed := h.withStore (moved.keyed h.keyed) (fun j known _ => others j _ known (by decide))
    fun j status known open_status => ⟨status, others j status known open_status, open_status⟩
  apply changed.enter w ⟨mem, pending⟩ key processing
  · intro hi
    obtain ⟨j, status, same, known, open_status⟩ := h.taken _ hi
    exact notPending j status known open_status (Option.some.inj same).symm
  · intro v d hd same
    obtain ⟨j, own, known, -⟩ := h.claimed v d hd
    exact notPending j _ known (by decide) (Option.some.inj (own.symm.trans same))

/-- The look at the row finds the job, which is still being processed, and hands it out. -/
theorem look (h : s.Sound) {w : W} {c : Claim} (hc : s.claiming w = some c) :
    Sound { s with
      claiming := Function.update s.claiming w none
      held := Function.update s.held w (s.held w ++ (s.store.get? (c.row .id)).toList)
      ended := s.ended ++ [⟨c.before, s.store.get? (c.row .id)⟩] } := by
  obtain ⟨mem, pending⟩ := h.chosen w c hc
  obtain ⟨k, key, processing, free⟩ := h.claimed w c hc
  obtain ⟨r, found, status⟩ := Option.map_eq_some_iff.mp processing
  obtain ⟨-, own⟩ := get?_eq_some found
  rw [key, found]
  have same : handedOut { s with
      claiming := Function.update s.claiming w none
      held := Function.update s.held w (s.held w ++ (some r).toList)
      ended := s.ended ++ [⟨c.before, some r⟩] } = s.handedOut ++ [some k] := by
    simp [handedOut, own]
  have others : ∀ v d, (if v = w then none else s.claiming v) = some d →
      v ≠ w ∧ s.claiming v = some d := by
    intro v d hd
    split at hd
    · contradiction
    · exact ⟨‹¬ v = w›, hd⟩
  refine ⟨h.keyed, ?_, ?_, ?_, ?_, ?_, ?_, ?_⟩
  · intro v d hd
    simp only [Function.update_apply] at hd
    exact h.chosen v d (others v d hd).2
  · intro v d hd
    simp only [Function.update_apply] at hd
    obtain ⟨apart, hd⟩ := others v d hd
    obtain ⟨j, other, status, free⟩ := h.claimed v d hd
    refine ⟨j, other, status, ?_⟩
    rw [same, List.mem_append, List.mem_singleton, not_or]
    refine ⟨free, fun equal => apart (h.apart v w d c hd hc ?_)⟩
    rw [other, key, equal]
  · intro v u d e hd he equal
    simp only [Function.update_apply] at hd he
    exact h.apart v u d e (others v d hd).2 (others u e he).2 equal
  · rw [same, List.nodup_append]
    refine ⟨h.distinct, by simp, ?_⟩
    intro a ha b hb equal
    obtain rfl := List.mem_singleton.mp hb
    exact free (equal ▸ ha)
  · rw [same]
    intro i hi
    rcases List.mem_append.mp hi with hi | hi
    · exact h.taken i hi
    · exact ⟨k, _, List.mem_singleton.mp hi, processing, by decide⟩
  · rw [same]
    intro v q hq
    simp only [Function.update_apply] at hq
    split at hq
    · rcases List.mem_append.mp hq with hq | hq
      · exact List.mem_append_left _ (h.held w q hq)
      · have equal : q = r := by simpa [eq_comm] using hq
        rw [equal, own]
        simp
    · exact List.mem_append_left _ (h.held v q hq)
  · intro e he
    rcases List.mem_append.mp he with he | he
    · exact h.right e he
    · obtain rfl := List.mem_singleton.mp he
      exact ⟨status, c.row, mem, key.trans own.symm, pending⟩

theorem step (h : s.Sound) {t : Crew W} (next : Step s t) : t.Sound := by
  have marked : ∀ w, ∀ r ∈ s.held w, some (Job.ofRow r).id ∈ s.handedOut := by
    intro w r hr
    have mem := h.held w r hr
    obtain ⟨k, _, key, -⟩ := h.taken _ mem
    rw [key] at mem
    simpa [Job.ofRow, key] using mem
  cases next with
  | enqueue added => exact h.enqueue added
  | claim idle next started => exact h.claim _ next started
  | nothing idle next => exact h.nothing next
  | look hc => exact h.look hc
  | markDone own done => exact h.mark (marked _ _ own) (markDone_moves done) (by decide)
  | markError own failed => exact h.mark (marked _ _ own) (markError_moves failed) (by decide)

theorem of_reachable (h : Reachable s) : s.Sound := by
  induction h with
  | start => exact empty
  | step _ next ih => exact ih.step next

end Sound

/-- A worker's whole claim is a transaction and a look, if nothing comes between them. -/
theorem steps_of_claim [DecidableEq W] {s : Crew W} {w : W} (idle : s.claiming w = none)
    {l : Location} {m n : Machine} {r : Option JobRow} (opened : m.stores.lookup l = some s.store)
    (h : Action.Ends (Jobs.claim l) m r n) :
    ∃ t, Relation.ReflTransGen Step s t ∧ n.stores.lookup l = some t.store ∧
      t.ended = s.ended ++ [⟨s.store, r⟩] := by
  obtain ⟨before, after, opened', left, taken⟩ := Jobs.ends_claim h
  obtain rfl := Option.some.inj (opened.symm.trans opened')
  rcases taken with ⟨next, rfl, rfl⟩ | ⟨row, now, next, started, rfl⟩
  · exact ⟨_, .single (.nothing idle next), left, rfl⟩
  · have claimed := Step.claim idle next started
    have looked : Step { s with store := after, claiming := Function.update s.claiming w _ } _ :=
      .look (Function.update_self w (some ⟨s.store, row⟩) s.claiming)
    exact ⟨_, .tail (.single claimed) looked, left, rfl⟩

/-- However workers and new jobs take turns on one store: no job is returned twice; a job that is
claimed was pending when its transaction began, and is being processed when it is returned; and a claim
returns nothing only if nothing was pending then. -/
theorem claims_exclusive [DecidableEq W] {s : Crew W} (h : Reachable s) :
    s.handedOut.Nodup ∧
      (∀ w c, s.claiming w = some c → c.row ∈ c.before.jobs ∧ c.row .status = some "pending") ∧
      ∀ e ∈ s.ended, e.Right :=
  have sound := Sound.of_reachable h
  ⟨sound.distinct, sound.chosen, sound.right⟩

theorem claims_exclusive_pair : ∃ s : Crew Bool, Reachable s ∧ s.handedOut = [some "a"] ∧
    s.handedOut.Nodup := by
  let row := newRow "a" "1" (some "u") (some "h") (some "d") none none
  let moved := row.setAll [(.status, some "processing"), (.updated, some "2")]
  have added : ({} : Store).enqueue "a" "1" ⟨.text "u", .text "h", .text "d", .null, .null⟩ =
      .ok ⟨[row], [], false⟩ := rfl
  have started : Store.start ⟨[row], [], false⟩ (row .id) "2" = .ok ⟨[moved], [], false⟩ := rfl
  have first : Reachable ({ store := ⟨[row], [], false⟩ } : Crew Bool) :=
    .step .start (.enqueue added)
  -- one worker claims the job, another one finds nothing before the first one looks
  have second := first.step (.claim (w := true) rfl rfl started)
  have third := second.step (.nothing (w := false) rfl rfl)
  have fourth := third.step (.look (w := true) rfl)
  exact ⟨_, fourth, rfl, (claims_exclusive fourth).1⟩

end Crew
end Splice.Store
