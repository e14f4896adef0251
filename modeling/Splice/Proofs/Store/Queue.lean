import Mathlib.Data.List.Forall2
import Splice.Proofs.Store.Age
import Splice.Proofs.Store.Operations

/-! # The order of jobs and videos

Jobs are claimed, and videos are listed, in the order of what the clock showed when they were added, as
instants and not as texts. A history says what it showed; the tables only have it as text.
-/

namespace Splice

theorem Machine.moment?_inYears {m : Machine} {i : Instant} (h : m.moment? = some i) : i.InYears := by
  unfold moment? at h
  split at h
  · cases h
  · rename_i inside
    obtain rfl := Option.some.inj h
    rw [not_or, Machine.lastMicro] at inside
    rw [Instant.InYears]
    dsimp only
    omega

namespace Jobs

open Splice.Action Store

variable {l : Location} {m n : Machine} {s t : Store} {events : List Event}

/-! ## What was added when -/

/-- The key of a job that was added, with the moment. -/
def Event.enqueued? (e : Event) : Option (Cell × Instant) :=
  match e.operation, e.outcome with
  | .enqueue _, .ok (some row) => e.before.moment?.map fun i => (row .id, i)
  | _, _ => none

/-- The moment at which a video was added. -/
def Event.shelved? (e : Event) : Option Instant :=
  match e.operation, e.outcome with
  | .addVideo .., .ok _ => e.before.moment?
  | _, _ => none

/-- The jobs in the order in which they were added, with the moments. -/
def enqueued (events : List Event) : List (Cell × Instant) := events.filterMap Event.enqueued?

/-- The moments at which videos were added, in their order. -/
def shelved (events : List Event) : List Instant := events.filterMap Event.shelved?

/-- The job of a row is one that was added. -/
structure Added (row : JobRow) (e : Cell × Instant) : Prop where
  id : row .id = e.1
  key : (row .id).isSome
  created : row .created = some e.2.text
  years : e.2.InYears

/-- A video is one that was added at a moment. -/
structure Shelved (v : Video) (i : Instant) : Prop where
  created : v.created = i.text
  years : i.InYears

/-- The rows of the tables are what was added, in order. -/
structure InOrder (s : Store) (events : List Event) : Prop where
  jobs : List.Forall₂ Added s.jobs (enqueued events)
  videos : List.Forall₂ Shelved s.videos (shelved events)

theorem Added.congr {q r : JobRow} {e : Cell × Instant} (h : Added r e) (id : q .id = r .id)
    (created : q .created = r .created) : Added q e :=
  ⟨id.trans h.id, id ▸ h.key, created.trans h.created, h.years⟩

/-- Whether an operation is no update by names. -/
def Operation.Plain (op : Operation) : Prop := ∀ id values, op ≠ .update id values

theorem Operation.Plain.columns {op : Operation} (h : op.Plain) :
    .id ∉ op.columns ∧ .created ∉ op.columns := by
  cases op with
  | update id values => exact absurd rfl (h id values)
  | _ => simp [Operation.columns]

theorem enqueued_append (events : List Event) (e : Event) :
    enqueued (events ++ [e]) = enqueued events ++ e.enqueued?.toList := by
  rw [enqueued, List.filterMap_append, enqueued]
  cases here : e.enqueued? <;> simp [here]

theorem shelved_append (events : List Event) (e : Event) :
    shelved (events ++ [e]) = shelved events ++ e.shelved?.toList := by
  rw [shelved, List.filterMap_append, shelved]
  cases here : e.shelved? <;> simp [here]

/-- An operation that adds nothing is none of what was added. -/
theorem InOrder.append (order : InOrder s events) {e : Event} (jobs : e.enqueued? = none)
    (videos : e.shelved? = none) : InOrder s (events ++ [e]) := by
  refine ⟨?_, ?_⟩
  · rw [enqueued_append, jobs, Option.toList_none, List.append_nil]
    exact order.jobs
  · rw [shelved_append, videos, Option.toList_none, List.append_nil]
    exact order.videos

theorem InOrder.congr (order : InOrder s events) (jobs : t.jobs = s.jobs)
    (videos : t.videos = s.videos) :
    InOrder t events :=
  ⟨jobs ▸ order.jobs, videos ▸ order.videos⟩

/-- A change that leaves keys and times of creation alone adds nothing. -/
theorem InOrder.change {key : Cell} {changes : List (JobColumn × Cell)} (order : InOrder s events)
    (made : s.change key changes = .ok t) (id : ∀ v, (.id, v) ∉ changes)
    (created : ∀ v, (.created, v) ∉ changes) : InOrder t events := by
  obtain ⟨rfl, -⟩ := change_eq_ok.mp made
  refine ⟨List.forall₂_map_left_iff.mpr (order.jobs.imp fun r e added => ?_), order.videos⟩
  split
  · exact added.congr (setAll_other id) (setAll_other created)
  · exact added

/-- An operation that succeeds adds what the history says that it added. -/
theorem Operation.Makes.inOrder {op : Operation} {i : Instant} {key : Cell} (lawful : s.Lawful)
    (h : Makes s i op key t) (plain : op.Plain) (moment : m.moment? = some i)
    (order : InOrder s events) :
    InOrder t (events ++ [⟨op, m, .ok (op.shown t key), n⟩]) := by
  have years := Machine.moment?_inYears moment
  cases h with
  | @job o _ id _ made =>
      obtain ⟨row, own, -, created, -, rfl, after⟩ := lawful.enqueue made
      have given : (Operation.enqueue o).shown { s with jobs := s.jobs ++ [row] } (some id) = some row :=
        after.get?_of_mem (List.mem_append_right _ (List.mem_singleton_self row)) own
      have jobs : Event.enqueued? ⟨.enqueue o, m, .ok (some row), n⟩ = some (row .id, i) := by
        show m.moment?.map (fun i => (row .id, i)) = _
        rw [moment, Option.map_some]
      rw [given]
      refine ⟨?_, ?_⟩
      · rw [enqueued_append, jobs]
        exact List.rel_append order.jobs (.cons ⟨rfl, own ▸ rfl, created, years⟩ .nil)
      · rw [shelved_append]
        exact (List.append_nil (shelved events)).symm ▸ order.videos
  | @change _ _ changes _ addressed made timed only =>
      have quiet : ∀ r, Event.enqueued? ⟨op, m, r, n⟩ = none ∧ Event.shelved? ⟨op, m, r, n⟩ = none := by
        intro r
        cases op with
        | enqueue | addVideo => exact addressed.elim
        | _ => exact ⟨rfl, rfl⟩
      have unset {c : JobColumn} (other : c ≠ .updated) (out : c ∉ op.columns) (v : Cell) :
          (c, v) ∉ changes := by
        intro mem
        rcases only _ mem with same | named
        · exact other (Prod.mk.inj same).1
        · exact out named
      have kept := order.change made (unset (by decide) plain.columns.1)
        (unset (by decide) plain.columns.2)
      exact kept.append (quiet _).1 (quiet _).2
  | @video user url filename storagePath id _ made =>
      obtain ⟨v, -, created, rfl, -⟩ := lawful.addVideo made
      have videos : Event.shelved? ⟨.addVideo user url filename storagePath, m, .ok none, n⟩ =
        some i := moment
      refine ⟨?_, ?_⟩
      · rw [enqueued_append]
        exact (List.append_nil (enqueued events)).symm ▸ order.jobs
      · rw [shelved_append]
        exact List.rel_append order.videos (videos ▸ .cons ⟨created, years⟩ .nil)

/-- The rows of a store are what its history says that was added. -/
theorem History.inOrder (h : History l events m) (plain : ∀ e ∈ events, e.operation.Plain)
    (opened : m.stores.lookup l = some s) : InOrder s events := by
  induction h generalizing s with
  | empty opened' jobs videos =>
      obtain rfl := Option.some.inj (opened.symm.trans opened')
      exact ⟨jobs ▸ .nil, videos ▸ .nil⟩
  | around h before after jobs videos ih =>
      obtain rfl := Option.some.inj (opened.symm.trans after)
      exact (ih plain before).congr jobs videos
  | @perform events m n op o h ran ih =>
      obtain ⟨old, opened', lawful⟩ := h.lawful
      have order := ih (fun e mem => plain e (List.mem_append_left _ mem)) opened'
      cases o with
      | error f =>
          rw [Operation.fails_perform (gives_error.mp ran)] at opened
          obtain rfl := Option.some.inj (opened'.symm.trans opened)
          refine order.append ?_ ?_ <;> cases op <;> rfl
      | ok r =>
          obtain ⟨s', opened₂, ⟨rfl, -, rfl, rfl⟩ | ⟨i, key, t, moment, left, -, made, rfl⟩⟩ :=
            Operation.ends_perform (gives_ok.mp ran)
          · obtain rfl := Option.some.inj (opened'.symm.trans opened)
            exact order.append rfl rfl
          · obtain rfl := Option.some.inj (opened'.symm.trans opened₂)
            obtain rfl := Option.some.inj (left.symm.trans opened)
            exact made.inOrder lawful
              (plain _ (List.mem_append_right _ (List.mem_singleton_self _))) moment order

theorem InOrder.ids (order : InOrder s events) :
    s.jobs.map (· .id) = (enqueued events).map Prod.fst := by
  have same : List.Forall₂ (· = ·) (s.jobs.map (· .id)) ((enqueued events).map Prod.fst) :=
    List.forall₂_map_left_iff.mpr (List.forall₂_map_right_iff.mpr (order.jobs.imp fun _ _ added => added.id))
  rwa [List.forall₂_eq_eq_eq] at same

/-! ## Claims and lists -/

/-- Whether the job of a key is pending. -/
def Waits (s : Store) (key : Cell) : Prop := ∃ r ∈ s.jobs, r .id = key ∧ r .status = some "pending"

/-- What is related to a list around one of its members. -/
theorem forall₂_split {α β : Type} {R : α → β → Prop} {before after : List α} {x : α} {ys : List β}
    (h : List.Forall₂ R (before ++ x :: after) ys) : ∃ before' y after', ys = before' ++ y :: after' ∧
      List.Forall₂ R before before' ∧ R x y ∧ List.Forall₂ R after after' := by
  induction before generalizing ys with
  | nil =>
      obtain _ | ⟨first, rest⟩ := h
      exact ⟨[], _, _, rfl, .nil, first, rest⟩
  | cons b before ih =>
      obtain _ | ⟨first, rest⟩ := h
      obtain ⟨before', y, after', rfl, others, here, rest⟩ := ih rest
      exact ⟨_ :: before', y, after', rfl, .cons first others, here, rest⟩

theorem exists_of_forall₂ {α β : Type} {R : α → β → Prop} {xs : List α} {ys : List β}
    (h : List.Forall₂ R xs ys)
    {y : β} (mem : y ∈ ys) : ∃ x ∈ xs, R x y := by
  induction h with
  | nil => cases mem
  | cons first _ ih =>
      rcases List.mem_cons.mp mem with rfl | mem
      · exact ⟨_, List.mem_cons_self .., first⟩
      · obtain ⟨x, held, related⟩ := ih mem
        exact ⟨x, List.mem_cons_of_mem _ held, related⟩

/-- A job that was added has a key. -/
theorem InOrder.keyed (order : InOrder s events) (lawful : s.Lawful) : s.Keyed := by
  have key (r : JobRow) (mem : r ∈ s.jobs) : (r .id).isSome := by
    obtain ⟨b, a, split⟩ := List.append_of_mem mem
    obtain ⟨_, _, _, -, -, added, -⟩ := forall₂_split (split ▸ order.jobs)
    exact added.key
  refine ⟨fun r mem => Option.isSome_iff_exists.mp (key r mem), List.pairwise_map.mpr ?_⟩
  exact lawful.keys.imp_of_mem fun mem _ apart => apart (key _ mem)

/-- A member that stands before another one, and not after it, does not come second. -/
theorem not_sublist_of_split {α : Type} {before after : List α} {x y : α} (fresh : x ∉ before)
    (once : y ∉ after) :
    ¬ [x, y].Sublist (before ++ x :: after) := by
  intro sub
  obtain ⟨first, rest, parts, inBefore, inAfter⟩ := List.sublist_append_iff.mp sub
  cases first with
  | nil =>
      obtain rfl : rest = [x, y] := parts.symm
      exact once (List.singleton_sublist.mp (List.cons_sublist_cons.mp inAfter))
  | cons z first =>
      obtain rfl : x = z := (List.cons.inj parts).1
      exact fresh (inBefore.subset (List.mem_cons_self ..))

theorem createdAt_eq {row : JobRow} {text : String} (h : row .created = some text) :
    createdAt row = text := by
  rw [createdAt, h, Option.getD_some]

/-- The next pending job is one that was added, none of those that wait was added before it as an
instant, and of those that were added at the same instant it was added first. -/
theorem next_oldest {row : JobRow} (lawful : s.Lawful) (order : InOrder s events)
    (next : s.nextPending? = some row) :
    ∃ before i after, enqueued events = before ++ (row .id, i) :: after ∧
      (∀ e ∈ before, Waits s e.1 → i.micros < e.2.micros) ∧
        ∀ e ∈ after, Waits s e.1 → i.micros ≤ e.2.micros := by
  obtain ⟨b, a, split⟩ := List.append_of_mem (nextPending?_eq_some next).1
  have jobs := order.jobs
  have keys := lawful.keys
  rw [split] at jobs keys
  obtain ⟨before, ⟨key, i⟩, after, logged, earlier, here, later⟩ := forall₂_split jobs
  obtain ⟨rfl, some', created, years⟩ := here
  obtain ⟨-, ⟨-, -⟩, across⟩ :=
    List.pairwise_append.mp keys |>.imp_right (·.imp_left List.pairwise_cons.mp)
  -- a job that was added and waits is the next one, or comes after it
  have compare {q : JobRow} {e : Cell × Instant} (mem : q ∈ s.jobs) (added : Added q e)
    (waits : Waits s e.1) :
      q = row ∨ i.micros < e.2.micros ∨ i.micros = e.2.micros ∧ [row, q].Sublist s.jobs := by
    obtain ⟨q', mem', own, pending⟩ := waits
    obtain ⟨k, key⟩ := Option.isSome_iff_exists.mp added.key
    obtain rfl : q = q' := lawful.eq_of_id mem mem' key (own.trans (added.id.symm.trans key))
    rcases nextPending?_first next q mem pending with same | less | ⟨same, sub⟩
    · exact .inl same
    · rw [createdAt_eq created, createdAt_eq added.created] at less
      exact .inr (.inl ((Instant.text_lt_iff years added.years).mp less))
    · rw [createdAt_eq created, createdAt_eq added.created] at same
      exact .inr (.inr ⟨Instant.eq_of_text_eq years added.years same, sub⟩)
  refine ⟨before, i, after, logged, fun e mem waits => ?_, fun e mem waits => ?_⟩
  · obtain ⟨q, held, added⟩ := exists_of_forall₂ earlier mem
    rcases compare (split ▸ List.mem_append_left _ held) added waits with rfl | less | ⟨-, sub⟩
    · exact absurd rfl (across q held q (List.mem_cons_self ..) some')
    · exact less
    · rw [split] at sub
      refine absurd sub (not_sublist_of_split (fun mem => ?_) fun mem => ?_)
      · exact across row mem row (List.mem_cons_self ..) some' rfl
      · exact across q held q (List.mem_cons_of_mem row mem) added.key rfl
  · obtain ⟨q, held, added⟩ := exists_of_forall₂ later mem
    have mem : _ ∈ s.jobs := split ▸ List.mem_append_right _ (List.mem_cons_of_mem row held)
    rcases compare mem added waits with rfl | less | ⟨same, -⟩
    · have created' := added.created
      rw [created] at created'
      exact Nat.le_of_eq (Instant.eq_of_text_eq years added.years (Option.some.inj created'))
    · exact Nat.le_of_lt less
    · exact Nat.le_of_eq same

/-- The videos of a user are listed in the order of the instants at which they were added. -/
theorem videosOf_inOrder (order : InOrder s events) (user : Cell) :
    ∃ listed : List (Video × Instant), listed.map Prod.fst = s.videosOf user ∧
      listed.Perm ((s.videos.zip (shelved events)).filter fun p => some p.1.user == user) ∧
      listed.Pairwise fun p q => p.2.micros ≤ q.2.micros := by
  obtain ⟨length, related⟩ := List.forall₂_iff_zip.mp order.videos
  let le (p q : Video × Instant) : Bool := decide (p.1.created ≤ q.1.created)
  let own := (s.videos.zip (shelved events)).filter fun p => some p.1.user == user
  have perm : (own.mergeSort le).Perm own := List.mergeSort_perm own le
  refine ⟨own.mergeSort le, ?_, perm, ?_⟩
  · have videos : own.map Prod.fst = s.videos.filter fun v => some v.user == user := by
      conv_rhs => rw [← List.map_fst_zip (Nat.le_of_eq length), List.filter_map]
      rfl
    rw [Store.videosOf, ← videos]
    exact List.map_mergeSort fun _ _ _ _ => rfl
  · have sorted : (own.mergeSort le).Pairwise fun p q => le p q = true := by
      apply List.pairwise_mergeSort
      · intro a b c first second
        simp only [le, decide_eq_true_eq] at first second ⊢
        exact String.le_trans first second
      · intro a b
        simp only [le, Bool.or_eq_true, decide_eq_true_eq]
        exact String.le_total _ _
    refine sorted.imp_of_mem fun {p q} mem mem' before => ?_
    have shelf {p : Video × Instant} (mem : p ∈ own.mergeSort le) : Shelved p.1 p.2 :=
      related (List.mem_of_mem_filter (perm.mem_iff.mp mem))
    simp only [le, decide_eq_true_eq, (shelf mem).created, (shelf mem').created] at before
    exact (Instant.text_le_iff (shelf mem).years (shelf mem').years).mp before

/-- After any run of operations that are no updates by names: where nothing is in the way, a claim has
an outcome. It finds nothing only if no job is pending; else it gives a pending job, and of the pending
ones the one for which the clock showed the earliest instant, the first that was added among equal ones.
The list of a user's videos has all of them, in the order of the instants that the clock showed for
them. -/
theorem run_inOrder (run : History l events m) (plain : ∀ e ∈ events, e.operation.Plain)
    (opened : m.stores.lookup l = some s) :
    (s.blocked = false → m.moment? ≠ none → ∃ r n, Ends (claim l) m r n) ∧
    (∀ n, Ends (claim l) m none n → ∀ q ∈ s.jobs, q .status ≠ some "pending") ∧
    (∀ row n, Ends (claim l) m (some row) n → Waits s (row .id) ∧
      ∃ before i after, enqueued events = before ++ (row .id, i) :: after ∧
        (∀ e ∈ before, Waits s e.1 → i.micros < e.2.micros) ∧
        ∀ e ∈ after, Waits s e.1 → i.micros ≤ e.2.micros) ∧
    s.jobs.map (· .id) = (enqueued events).map Prod.fst ∧
    s.videos.length = (shelved events).length ∧
    ∀ user vs n, Ends (videosOf l user) m vs n → ∃ key, cell 1 user = .ok key ∧
      ∃ listed : List (Video × Instant), listed.map Prod.fst = vs ∧
        listed.Perm ((s.videos.zip (shelved events)).filter fun p => some p.1.user == key) ∧
        listed.Pairwise fun p q => p.2.micros ≤ q.2.micros := by
  have order := run.inOrder plain opened
  obtain ⟨s', opened', lawful⟩ := run.lawful
  obtain rfl := Option.some.inj (opened.symm.trans opened')
  have keyed := order.keyed lawful
  refine ⟨fun free shows => ?_, fun n ended => ?_, fun row n ended => ?_, order.ids,
    order.videos.length_eq, ?_⟩
  · obtain ⟨i, moment⟩ := Option.ne_none_iff_exists'.mp shows
    cases next : s.nextPending? with
    | none => exact ⟨none, m, ends_claim_iff.mpr ⟨s, opened, .inl ⟨next, rfl, rfl⟩⟩⟩
    | some row =>
        obtain ⟨k, own⟩ := keyed.someKey row (nextPending?_eq_some next).1
        exact ⟨_, exists_ends_claim opened lawful next own free moment⟩
  · rcases ends_claim_keyed opened keyed ended with ⟨next, -, -⟩ | ⟨_, _, _, _, _, given, _⟩
    · exact nextPending?_eq_none next
    · cases given
  · rcases ends_claim_keyed opened keyed ended with ⟨-, given, -⟩ | ⟨chosen, _, _, next, _, given, _⟩
    · cases given
    · obtain rfl := Option.some.inj given
      obtain ⟨mem, waits⟩ := nextPending?_eq_some next
      have oldest := next_oldest lawful order next
      exact ⟨⟨chosen, mem, rfl, waits⟩, oldest⟩
  · intro user vs n ended
    simp only [Jobs.videosOf, ends_bind, ends_storeAt, ends_lift, ends_pure] at ended
    obtain ⟨s', _, ⟨opened', rfl⟩, key, _, ⟨stored, rfl⟩, rfl, rfl⟩ := ended
    obtain rfl := Option.some.inj (opened.symm.trans opened')
    exact ⟨key, stored, videosOf_inOrder order key⟩

/-! ## A clock that goes back -/

/-- A store that a job was added to at five seconds and a microsecond. -/
def addedOnce : Machine := after (newJob.perform ["jobs.db"]) { emptyStore with clock := 5000001 }

/-- The store with another job, for which the clock went back to five seconds. -/
def addedTwice : Machine := after (newJob.perform ["jobs.db"]) { addedOnce with clock := 5000000 }

theorem run_inOrder_back : ∃ events s row n, History ["jobs.db"] events addedTwice ∧
    addedTwice.stores.lookup ["jobs.db"] = some s ∧ Ends (claim ["jobs.db"]) addedTwice (some row) n ∧
    row .id = some (Machine.identifier 2) ∧
    ∃ before i after, enqueued events = before ++ (row .id, i) :: after ∧
      ∀ e ∈ before, Waits s e.1 → i.micros < e.2.micros := by
  have first : History ["jobs.db"]
    [.of ["jobs.db"] newJob { emptyStore with clock := 5000001 }] addedOnce :=
    .perform (.empty rfl rfl rfl) (gives_after _ _)
  obtain ⟨t, once, -⟩ := first.lawful
  have back : History ["jobs.db"] _ { addedOnce with clock := 5000000 } :=
    .around first once once rfl rfl
  have run : History ["jobs.db"] [.of ["jobs.db"] newJob { emptyStore with clock := 5000001 },
      .of ["jobs.db"] newJob { addedOnce with clock := 5000000 }] addedTwice :=
    .perform back (gives_after (newJob.perform ["jobs.db"]) _)
  have plain : ∀ e ∈ [Event.of ["jobs.db"] newJob { emptyStore with clock := 5000001 },
      .of ["jobs.db"] newJob { addedOnce with clock := 5000000 }], e.operation.Plain := by
    intro e mem id values
    rcases List.mem_pair.mp mem with rfl | rfl <;> exact nofun
  obtain ⟨s, twice, -⟩ := run.lawful
  have known : Ends (claim ["jobs.db"] >>= fun r => pure (r.bind (· .id))) addedTwice
      (some (Machine.identifier 2)) _ := ends_after (by decide +kernel)
  obtain ⟨r, k, claimed, given⟩ := ends_bind.mp known
  obtain ⟨same, -⟩ := ends_pure.mp given
  cases r with
  | none => cases same
  | some row =>
      obtain ⟨-, before, i, after, log, earlier, -⟩ := (run_inOrder run plain twice).2.2.1 row k claimed
      exact ⟨_, s, row, k, run, twice, claimed, same.symm, before, i, after, log, earlier⟩

end Jobs
end Splice
