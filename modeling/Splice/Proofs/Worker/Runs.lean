import Mathlib.Logic.Relation
import Splice.Proofs.Worker.Poll

/-! # Runs of a worker

Jobs are added to an empty store, and a worker polls it. Between polls every job waits or has an
outcome, and an outcome is never changed again; each poll gives an outcome to the oldest job that waits.
The ways in which jobs are processed are arbitrary, as long as they leave the jobs alone.
-/

namespace Splice

namespace Store

variable {jobs : List JobRow} {row after r : JobRow} {s t : Store}

/-- A job that is not pending, and that nobody processes any more. -/
def isFinished (r : JobRow) : Bool := r .status == some "done" || r .status == some "error"

/-- A job as it is between polls. -/
inductive Settled (r : JobRow) : Prop
  | pending (status : r .status = some "pending") (url : r .outputUrl = none)
      (message : r .errorMessage = none)
  | done {text : String} (status : r .status = some "done") (url : r .outputUrl = some text)
      (some_text : text ≠ "") (message : r .errorMessage = none)
  | error {text : String} (status : r .status = some "error") (message : r .errorMessage = some text)
      (some_text : text ≠ "") (url : r .outputUrl = none)

theorem Settled.pending_iff (h : Settled r) : r .status = some "pending" ↔ isFinished r = false := by
  cases h with
  | pending status => simp [isFinished, status]
  | done status => simp [isFinished, status]
  | error status => simp [isFinished, status]

/-- Of all pending jobs the one that was created first. -/
structure Oldest (jobs : List JobRow) (row : JobRow) : Prop where
  mem : row ∈ jobs
  pending : row .status = some "pending"
  first : ∀ q ∈ jobs, q .status = some "pending" → q = row ∨ Before jobs row q

theorem oldest_of_nextPending? (h : s.nextPending? = some row) : Oldest s.jobs row :=
  ⟨(nextPending?_eq_some h).1, (nextPending?_eq_some h).2, nextPending?_first h⟩

/-- The jobs with another row in place of the one with its key. -/
def replaced (jobs : List JobRow) (after : JobRow) : List JobRow :=
  jobs.map fun r => if r .id = after .id then after else r

theorem replaced_split (keyed : s.Keyed) (mem : row ∈ s.jobs) (key : after .id = row .id) :
    ∃ front back, s.jobs = front ++ row :: back ∧ replaced s.jobs after = front ++ after :: back := by
  obtain ⟨front, back, split⟩ := List.append_of_mem mem
  have distinct := keyed.distinct
  rw [split, List.map_append, List.map_cons, List.nodup_middle, List.nodup_cons,
    ← List.map_append] at distinct
  have others : ∀ r ∈ front ++ back, r .id ≠ after .id := fun r hr same =>
    distinct.1 (List.mem_map.mpr ⟨r, hr, same.trans key⟩)
  have kept : ∀ rows : List JobRow, (∀ r ∈ rows, r .id ≠ after .id) → replaced rows after = rows := by
    intro rows apart
    rw [replaced, List.map_congr_left fun r hr => if_neg (apart r hr), List.map_id']
  refine ⟨front, back, split, ?_⟩
  rw [← kept front fun r hr => others r (List.mem_append_left _ hr),
    ← kept back fun r hr => others r (List.mem_append_right _ hr), split]
  simp [replaced, key]

theorem edit_eq_replaced (keyed : s.Keyed) (mem : row ∈ s.jobs) {k : String} (key : row .id = some k)
    {f : JobRow → JobRow} (kept : f row .id = row .id) :
    (s.edit k f).jobs = replaced s.jobs (f row) := by
  apply List.map_congr_left
  intro r hr
  rw [kept, ← key]
  by_cases own : r .id = row .id
  · rw [if_pos own, if_pos own, List.inj_on_of_nodup_map keyed.distinct hr mem own]
  · rw [if_neg own, if_neg own]

theorem Before.map {f : JobRow → JobRow} (same : ∀ r, r ∈ jobs → createdAt (f r) = createdAt r)
    {a b : JobRow} (ha : a ∈ jobs) (hb : b ∈ jobs) (h : Before jobs a b) :
    Before (jobs.map f) (f a) (f b) := by
  unfold Before
  rw [same a ha, same b hb]
  exact h.imp_right fun ⟨equal, both⟩ => ⟨equal, both.map f⟩

theorem Keyed.congr (h : s.Keyed) (same : t.jobs = s.jobs) : t.Keyed :=
  ⟨same ▸ h.someKey, same ▸ h.distinct⟩

theorem mem_replaced (h : r ∈ replaced jobs after) : r = after ∨ r ∈ jobs := by
  obtain ⟨q, hq, rfl⟩ := List.mem_map.mp h
  by_cases own : q .id = after .id
  · exact .inl (if_pos own)
  · exact .inr (by rwa [if_neg own])

theorem after_mem_replaced (mem : row ∈ jobs) (key : after .id = row .id) :
    after ∈ replaced jobs after :=
  List.mem_map.mpr ⟨row, mem, if_pos key.symm⟩

theorem Keyed.of_replaced (h : s.Keyed) (same : t.jobs = replaced s.jobs after) : t.Keyed := by
  have keys : (t.jobs.map fun r => r .id) = s.jobs.map fun r => r .id := by
    rw [same, replaced, List.map_map]
    apply List.map_congr_left
    intro r hr
    by_cases own : r .id = after .id <;> simp [own]
  refine ⟨fun r hr => ?_, keys ▸ h.distinct⟩
  have key : r .id ∈ t.jobs.map fun r => r .id := List.mem_map_of_mem hr
  rw [keys] at key
  obtain ⟨q, hq, key⟩ := List.mem_map.mp key
  rw [← key]
  exact h.someKey q hq

end Store

/-- The jobs at a place are the same before and after. -/
def Jobs.Stay (l : Location) (m n : Machine) : Prop :=
  ∀ s, m.stores.lookup l = some s → ∃ t, n.stores.lookup l = some t ∧ t.jobs = s.jobs

namespace Worker

open Splice.Action Store

/-- How an outcome shows on the row of its job; the columns of its order stay. -/
structure Shows (o : Except Failure Pipeline.Result) (row after : JobRow) : Prop where
  done : ∀ url, address? o = some url → after .status = some "done" ∧ after .outputUrl = some url ∧
    after .errorMessage = row .errorMessage
  error : address? o = none → after .status = some "error" ∧ after .outputUrl = row .outputUrl ∧
    ∃ text, after .errorMessage = some text ∧ text ≠ "" ∧ ∀ told, complaint? o = some told → text = told
  kept : ∀ c, c ∉ [JobColumn.status, .outputUrl, .errorMessage, .updated] → after c = row c

/-- What a poll makes of the jobs, and the row that it gives. -/
inductive Polled (w : Worker) (p : Processor) (m : Machine) (jobs : List JobRow) :
    Option JobRow → List JobRow → Prop
  | nothing (waiting : ∀ r ∈ jobs, r .status ≠ some "pending") : Polled w p m jobs none jobs
  | job {row after : JobRow} {o : Except Failure Pipeline.Result} {k n : Machine}
      (oldest : Oldest jobs row) (taken : Ends w.take m (some (Job.ofRow row)) k)
      (ran : Gives (p (Job.ofRow row)) k o n) (shown : Shows o row after) :
      Polled w p m jobs (some after) (replaced jobs after)

/-- A poll whose writes succeed, and during which nobody else changes the jobs. -/
structure Fair (w : Worker) (p : Processor) (m : Machine) : Prop where
  claims : ∃ r k, Ends (Jobs.claim w.store) m r k
  marks : ∀ job k o n, Ends w.take m (some job) k → Gives (p job) k o n →
    Jobs.Stay w.store k n ∧ ∃ i, Ends (w.mark job o) n () i

/-- Around the worker everything may change but the jobs and the flag of a job in flight. -/
def Apart (w : Worker) (m n : Machine) : Prop := Jobs.Stay w.store m n ∧ n.busy = m.busy

def Enqueues (w : Worker) (m n : Machine) : Prop :=
  ∃ order r k, Ends (Jobs.enqueue w.store order) m r k ∧ Apart w k n

def Polls (w : Worker) (p : Processor) (m n : Machine) : Prop :=
  Fair w p m ∧ ∃ o k, Gives (w.poll p) m o k ∧ Apart w k n

/-- A job is added, or the worker polls. -/
def Step (w : Worker) (p : Processor) (m n : Machine) : Prop := Enqueues w m n ∨ Polls w p m n

/-- There are no jobs yet, and none is in flight. -/
def Fresh (w : Worker) (m : Machine) : Prop :=
  (∃ s, m.stores.lookup w.store = some s ∧ s.jobs = []) ∧ m.busy = false

/-- What steps lead to from an empty store. -/
def Reachable (w : Worker) (p : Processor) (m : Machine) : Prop :=
  ∃ start, Fresh w start ∧ Relation.ReflTransGen (Step w p) start m

/-- What holds between steps. -/
structure Calm (w : Worker) (m : Machine) (s : Store) : Prop where
  opened : m.stores.lookup w.store = some s
  idle : m.busy = false
  keyed : s.Keyed
  settled : ∀ r ∈ s.jobs, Settled r

variable {w : Worker} {p : Processor} {m n : Machine} {s t : Store} {jobs : List JobRow}

theorem ends_take {o : Option Job} {k : Machine} (opened : m.stores.lookup w.store = some s)
    (keyed : s.Keyed) (h : Ends w.take m o k) :
    (s.nextPending? = none ∧ o = none ∧ k.stores.lookup w.store = some s) ∨
      ∃ row key now, s.nextPending? = some row ∧ row .id = some key ∧ o = some (Job.ofRow row) ∧
        k.stores.lookup w.store = some (s.edit key fun r =>
          r.setAll [(.status, some "processing"), (.updated, some now)]) := by
  cases o with
  | none =>
      obtain ⟨next, -, left⟩ | ⟨_, _, _, -, -, absurd, -⟩ :=
        Jobs.ends_claim_keyed opened keyed (ends_take_none h)
      · exact .inl ⟨next, rfl, left⟩
      · simp at absurd
  | some job =>
      obtain ⟨claimed, k₀, k₁, k₂, ended, rfl, found, busy, started⟩ := ends_take_some h
      obtain ⟨-, absurd, -⟩ | ⟨row, key, now, next, own, same, left⟩ :=
        Jobs.ends_claim_keyed opened keyed ended
      · simp at absurd
      · obtain rfl := Option.some.inj same
        have first : k₁.stores = k₀.stores := ((@Machine.keeps_log [] _ _ _).ends found).stores
        have last : k.stores = k₂.stores := ((@Machine.keeps_log [] _ _ _).ends started).stores
        obtain rfl := ends_modify.mp busy
        exact .inr ⟨row, key, now, next, own, rfl, by rwa [last, first]⟩

theorem exists_ends_take {r : Option JobRow} {k : Machine} (h : Ends (Jobs.claim w.store) m r k) :
    ∃ o n, Ends w.take m o n := by
  simp only [take, ends_bind]
  cases r with
  | none => exact ⟨none, k, none, k, h, ends_pure.mpr ⟨rfl, rfl⟩⟩
  | some row =>
      obtain ⟨k₁, found, -⟩ := @Machine.exists_ends_log [] (source 38) .info
        ("\n📦 Found job: " ++ (Job.ofRow row).id) k
      obtain ⟨n, started, -⟩ := @Machine.exists_ends_log [] (source 41) .info
        ("⚙️  Processing job " ++ (Job.ofRow row).id ++ "...") { k₁ with busy := true }
      refine ⟨some (Job.ofRow row), n, some row, k, h, ?_⟩
      simp only [ends_bind, ends_pure]
      exact ⟨(), k₁, found, (), _, ends_modify.mpr rfl, (), n, started, trivial, rfl⟩

/-- A row that was moved to processing and then marked shows the outcome. -/
theorem shows_marks (o : Except Failure Pipeline.Result) (row : JobRow) (now later : String) :
    Shows o row ((row.setAll [(.status, some "processing"), (.updated, some now)]).setAll
      (marks o later)) := by
  unfold marks
  cases told : address? o with
  | some url =>
      refine ⟨fun other same => ?_, fun same => ?_, fun c other => ?_⟩
      · obtain rfl := Option.some.inj (told.symm.trans same)
        exact ⟨rfl, rfl, rfl⟩
      · simp [told] at same
      · cases c <;> first | rfl | simp at other
  | none =>
      refine ⟨fun other same => ?_, fun _ => ⟨rfl, rfl, message o, rfl, message_ne_empty o,
        fun _ => message_of_complaint⟩, fun c other => ?_⟩
      · simp [told] at same
      · cases c <;> first | rfl | simp at other

theorem Shows.settled {o : Except Failure Pipeline.Result} {row after : JobRow}
    (h : Shows o row after) (settled : Settled row) (pending : row .status = some "pending") :
    Settled after ∧ isFinished after = true := by
  have empty : row .outputUrl = none ∧ row .errorMessage = none := by
    cases settled with
    | pending status url message => exact ⟨url, message⟩
    | done status => simp [status] at pending
    | error status => simp [status] at pending
  cases told : address? o with
  | some url =>
      obtain ⟨status, address, message⟩ := h.done url told
      obtain ⟨r, -, -, -, some_text⟩ := address?_eq_some.mp told
      exact ⟨.done status address some_text (message.trans empty.2), by simp [isFinished, status]⟩
  | none =>
      obtain ⟨status, address, text, noted, some_text, -⟩ := h.error told
      exact ⟨.error status noted some_text (address.trans empty.1), by simp [isFinished, status]⟩

/-- The jobs after a claim and a mark that nobody else's changes come between. -/
theorem jobs_marked {u : Store} {row : JobRow} {key now : String} (keyed : s.Keyed)
    (mem : row ∈ s.jobs) (own : row .id = some key) (o : Except Failure Pipeline.Result)
    (later : String) (same : u.jobs = (s.edit key fun r =>
      r.setAll [(.status, some "processing"), (.updated, some now)]).jobs) :
    ∃ after, Shows o row after ∧ after .id = row .id ∧
      (u.edit key fun r => r.setAll (marks o later)).jobs = replaced s.jobs after := by
  let final (r : JobRow) : JobRow :=
    (r.setAll [(.status, some "processing"), (.updated, some now)]).setAll (marks o later)
  have kept : ∀ r, final r .id = r .id := fun r => (shows_marks o r now later).kept .id (by decide)
  have once : (u.edit key fun r => r.setAll (marks o later)).jobs = (s.edit key final).jobs := by
    rw [edit_jobs_congr key _ same, edit_edit]
    exact fun r => rfl
  exact ⟨final row, shows_marks o row now later, kept row,
    once.trans (edit_eq_replaced keyed mem own (kept row))⟩

/-- A fair poll of a calm worker gives an outcome to the oldest pending job, if there is one. -/
theorem Calm.poll (h : Calm w m s) (fair : Fair w p m) :
    ∃ r n t, Ends (w.poll p) m r n ∧ Calm w n t ∧ Polled w p m s.jobs r t.jobs := by
  obtain ⟨r, k₀, claimed⟩ := fair.claims
  obtain ⟨o, k, taken⟩ := exists_ends_take claimed
  obtain ⟨next, rfl, left⟩ | ⟨row, key, now, next, own, rfl, left⟩ := ends_take h.opened h.keyed taken
  · have same : k.busy = m.busy := by
      rw [(Jobs.keeps_claim w.store).ends (ends_take_none taken)]
    exact ⟨none, k, s, ends_poll_none h.idle taken, ⟨left, same.trans h.idle, h.keyed, h.settled⟩,
      .nothing (nextPending?_eq_none next)⟩
  · obtain ⟨o, j, ran⟩ := exists_gives (p (Job.ofRow row)) k
    obtain ⟨stay, i, marked⟩ := fair.marks _ _ _ _ taken ran
    obtain ⟨u, opened, jobs⟩ := stay _ left
    obtain ⟨-, -, u', later, opened', noted⟩ := ends_mark marked
    obtain rfl := Option.some.inj (opened.symm.trans opened')
    obtain ⟨t, n, noted', ended, quiet, idle⟩ := ends_poll h.idle taken ran marked
    obtain rfl := Option.some.inj (noted.symm.trans noted')
    have named : (Job.ofRow row).id = key := by simp [Job.ofRow, own]
    obtain ⟨mem, pending⟩ := nextPending?_eq_some next
    obtain ⟨after, shown, key_after, jobs⟩ := jobs_marked h.keyed mem own o later jobs
    rw [named] at noted ended
    have keyed := h.keyed.of_replaced jobs
    have found := keyed.get?_of_mem (jobs ▸ after_mem_replaced mem key_after)
    rw [key_after, own] at found
    refine ⟨_, n, _, found ▸ ended, ⟨quiet.stores ▸ noted, idle, keyed, fun r hr => ?_⟩, ?_⟩
    · rcases mem_replaced (jobs ▸ hr) with rfl | hr
      · exact (shown.settled (h.settled row mem) pending).1
      · exact h.settled r hr
    · rw [jobs]
      exact .job (oldest_of_nextPending? next) taken ran shown

/-! ## Runs -/

theorem Calm.of_apart (h : Calm w m s) (apart : Apart w m n) :
    ∃ t, Calm w n t ∧ t.jobs = s.jobs := by
  obtain ⟨t, opened, jobs⟩ := apart.1 s h.opened
  exact ⟨t, ⟨opened, apart.2.trans h.idle, h.keyed.congr jobs, jobs ▸ h.settled⟩, jobs⟩

theorem Calm.enqueues (h : Calm w m s) (added : Enqueues w m n) :
    ∃ t row, Calm w n t ∧ t.jobs = s.jobs ++ [row] ∧ row .status = some "pending" := by
  obtain ⟨order, r, k, ended, apart⟩ := added
  obtain ⟨s', u, i, now, order', opened, left, enqueued⟩ := Jobs.ends_enqueue ended
  obtain rfl := Option.some.inj (h.opened.symm.trans opened)
  obtain ⟨-, user, hookUrl, demoUrl, hookText, editConfig, made⟩ := enqueue_eq_ok enqueued
  have busy : k.busy = m.busy := by rw [(Jobs.keeps_enqueue w.store order).ends ended]
  have settled : ∀ r ∈ u.jobs, Settled r := by
    intro r hr
    rw [made] at hr
    rcases List.mem_append.mp hr with hr | hr
    · exact h.settled r hr
    · obtain rfl := List.mem_singleton.mp hr
      exact .pending rfl rfl rfl
  have calm : Calm w k u := ⟨left, busy.trans h.idle, enqueue_keyed enqueued h.keyed, settled⟩
  obtain ⟨t, calm, jobs⟩ := calm.of_apart apart
  exact ⟨t, _, calm, by rw [jobs, made], rfl⟩

theorem Calm.polls (h : Calm w m s) (polled : Polls w p m n) :
    ∃ r t, Calm w n t ∧ Polled w p m s.jobs r t.jobs := by
  obtain ⟨fair, o, k, gave, apart⟩ := polled
  obtain ⟨r, k', u, ended, calm, result⟩ := h.poll fair
  obtain ⟨-, rfl⟩ := Gives.unique gave (gives_ok.mpr ended)
  obtain ⟨t, calm, jobs⟩ := calm.of_apart apart
  exact ⟨r, t, calm, jobs ▸ result⟩

theorem Calm.of_fresh (h : Fresh w m) : ∃ s, Calm w m s ∧ s.jobs = [] := by
  obtain ⟨⟨s, opened, jobs⟩, idle⟩ := h
  exact ⟨s, ⟨opened, idle, ⟨by simp [jobs], by simp [jobs]⟩, by simp [jobs]⟩, jobs⟩

/-- The row of a poll is its own job's, and no other one has an outcome yet to lose. -/
theorem Polled.mem_of_isFinished {r : Option JobRow} {q : JobRow} (h : Polled w p m s.jobs r jobs)
    (keyed : s.Keyed) (mem : q ∈ s.jobs) (finished : isFinished q = true) : q ∈ jobs := by
  cases h with
  | nothing => exact mem
  | job oldest taken ran shown =>
      refine List.mem_map.mpr ⟨q, mem, if_neg fun same => ?_⟩
      have key := same.trans (shown.kept .id (by decide))
      obtain rfl := List.inj_on_of_nodup_map keyed.distinct mem oldest.mem key
      simp [isFinished, oldest.pending] at finished

/-- A step keeps the worker calm, and leaves jobs with an outcome as they are. -/
theorem Calm.step (h : Calm w m s) (next : Step w p m n) :
    ∃ t, Calm w n t ∧ ∀ r ∈ s.jobs, isFinished r = true → r ∈ t.jobs := by
  rcases next with added | polled
  · obtain ⟨t, row, calm, jobs, -⟩ := h.enqueues added
    exact ⟨t, calm, fun r hr _ => jobs ▸ List.mem_append_left _ hr⟩
  · obtain ⟨returned, t, calm, result⟩ := h.polls polled
    exact ⟨t, calm, fun r => result.mem_of_isFinished h.keyed⟩

theorem Calm.run (h : Calm w m s) (steps : Relation.ReflTransGen (Step w p) m n) :
    ∃ t, Calm w n t ∧ ∀ r ∈ s.jobs, isFinished r = true → r ∈ t.jobs := by
  induction steps with
  | refl => exact ⟨s, h, fun r hr _ => hr⟩
  | tail _ next ih =>
      obtain ⟨t, calm, kept⟩ := ih
      obtain ⟨u, calm, later⟩ := calm.step next
      exact ⟨u, calm, fun r hr finished => later r (kept r hr finished) finished⟩

/-- Jobs with an outcome are older than those that wait. -/
def InOrder (jobs : List JobRow) : Prop :=
  ∀ a ∈ jobs, ∀ b ∈ jobs, isFinished a = true → isFinished b = false → Before jobs a b

/-- A poll finishes one more job, as long as there is one, and the oldest ones first. -/
theorem Polled.finishes {r : Option JobRow} (h : Polled w p m s.jobs r jobs) (calm : Calm w m s)
    (order : InOrder s.jobs) : jobs.length = s.jobs.length ∧
      jobs.countP isFinished = min (s.jobs.countP isFinished + 1) s.jobs.length ∧ InOrder jobs := by
  cases h with
  | nothing waiting =>
      have all : s.jobs.countP isFinished = s.jobs.length := by
        rw [List.countP_eq_length]
        intro r hr
        have open_ := mt (calm.settled r hr).pending_iff.mpr (waiting r hr)
        simpa using open_
      exact ⟨rfl, by omega, order⟩
  | @job row after o k j oldest taken ran shown =>
      have key := shown.kept .id (by decide)
      have settled := calm.settled row oldest.mem
      have unfinished := settled.pending_iff.mp oldest.pending
      have finished := (shown.settled settled oldest.pending).2
      refine ⟨List.length_map .., ?_, ?_⟩
      · obtain ⟨front, back, before, later⟩ := replaced_split calm.keyed oldest.mem key
        rw [later, before]
        simp only [List.countP_append, List.countP_cons, List.length_append, List.length_cons, finished,
          unfinished]
        have := List.countP_le_length (p := isFinished) (l := front)
        have := List.countP_le_length (p := isFinished) (l := back)
        simp
        omega
      · have created : ∀ r ∈ s.jobs,
            createdAt (if r .id = after .id then after else r) = createdAt r := by
          intro r hr
          split
          · obtain rfl := List.inj_on_of_nodup_map calm.keyed.distinct hr oldest.mem (by simp_all)
            rw [createdAt, createdAt, shown.kept .created (by decide)]
          · rfl
        intro _ inA _ inB done waits
        obtain ⟨a, ha, rfl⟩ := List.mem_map.mp inA
        obtain ⟨b, hb, rfl⟩ := List.mem_map.mp inB
        refine Before.map created ha hb ?_
        -- what waits is not the job of this poll
        by_cases other : b .id = after .id
        · simp [other, finished] at waits
        · rw [if_neg other] at waits
          by_cases own : a .id = after .id
          · obtain rfl := List.inj_on_of_nodup_map calm.keyed.distinct ha oldest.mem (own.trans key)
            refine (oldest.first b hb ((calm.settled b hb).pending_iff.mpr waits)).resolve_left ?_
            rintro rfl
            exact other own
          · rw [if_neg own] at done
            exact order a ha b hb done waits

/-- After some jobs were added to an empty store, they all wait. -/
theorem jobs_of_enqueues {run : Nat → Machine} (fresh : Fresh w (run 0)) {n : Nat}
    (added : ∀ i < n, Enqueues w (run i) (run (i + 1))) :
    ∃ s, Calm w (run n) s ∧ s.jobs.length = n ∧ ∀ r ∈ s.jobs, isFinished r = false := by
  induction n with
  | zero =>
      obtain ⟨s, calm, none⟩ := Calm.of_fresh fresh
      exact ⟨s, calm, by simp [none], by simp [none]⟩
  | succ n ih =>
      obtain ⟨s, calm, length, waiting⟩ := ih fun i hi => added i (by omega)
      obtain ⟨t, row, calm, jobs, pending⟩ := calm.enqueues (added n (by omega))
      refine ⟨t, calm, by simp [jobs, length], fun r hr => ?_⟩
      rw [jobs] at hr
      rcases List.mem_append.mp hr with hr | hr
      · exact waiting r hr
      · obtain rfl := List.mem_singleton.mp hr
        simp [isFinished, pending]

theorem jobs_of_polls {run : Nat → Machine} {n k : Nat} (calm : Calm w (run n) s)
    (waiting : ∀ r ∈ s.jobs, isFinished r = false)
    (polled : ∀ i < k, Polls w p (run (n + i)) (run (n + i + 1))) :
    ∃ t, Calm w (run (n + k)) t ∧ t.jobs.length = s.jobs.length ∧
      t.jobs.countP isFinished = min k s.jobs.length ∧ InOrder t.jobs := by
  induction k with
  | zero =>
      refine ⟨s, calm, rfl, ?_, fun a ha b _ done => ?_⟩
      · simpa using waiting
      · simp [waiting a ha] at done
  | succ k ih =>
      obtain ⟨t, calm, length, count, order⟩ := ih fun i hi => polled i (by omega)
      obtain ⟨r, u, calm', result⟩ := calm.polls (polled k (by omega))
      obtain ⟨same, more, order⟩ := result.finishes calm order
      exact ⟨u, calm', same.trans length, by omega, order⟩

/-- Jobs are added to an empty store and a worker polls, in any order.

A poll while a job is in flight does nothing. At every point between steps no job is being processed,
and none is in flight; a fair poll ends, gives an outcome to the oldest pending job and leaves all
others as they are; and a job with an outcome stays as it is, whatever comes. Some jobs and then some
polls finish as many of the oldest jobs as there were polls, or all of them. -/
theorem polls_settle (w : Worker) (p : Processor) :
    (∀ m, m.busy = true → Ends (w.poll p) m none m) ∧
    (∀ m, Reachable w p m → m.busy = false ∧ ∃ s, m.stores.lookup w.store = some s ∧
      (∀ r ∈ s.jobs, Settled r) ∧
      (Fair w p m → ∃ r n t, Ends (w.poll p) m r n ∧ n.busy = false ∧
        n.stores.lookup w.store = some t ∧ Polled w p m s.jobs r t.jobs) ∧
      ∀ n, Relation.ReflTransGen (Step w p) m n → ∃ t, n.stores.lookup w.store = some t ∧
        ∀ r ∈ s.jobs, isFinished r = true → t.get? (r .id) = some r) ∧
    ∀ (run : Nat → Machine) (n k : Nat), Fresh w (run 0) →
      (∀ i < n, Enqueues w (run i) (run (i + 1))) →
      (∀ i < k, Polls w p (run (n + i)) (run (n + i + 1))) →
      ∃ s, (run (n + k)).stores.lookup w.store = some s ∧ s.jobs.length = n ∧
        s.jobs.countP isFinished = min k n ∧ InOrder s.jobs := by
  refine ⟨fun m => ends_poll_busy p, fun m reached => ?_, fun run n k fresh added polled => ?_⟩
  · obtain ⟨start, fresh, steps⟩ := reached
    obtain ⟨s₀, calm, -⟩ := Calm.of_fresh fresh
    obtain ⟨s, calm, -⟩ := calm.run steps
    refine ⟨calm.idle, s, calm.opened, calm.settled, fun fair => ?_, fun n later => ?_⟩
    · obtain ⟨r, n, t, ended, calm, result⟩ := calm.poll fair
      exact ⟨r, n, t, ended, calm.idle, calm.opened, result⟩
    · obtain ⟨t, calm, kept⟩ := calm.run later
      exact ⟨t, calm.opened, fun r hr finished => calm.keyed.get?_of_mem (kept r hr finished)⟩
  · obtain ⟨s, calm, length, waiting⟩ := jobs_of_enqueues fresh added
    obtain ⟨t, calm, same, count, order⟩ := jobs_of_polls calm waiting polled
    rw [length] at same count
    exact ⟨t, calm.opened, same, count, order⟩

/-! ## A run of two jobs and one poll -/

def trial : Worker :=
  ⟨Settings.default ⟨none, "ffmpeg", fun _ => false⟩, ["jobs.db"], .of ⟨.none, ["storage"]⟩ none⟩

def trialOrder : Order := ⟨.text "u", .text "a.mp4", .text "b.mp4", .null, .null⟩

def trialProcessor : Processor := fun _ => pure ⟨true, some "out", none⟩

def trialRun : Nat → Machine
  | 0 => { stores := [(["jobs.db"], {})] }
  | 1 => after (Jobs.enqueue trial.store trialOrder) (trialRun 0)
  | 2 => after (Jobs.enqueue trial.store trialOrder) (trialRun 1)
  | n + 3 => after (trial.poll trialProcessor) (trialRun (n + 2))

theorem apart_refl (w : Worker) (m : Machine) : Apart w m m :=
  ⟨fun s opened => ⟨s, opened, rfl⟩, rfl⟩

theorem trial_fair : Fair trial trialProcessor (trialRun 2) := by
  have claimed := exists_ends_after (x := Jobs.claim trial.store) (m := trialRun 2) (by decide +kernel)
  refine ⟨claimed.imp fun _ h => ⟨_, h⟩, fun job k o n taken ran => ?_⟩
  have known : Ends trial.take (trialRun 2)
      (some ⟨Machine.identifier 1, "u", "a.mp4", "b.mp4", none, none⟩) _ :=
    ends_after (by decide +kernel)
  obtain ⟨same, left⟩ := taken.unique known
  have given : Gives (trialProcessor job) k (.ok ⟨true, some "out", none⟩) k :=
    gives_ok.mpr (ends_pure.mpr ⟨rfl, rfl⟩)
  obtain ⟨outcome, kept⟩ := ran.unique given
  rw [kept, outcome, Option.some.inj same, left]
  exact ⟨fun s opened => ⟨s, opened, rfl⟩, _, ends_after (by decide +kernel)⟩

theorem polls_settle_trial : ∃ s, (trialRun 3).stores.lookup trial.store = some s ∧
    s.jobs.length = 2 ∧ s.jobs.countP isFinished = 1 ∧ InOrder s.jobs := by
  have enqueues : ∀ i < 2, Enqueues trial (trialRun i) (trialRun (i + 1)) := by
    intro i hi
    have ⟨_, ended⟩ : ∃ r, Ends (Jobs.enqueue trial.store trialOrder) (trialRun i) r
        (trialRun (i + 1)) := by
      match i with
      | 0 => exact exists_ends_after (by decide +kernel)
      | 1 => exact exists_ends_after (by decide +kernel)
    exact ⟨trialOrder, _, _, ended, apart_refl trial _⟩
  have polls : ∀ i < 1, Polls trial trialProcessor (trialRun (2 + i)) (trialRun (2 + i + 1)) := by
    intro i hi
    obtain rfl : i = 0 := by omega
    exact ⟨trial_fair, _, _, rfl, apart_refl trial _⟩
  exact (polls_settle trial trialProcessor).2.2 trialRun 2 1 ⟨⟨_, rfl, rfl⟩, rfl⟩ enqueues polls

end Worker
end Splice
