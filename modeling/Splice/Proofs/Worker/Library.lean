import Mathlib.Data.List.Forall2
import Splice.Proofs.Pipeline.Stored
import Splice.Proofs.Worker.Runs

/-! # The library of a worker

Jobs are added to an empty store, and a worker polls it and processes them in earnest. Between polls the
library has one row for each job that is done, and the file of that row holds what the engine wrote for
the job. Nothing else is stored.
-/

namespace Splice

open Splice.Action Machine

/-- What the next process of the engine writes, if it writes anything. -/
def Machine.output? (m : Machine) : Option String :=
  match m.upcoming with
  | .refused _ => none
  | .overdue output => output
  | .ended _ _ output => output

/-- The content of the file of a key, if there is one below the root. -/
def Storage.held? (s : Storage) (m : Machine) (key : String) : Option String :=
  if isBelow (s.root.locate m.here) (s.placeOf m.here key) then
    m.tree.content? (s.placeOf m.here key)
  else none

namespace Worker

open Store Pipeline

variable {w : Worker} {p : Processor} {job : Job} {m n k j i : Machine} {s t : Store}
  {written : String → Option String} {row after r : JobRow}

/-! ## Runs -/

/-- There are no jobs, no videos and no files in the storage, and the files of the log are there. -/
structure Empty (w : Worker) (m : Machine) : Prop where
  tables : ∃ s, m.stores.lookup w.store = some s ∧ s.jobs = [] ∧ s.videos = []
  idle : m.busy = false
  storage : ∀ l, Storage.isBelow (w.storage.root.locate m.here) l = true → m.tree.content? l = none
  logged : ∀ l ∈ m.outlet.files, (m.tree.content? l).isSome = true
  sound : m.tree.Sound
  plain : ".." ∉ m.here

/-- Between steps everything may change but the tables, the flag of a job in flight, the current
directory, where the log is written, and the files in the storage. -/
structure Around (w : Worker) (m n : Machine) : Prop where
  tables : ∀ s, m.stores.lookup w.store = some s →
    ∃ t, n.stores.lookup w.store = some t ∧ t.jobs = s.jobs ∧ t.videos = s.videos
  busy : n.busy = m.busy
  here : n.here = m.here
  outlet : n.outlet.files = m.outlet.files
  sound : m.tree.Sound → n.tree.Sound
  storage : ∀ l, Storage.isBelow (w.storage.root.locate m.here) l = true →
    n.tree.content? l = m.tree.content? l

/-- A poll whose writes to the tables succeed, with no file at the places of the job's files before. -/
structure Ready (w : Worker) (m : Machine) : Prop where
  claims : ∃ r k, Ends (Jobs.claim w.store) m r k
  writes : ∀ job k o n, Ends w.take m (some job) k → Gives (w.processor job) k o n →
    (∀ f, o = .error f → f ≠ .clock ∧ ∀ fault, f ≠ .store fault) ∧ ∃ i, Ends (w.mark job o) n () i
  free : ∀ job k directory, Ends w.take m (some job) k → w.settings.get .temporary = some directory →
    ∀ p ∈ (JobFiles.of job directory).paths, m.tree.content? (p.locate m.here) = none
  logged : ∀ l ∈ m.outlet.files, (m.tree.content? l).isSome = true

/-- What the engine wrote for each job, after one more poll. -/
def noted (written : String → Option String) (taken : Option Job) (output : Option String) :
    String → Option String :=
  match taken with
  | none => written
  | some job => Function.update written job.id output

/-- What a run from an empty store and storage leads to, and what the engine wrote for each job in the
poll that took it. -/
inductive History (w : Worker) : Machine → (String → Option String) → Prop
  | empty {m : Machine} (empty : Empty w m) : History w m fun _ => none
  | enqueue {m k n : Machine} {written : String → Option String} {order : Order}
      {r : Option JobRow} (before : History w m written)
      (added : Ends (Jobs.enqueue w.store order) m r k) (around : Around w k n) : History w n written
  | poll {m k j n : Machine} {written : String → Option String} {taken : Option Job}
      {o : Except Failure (Option JobRow)} (before : History w m written) (ready : Ready w m)
      (took : Ends w.take m taken j) (polled : Gives (w.poll w.processor) m o k)
      (around : Around w k n) : History w n (noted written taken m.output?)

/-! ## What a poll does to files -/

theorem still_take {o : Option Job} (h : Ends w.take m o k) :
    Still [] m k ∧ k.upcoming = m.upcoming := by
  cases o with
  | none =>
      have books := (Jobs.keeps_claim w.store).ends (ends_take_none h)
      exact ⟨still_of_bookkeeping books, by rw [books]; rfl⟩
  | some job =>
      obtain ⟨row, k₀, k₁, k₂, claimed, -, found, busy, started⟩ := ends_take_some h
      have books := (Jobs.keeps_claim w.store).ends claimed
      have first : Quiet [] k₀ k₁ := (keeps_log _ _ _).ends found
      have last : Quiet [] k₂ k := (keeps_log _ _ _).ends started
      obtain rfl := ends_modify.mp busy
      have set : Quiet [] k₁ { k₁ with busy := true } := quiet_of_tree rfl rfl rfl rfl rfl
      have quiet := (first.trans set).trans last
      exact ⟨(still_of_bookkeeping books).trans quiet.still, quiet.upcoming.trans (by rw [books]; rfl)⟩

theorem poll_marked {o : Except Failure Result} {x : Except Failure (Option JobRow)}
    (idle : m.busy = false) (taken : Ends w.take m (some job) k) (ran : Gives (p job) k o j)
    (marked : Ends (w.mark job o) j () i) (polled : Gives (w.poll p) m x n) :
    Still [] j n ∧ ∃ u later, j.stores.lookup w.store = some u ∧
      n.stores.lookup w.store = some (u.edit job.id fun r => r.setAll (marks o later)) := by
  obtain ⟨-, books, u, later, opened, left⟩ := ends_mark marked
  obtain ⟨t, n', left', ended, quiet, -⟩ := ends_poll idle taken ran marked
  obtain ⟨-, rfl⟩ := Gives.unique polled (gives_ok.mpr ended)
  exact ⟨(still_of_bookkeeping books).trans quiet.still, u, later, opened, quiet.stores ▸ left⟩

/-! ## What holds between steps -/

def isDone (r : JobRow) : Bool := r .status == some "done"

/-- A row of the library is that of a job. -/
structure Lists (r : JobRow) (v : Video) : Prop where
  user : r .user = some v.user
  url : r .outputUrl = some v.url
  path : ∃ id, r .id = some id ∧ v.storagePath = v.user ++ "/output/" ++ id ++ ".mp4"

theorem Lists.storagePath_eq {v : Video} (h : Lists r v) :
    v.storagePath = storageKey (Job.ofRow r) := by
  obtain ⟨id, own, path⟩ := h.path
  simp [path, storageKey, Job.ofRow, own, h.user]

/-- Where the output of a row's job is stored. -/
def shelf (w : Worker) (m : Machine) (r : JobRow) : Location :=
  w.storage.placeOf m.here (storageKey (Job.ofRow r))

/-- The library and the storage have the outputs of the jobs that are done, and nothing else. -/
structure Kept (w : Worker) (m : Machine) (s : Store) (written : String → Option String) : Prop where
  calm : Calm w m s
  named : ∀ r ∈ s.jobs, ∃ id user, r .id = some id ∧ Text.IsId id ∧ r .user = some user
  listed : ∃ rows, rows.Perm (s.jobs.filter isDone) ∧ List.Forall₂ Lists rows s.videos
  held : ∀ r ∈ s.jobs, isDone r = true →
    Storage.isBelow (w.storage.root.locate m.here) (w.shelf m r) = true ∧
      ∃ content, written (Job.ofRow r).id = some content ∧ m.tree.content? (w.shelf m r) = some content
  only : ∀ l, Storage.isBelow (w.storage.root.locate m.here) l = true → m.tree.content? l ≠ none →
    ∃ r ∈ s.jobs, isDone r = true ∧ l = w.shelf m r
  silent : ∀ l ∈ m.outlet.files, Storage.isBelow (w.storage.root.locate m.here) l = false
  sound : m.tree.Sound
  plain : ".." ∉ m.here

namespace Kept

theorem id_isId (h : Kept w m s written) (mem : r ∈ s.jobs) : Text.IsId (Job.ofRow r).id := by
  obtain ⟨id, user, own, plain, -⟩ := h.named r mem
  simpa [Job.ofRow, own] using plain

theorem eq_of_id_eq (h : Kept w m s written) {q : JobRow} (mem : r ∈ s.jobs) (mem' : q ∈ s.jobs)
    (same : (Job.ofRow r).id = (Job.ofRow q).id) : r = q := by
  obtain ⟨id, -, own, -⟩ := h.named r mem
  obtain ⟨id', -, own', -⟩ := h.named q mem'
  refine List.inj_on_of_nodup_map h.calm.keyed.distinct mem mem' ?_
  simpa [Job.ofRow, own, own'] using same

theorem eq_of_shelf_eq (h : Kept w m s written) {q : JobRow} (mem : r ∈ s.jobs) (mem' : q ∈ s.jobs)
    (same : w.shelf m r = w.shelf m q) : r = q :=
  h.eq_of_id_eq mem mem' (id_eq_of_placeOf_eq (h.id_isId mem) (h.id_isId mem') same)

theorem unlogged (h : Kept w m s written) {l : Location}
    (below : Storage.isBelow (w.storage.root.locate m.here) l = true) : l ∉ m.outlet.files := by
  intro log
  rw [h.silent l log] at below
  cases below

theorem of_empty (h : Empty w m) : ∃ s, Kept w m s fun _ => none := by
  obtain ⟨s, opened, jobs, videos⟩ := h.tables
  have calm : Calm w m s := ⟨opened, h.idle, ⟨by simp [jobs], by simp [jobs]⟩, by simp [jobs]⟩
  refine ⟨s, calm, by simp [jobs], ⟨[], by simp [jobs], by simp [videos]⟩, by simp [jobs],
    fun l below held => absurd (h.storage l below) held, fun l log => ?_, h.sound, h.plain⟩
  cases below : Storage.isBelow (w.storage.root.locate m.here) l with
  | false => rfl
  | true => simpa [h.storage l below] using h.logged l log

theorem around (h : Kept w m s written) (apart : Around w m n) : ∃ t, Kept w n t written := by
  obtain ⟨t, opened, jobs, videos⟩ := apart.tables s h.calm.opened
  have shelf : w.shelf n = w.shelf m := by
    funext r
    rw [Worker.shelf, apart.here, Worker.shelf]
  refine ⟨t, ⟨opened, apart.busy.trans h.calm.idle, h.calm.keyed.congr jobs, jobs ▸ h.calm.settled⟩,
    jobs ▸ h.named, jobs ▸ videos ▸ h.listed, ?_, ?_, ?_, apart.sound h.sound, apart.here ▸ h.plain⟩
  · intro r hr done
    obtain ⟨below, content, known, held⟩ := h.held r (jobs ▸ hr) done
    rw [shelf, apart.here]
    exact ⟨below, content, known, (apart.storage _ below).trans held⟩
  · intro l below held
    rw [apart.here] at below
    rw [apart.storage l below] at held
    rw [jobs, shelf]
    exact h.only l below held
  · rw [apart.outlet, apart.here]
    exact h.silent

theorem enqueue {order : Order} {o : Option JobRow} (h : Kept w m s written)
    (added : Ends (Jobs.enqueue w.store order) m o k) : ∃ t, Kept w k t written := by
  have books := (Jobs.keeps_enqueue w.store order).ends added
  obtain ⟨t, row, calm, jobs, pending⟩ := h.calm.enqueues ⟨order, o, k, added, apart_refl w k⟩
  obtain ⟨s', u, number, now, order', opened, left, enqueued⟩ := Jobs.ends_enqueue added
  obtain rfl := Option.some.inj (h.calm.opened.symm.trans opened)
  obtain rfl := Option.some.inj (calm.opened.symm.trans left)
  obtain ⟨-, user, hookUrl, demoUrl, hookText, editConfig, made⟩ := enqueue_eq_ok enqueued
  have videos : t.videos = s.videos := by rw [made]
  have waits : isDone row = false := by simp [isDone, pending]
  have shelf : w.shelf k = w.shelf m := by rw [books]; rfl
  have tree : k.tree = m.tree := by rw [books]
  have here : k.here = m.here := by rw [books]
  refine ⟨t, calm, fun r hr => ?_, ?_, fun r hr done => ?_, fun l below held => ?_, ?_, tree ▸ h.sound,
    here ▸ h.plain⟩
  · rcases mem_of_enqueue enqueued hr with hr | ⟨own, user, named⟩
    · exact h.named r hr
    · exact ⟨_, user, own, identifier_isId number, named⟩
  · have done : t.jobs.filter isDone = s.jobs.filter isDone := by
      rw [jobs, List.filter_append, List.filter_cons_of_neg (by simp [waits]), List.filter_nil,
        List.append_nil]
    rw [done, videos]
    exact h.listed
  · rw [jobs] at hr
    rcases List.mem_append.mp hr with hr | hr
    · rw [shelf, tree, here]
      exact h.held r hr done
    · obtain rfl := List.mem_singleton.mp hr
      simp [waits] at done
  · rw [here] at below
    rw [tree] at held
    obtain ⟨r, hr, done, place⟩ := h.only l below held
    rw [jobs, shelf]
    exact ⟨r, List.mem_append_left _ hr, done, place⟩
  · rw [show k.outlet = m.outlet by rw [books], here]
    exact h.silent

end Kept

/-! ## A job that gets an outcome -/

/-- A pending job gets an outcome: only with success its output is stored and listed. The other jobs,
and all files but that of the job, are as before. -/
structure Settles (w : Worker) (m n : Machine) (s t : Store) (row after : JobRow)
    (output : Option String) : Prop where
  mem : row ∈ s.jobs
  pending : row .status = some "pending"
  key : after .id = row .id
  user : after .user = row .user
  jobs : t.jobs = replaced s.jobs after
  still : Still [w.shelf m row] m n
  outcome : (isDone after = false ∧ t.videos = s.videos ∧ Still [] m n) ∨
    isDone after = true ∧ ∃ v content, t.videos = s.videos ++ [v] ∧ Lists after v ∧
      Storage.isBelow (w.storage.root.locate m.here) (w.shelf m row) = true ∧
      output = some content ∧ n.tree.content? (w.shelf m row) = some content

namespace Settles

variable {output : Option String}

theorem waits (e : Settles w m n s t row after output) : isDone row = false := by
  simp [isDone, e.pending]

theorem after_mem (e : Settles w m n s t row after output) : after ∈ t.jobs :=
  e.jobs ▸ after_mem_replaced e.mem e.key

theorem id_eq (e : Settles w m n s t row after output) :
    (Job.ofRow after).id = (Job.ofRow row).id := by
  simp [Job.ofRow, e.key]

theorem shelf_after (e : Settles w m n s t row after output) : w.shelf m after = w.shelf m row := by
  simp [shelf, Job.ofRow, storageKey, e.key, e.user]

theorem shelf_eq (e : Settles w m n s t row after output) (r : JobRow) :
    w.shelf n r = w.shelf m r := by
  rw [shelf, e.still.here, shelf]

/-- A job that was done before is another one: it stays, and its file is elsewhere. -/
theorem other (e : Settles w m n s t row after output) (h : Kept w m s written) (mem : r ∈ s.jobs)
    (done : isDone r = true) :
    r ∈ t.jobs ∧ w.shelf m r ≠ w.shelf m row ∧ (Job.ofRow r).id ≠ (Job.ofRow row).id := by
  have other : r ≠ row := by
    rintro rfl
    simp [e.waits] at done
  refine ⟨?_, mt (h.eq_of_shelf_eq mem e.mem) other, mt (h.eq_of_id_eq mem e.mem) other⟩
  rw [e.jobs]
  refine List.mem_map.mpr ⟨r, mem, if_neg fun same => other ?_⟩
  exact List.inj_on_of_nodup_map h.calm.keyed.distinct mem e.mem (same.trans e.key)

theorem content_eq (e : Settles w m n s t row after output) (h : Kept w m s written) {l : Location}
    (below : Storage.isBelow (w.storage.root.locate m.here) l = true) (other : l ≠ w.shelf m row) :
    n.tree.content? l = m.tree.content? l :=
  e.still.content l (h.unlogged below) (by simpa using other)

theorem listed (e : Settles w m n s t row after output) (h : Kept w m s written) :
    ∃ rows, rows.Perm (t.jobs.filter isDone) ∧ List.Forall₂ Lists rows t.videos := by
  obtain ⟨rows, perm, lists⟩ := h.listed
  obtain ⟨front, back, before, later⟩ := replaced_split h.calm.keyed e.mem e.key
  have earlier : s.jobs.filter isDone = front.filter isDone ++ back.filter isDone := by
    rw [before, List.filter_append, List.filter_cons_of_neg (by simp [e.waits])]
  rw [earlier] at perm
  obtain ⟨waiting, videos, -⟩ | ⟨done, v, content, videos, listed, -⟩ := e.outcome
  · refine ⟨rows, ?_, videos ▸ lists⟩
    rwa [e.jobs, later, List.filter_append, List.filter_cons_of_neg (by simp [waiting])]
  · refine ⟨rows ++ [after], ?_, videos ▸ List.rel_append lists (.cons listed .nil)⟩
    rw [e.jobs, later, List.filter_append, List.filter_cons_of_pos done]
    exact ((List.perm_append_singleton after rows).trans (perm.cons after)).trans List.perm_middle.symm

theorem held (e : Settles w m n s t row after output) (h : Kept w m s written) (mem : r ∈ t.jobs)
    (done : isDone r = true) :
    Storage.isBelow (w.storage.root.locate m.here) (w.shelf m r) = true ∧
      ∃ content, Function.update written (Job.ofRow row).id output (Job.ofRow r).id = some content ∧
        n.tree.content? (w.shelf m r) = some content := by
  rcases mem_replaced (e.jobs ▸ mem) with rfl | mem
  · obtain ⟨waiting, -⟩ | ⟨-, v, content, -, -, below, wrote, stored⟩ := e.outcome
    · simp [waiting] at done
    · rw [e.shelf_after, e.id_eq, Function.update_self]
      exact ⟨below, content, wrote, stored⟩
  · obtain ⟨-, place, id⟩ := e.other h mem done
    obtain ⟨below, content, known, stored⟩ := h.held r mem done
    exact ⟨below, content, (Function.update_of_ne id ..).trans known,
      (e.content_eq h below place).trans stored⟩

theorem only (e : Settles w m n s t row after output) (h : Kept w m s written) {l : Location}
    (below : Storage.isBelow (w.storage.root.locate m.here) l = true) (held : n.tree.content? l ≠ none) :
    ∃ r ∈ t.jobs, isDone r = true ∧ l = w.shelf m r := by
  -- what was stored before belongs to a job that was done before
  have earlier : m.tree.content? l ≠ none →
      ∃ r ∈ t.jobs, isDone r = true ∧ l = w.shelf m r ∧ l ≠ w.shelf m row := by
    intro held
    obtain ⟨r, mem, done, rfl⟩ := h.only l below held
    obtain ⟨mem, place, -⟩ := e.other h mem done
    exact ⟨r, mem, done, rfl, place⟩
  by_cases target : l = w.shelf m row
  · obtain ⟨-, -, same⟩ | ⟨done, -⟩ := e.outcome
    · rw [same.content l (h.unlogged below) (by simp)] at held
      obtain ⟨-, -, -, -, other⟩ := earlier held
      exact absurd target other
    · exact ⟨after, e.after_mem, done, target.trans e.shelf_after.symm⟩
  · rw [e.content_eq h below target] at held
    obtain ⟨r, mem, done, place, -⟩ := earlier held
    exact ⟨r, mem, done, place⟩

theorem kept (e : Settles w m n s t row after output) (h : Kept w m s written) (calm : Calm w n t) :
    Kept w n t (Function.update written (Job.ofRow row).id output) where
  calm := calm
  named r mem := by
    rcases mem_replaced (e.jobs ▸ mem) with rfl | mem
    · rw [e.key, e.user]
      exact h.named row e.mem
    · exact h.named r mem
  listed := e.listed h
  held r mem done := by
    rw [e.shelf_eq, e.still.here]
    exact e.held h mem done
  only l below held := by
    rw [e.still.here] at below
    obtain ⟨r, mem, done, place⟩ := e.only h below held
    exact ⟨r, mem, done, place.trans (e.shelf_eq r).symm⟩
  silent := by
    rw [e.still.outlet, e.still.here]
    exact h.silent
  sound := e.still.sound h.sound
  plain := e.still.here ▸ h.plain

end Settles

/-! ## What a poll keeps -/

namespace Kept

variable {o : Except Failure Result}

/-- The processing of a poll's job changes nothing, or stores what the engine wrote. -/
theorem processed (h : Kept w m s written)
    (tidy : ∀ directory, w.settings.get .temporary = some directory → directory.Tidy)
    (ready : Ready w m) (mem : row ∈ s.jobs) (taken : Ends w.take m (some (Job.ofRow row)) k)
    (ran : Gives (w.processor (Job.ofRow row)) k o j) :
    (Still [] m j ∧ j.stores = k.stores ∧ ∀ r, o = .ok r → r.success = false) ∨
      (Still [w.shelf m row] m j ∧
        ∃ r, o = .ok r ∧ Stored (Job.ofRow row) w.store w.storage k r j) := by
  obtain ⟨still, -⟩ := still_take taken
  have clear : ∀ directory, w.settings.get .temporary = some directory →
      Clear (Job.ofRow row) directory k := by
    intro directory given
    have free := ready.free _ _ directory taken given
    have unlogged : ∀ p ∈ (JobFiles.of (Job.ofRow row) directory).paths,
        p.locate m.here ∉ m.outlet.files := by
      intro p hp log
      have there := ready.logged _ log
      simp [free p hp] at there
    refine ⟨fun p hp => ?_, fun p hp => ?_⟩
    · rw [still.here, still.content _ (unlogged p hp) (by simp)]
      exact free p hp
    · rw [still.here, still.outlet]
      exact unlogged p hp
  have silent : ∀ l ∈ k.outlet.files, Storage.isBelow (w.storage.root.locate k.here) l = false := by
    rw [still.outlet, still.here]
    exact h.silent
  rcases process_stored tidy clear (h.id_isId mem) (still.sound h.sound) (still.here ▸ h.plain) silent ran
    (ready.writes _ _ _ _ taken ran).1 with ⟨same, stores, without⟩ | ⟨changed, stored⟩
  · exact .inl ⟨still.trans same, stores, without⟩
  · rw [still.here] at changed
    exact .inr ⟨(still.mono (by simp)).trans changed, stored⟩

theorem fair (h : Kept w m s written)
    (tidy : ∀ directory, w.settings.get .temporary = some directory → directory.Tidy)
    (ready : Ready w m) : Fair w w.processor m := by
  refine ⟨ready.claims, fun job k o n taken ran => ⟨fun t opened => ?_, (ready.writes _ _ _ _ taken ran).2⟩⟩
  obtain ⟨-, absurd, -⟩ | ⟨row, key, now, next, own, same, left⟩ :=
    ends_take h.calm.opened h.calm.keyed taken
  · cases absurd
  · obtain rfl := Option.some.inj same
    obtain ⟨-, stores, -⟩ | ⟨-, r, -, stored⟩ :=
      h.processed tidy ready (nextPending?_eq_some next).1 taken ran
    · exact ⟨t, stores ▸ opened, rfl⟩
    · obtain ⟨url, t', id, now, -, -, opened', left⟩ := stored.row
      obtain rfl := Option.some.inj (opened.symm.trans opened')
      exact ⟨_, left, rfl⟩

/-- The job that a poll takes settles. -/
theorem settles {x : Except Failure (Option JobRow)} {u : Store} (h : Kept w m s written)
    (tidy : ∀ directory, w.settings.get .temporary = some directory → directory.Tidy)
    (ready : Ready w m) (oldest : Oldest s.jobs row)
    (taken : Ends w.take m (some (Job.ofRow row)) k)
    (left : k.stores.lookup w.store = some u) (videos : u.videos = s.videos)
    (ran : Gives (w.processor (Job.ofRow row)) k o j) (shown : Shows o row after)
    (polled : Gives (w.poll w.processor) m x n) (opened : n.stores.lookup w.store = some t)
    (jobs : t.jobs = replaced s.jobs after) : Settles w m n s t row after m.output? := by
  obtain ⟨i, marked⟩ := (ready.writes _ _ _ _ taken ran).2
  obtain ⟨last, v, later, before, noted⟩ := poll_marked h.calm.idle taken ran marked polled
  have shelved : t.videos = v.videos := by
    rw [Option.some.inj (opened.symm.trans noted)]
    rfl
  have key := shown.kept .id (by decide)
  have user := shown.kept .user (by decide)
  obtain ⟨still, upcoming⟩ := still_take taken
  rcases h.processed tidy ready oldest.mem taken ran with
    ⟨quiet, stores, without⟩ | ⟨changed, r, rfl, stored⟩
  · have failed : address? o = none := by
      cases o with
      | ok r => simp [address?, without r rfl]
      | error f => rfl
    have same := quiet.trans last
    rw [stores, left] at before
    obtain rfl := Option.some.inj before
    exact ⟨oldest.mem, oldest.pending, key, user, jobs, same.mono (by simp),
      .inl ⟨by simp [isDone, (shown.error failed).1], shelved.trans videos, same⟩⟩
  · obtain ⟨url, t', number, now, rfl, some_text, opened', left'⟩ := stored.row
    obtain rfl := Option.some.inj (left.symm.trans opened')
    rw [Option.some.inj (before.symm.trans left'), videos] at shelved
    obtain ⟨status, address, -⟩ :=
      shown.done url (address?_eq_some.mpr ⟨_, rfl, rfl, rfl, some_text⟩)
    obtain ⟨stderr, content, shape, held⟩ := stored.file
    obtain ⟨id, name, own, -, named⟩ := h.named row oldest.mem
    have below := stored.below
    rw [still.here] at below held
    have wrote : m.output? = some content := by rw [output?, ← upcoming, shape]
    have lists : Lists after ⟨number, (Job.ofRow row).user, url, outputName (Job.ofRow row), "output",
        storageKey (Job.ofRow row), now⟩ := by
      refine ⟨by simp [user, named, Job.ofRow], address, id, key.trans own, ?_⟩
      simp [storageKey, Job.ofRow, named, own]
    have kept := last.content _ (changed.outlet ▸ h.unlogged below) (by simp)
    exact ⟨oldest.mem, oldest.pending, key, user, jobs, changed.trans (last.mono (by simp)),
      .inr ⟨by simp [isDone, status], _, content, shelved, lists, below, wrote, kept.trans held⟩⟩

theorem poll {taken : Option Job} {x : Except Failure (Option JobRow)} (h : Kept w m s written)
    (tidy : ∀ directory, w.settings.get .temporary = some directory → directory.Tidy)
    (ready : Ready w m) (took : Ends w.take m taken k) (polled : Gives (w.poll w.processor) m x n) :
    ∃ t, Kept w n t (noted written taken m.output?) := by
  obtain ⟨y, n', t, ended, calm, result⟩ := h.calm.poll (h.fair tidy ready)
  obtain ⟨-, rfl⟩ := Gives.unique polled (gives_ok.mpr ended)
  obtain ⟨-, rfl, left⟩ | ⟨row, key, now, next, own, rfl, left⟩ :=
    ends_take h.calm.opened h.calm.keyed took
  · obtain ⟨still, -⟩ := still_take took
    obtain ⟨-, rfl⟩ := ended.unique (ends_poll_none h.calm.idle took)
    refine h.around ⟨fun s' opened => ?_, calm.idle.trans h.calm.idle.symm, still.here,
      congrArg Log.Outlet.files still.outlet, still.sound, fun l below => ?_⟩
    · obtain rfl := Option.some.inj (opened.symm.trans h.calm.opened)
      exact ⟨s', left, rfl, rfl⟩
    · exact still.content l (h.unlogged below) (by simp)
  · obtain ⟨mem, pending⟩ := nextPending?_eq_some next
    generalize jobs : t.jobs = rows at result
    cases result with
    | nothing waiting => exact absurd pending (waiting row mem)
    | job oldest took' ran shown =>
        obtain ⟨same, rfl⟩ := took'.unique took
        rw [← same] at took ⊢
        have settled := h.settles tidy ready oldest took left rfl ran shown polled calm.opened jobs
        exact ⟨t, settled.kept h calm⟩

end Kept

theorem kept_of_history
    (tidy : ∀ directory, w.settings.get .temporary = some directory → directory.Tidy)
    (h : History w m written) : ∃ s, Kept w m s written := by
  induction h with
  | empty empty => exact Kept.of_empty empty
  | enqueue _ added around ih =>
      obtain ⟨s, kept⟩ := ih
      obtain ⟨t, kept⟩ := kept.enqueue added
      exact kept.around around
  | poll _ ready took polled around ih =>
      obtain ⟨s, kept⟩ := ih
      obtain ⟨t, kept⟩ := kept.poll tidy ready took polled
      exact kept.around around

def stockOrder : Order := ⟨.text "u", .text "a.mp4", .text "a.mp4", .null, .null⟩

def stockJob : Job := ⟨identifier 1, "u", "a.mp4", "a.mp4", none, none⟩

def stockRun : Nat → Machine
  | 0 =>
    { tree := ⟨[(["a.mp4"], "clip none audio")], []⟩
      stores := [(["jobs.db"], {})]
      runs := [.ended 0 "" (some "rendered")]
      outlet := { threshold := Log.Level.warning.weight } }
  | 1 => Action.after (Jobs.enqueue trial.store stockOrder) (stockRun 0)
  | n + 2 => Action.after (trial.poll trial.processor) (stockRun (n + 1))

theorem around_refl (w : Worker) (m : Machine) : Around w m m :=
  ⟨fun s opened => ⟨s, opened, rfl, rfl⟩, rfl, rfl, rfl, id, fun _ _ => rfl⟩

theorem stock_empty : Empty trial (stockRun 0) where
  tables := ⟨_, rfl, rfl, rfl⟩
  idle := rfl
  storage l below := by
    by_cases clip : l = ["a.mp4"]
    · subst clip
      revert below
      decide
    · simp [stockRun, FileTree.content?, List.lookup_cons, beq_false_of_ne clip]
  logged := by simp [stockRun]
  sound l directory := by
    obtain rfl : l = [] := by simpa [FileTree.isDirectory, stockRun] using directory
    decide
  plain := by decide

theorem stock_temporary : trial.settings.get .temporary = some (.ofText "/tmp/hookcut") := rfl

theorem stock_took : Ends trial.take (stockRun 1) (some stockJob)
    (Action.after trial.take (stockRun 1)) :=
  ends_after (by decide +kernel)

/-- The job is processed and marked; the videos are counted in between. -/
def stockWork : Action (Result × Nat) := do
  let r ← trial.processor stockJob
  let s ← Jobs.storeAt trial.store
  trial.mark stockJob (.ok r)
  return (r, s.videos.length)

theorem stock_worked : ∃ r j s i, r.success = true ∧
    Ends (trial.processor stockJob) (Action.after trial.take (stockRun 1)) r j ∧
    j.stores.lookup trial.store = some s ∧ s.videos.length = 1 ∧
    Ends (trial.mark stockJob (.ok r)) j () i := by
  have worked : Ends stockWork (Action.after trial.take (stockRun 1))
      (⟨true, some "file:///storage/u/output/00000001-0000-4000-8000-000000000001.mp4", none⟩, 1) _ :=
    ends_after (by decide +kernel)
  simp only [stockWork, ends_bind, Jobs.ends_storeAt, ends_pure] at worked
  obtain ⟨r, j, ran, s, _, ⟨opened, rfl⟩, _, i, marked, same, -⟩ := worked
  obtain ⟨rfl, one⟩ := Prod.mk.inj same
  exact ⟨_, _, s, i, rfl, ran, opened, one.symm, marked⟩

theorem stock_ready : Ready trial (stockRun 1) := by
  obtain ⟨r, claimed⟩ := exists_ends_after (x := Jobs.claim trial.store) (m := stockRun 1)
    (by decide +kernel)
  refine ⟨⟨r, _, claimed⟩, fun job k o n taken done => ?_, fun job k directory taken given => ?_,
    by decide +kernel⟩
  · obtain ⟨same, rfl⟩ := taken.unique stock_took
    obtain rfl := Option.some.inj same
    obtain ⟨r, j, s, i, -, ran, -, -, marked⟩ := stock_worked
    obtain ⟨rfl, rfl⟩ := done.unique (gives_ok.mpr ran)
    refine ⟨fun f same => ?_, i, marked⟩
    cases same
  · obtain ⟨same, -⟩ := taken.unique stock_took
    obtain rfl := Option.some.inj same
    obtain rfl := Option.some.inj (stock_temporary.symm.trans given)
    decide +kernel

end Worker
end Splice
