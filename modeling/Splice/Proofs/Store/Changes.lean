import Mathlib.Data.List.Nodup
import Splice.Proofs.Outcome
import Splice.Store.Basic

/-! # What operations do to jobs

Jobs are known by their keys. An operation adds one pending job under a key that no job has, or moves
the job of one key to another status; the statuses of all other keys stay.
-/

namespace Splice.Store

variable {s t : Store}

/-- Every job has a key, and no two jobs have the same. -/
structure Keyed (s : Store) : Prop where
  someKey : ∀ r ∈ s.jobs, ∃ k, r .id = some k
  distinct : (s.jobs.map fun r => r .id).Nodup

def status? (s : Store) (k : String) : Option Cell := (s.get? (some k)).map fun r => r .status

theorem get?_some (s : Store) (k : String) :
    s.get? (some k) = s.jobs.find? fun r => r .id == some k := by
  simp [get?]

theorem get?_eq_some {k : String} {r : JobRow} (h : s.get? (some k) = some r) :
    r ∈ s.jobs ∧ r .id = some k := by
  rw [get?_some] at h
  have found := List.find?_some h
  exact ⟨List.mem_of_find?_eq_some h, by simpa using found⟩

theorem get?_eq_none {k : String} (h : s.hasJob (some k) = false) : s.get? (some k) = none := by
  rw [get?_some, List.find?_eq_none]
  simpa [hasJob] using h

/-- The job of a key is the one that has it. -/
theorem Keyed.get?_of_mem (h : s.Keyed) {r : JobRow} (hr : r ∈ s.jobs) :
    s.get? (r .id) = some r := by
  obtain ⟨k, key⟩ := h.someKey r hr
  rw [key]
  cases found : s.get? (some k) with
  | none =>
      rw [get?_some, List.find?_eq_none] at found
      exact absurd (by simpa using key) (found r hr)
  | some q =>
      obtain ⟨hq, own⟩ := get?_eq_some found
      rw [List.inj_on_of_nodup_map h.distinct hq hr (own.trans key.symm)]

/-- The job of a key gets a status and keeps its key; all other jobs stay. -/
def Moves (s : Store) (k status : String) (t : Store) : Prop :=
  ∃ move : JobRow → JobRow, (∀ r, move r .id = r .id ∧ move r .status = some status) ∧
    t.jobs = s.jobs.map fun r => if r .id = some k then move r else r

namespace Moves

variable {k status : String}

theorem keyed (h : s.Moves k status t) (keyed : s.Keyed) : t.Keyed := by
  obtain ⟨move, kept, jobs⟩ := h
  have same : (t.jobs.map fun r => r .id) = s.jobs.map fun r => r .id := by
    rw [jobs, List.map_map]
    apply List.map_congr_left
    intro r hr
    by_cases own : r .id = some k <;> simp [own, (kept r).1]
  refine ⟨fun r hr => ?_, by rw [same]; exact keyed.distinct⟩
  have key : r .id ∈ t.jobs.map fun r => r .id := List.mem_map_of_mem hr
  rw [same] at key
  obtain ⟨q, hq, key⟩ := List.mem_map.mp key
  rw [← key]
  exact keyed.someKey q hq

theorem status?_eq (h : s.Moves k status t) (j : String) :
    t.status? j = if j = k then (s.status? k).map fun _ => some status else s.status? j := by
  obtain ⟨move, kept, jobs⟩ := h
  have keys : (fun r : JobRow => r .id == some j) ∘ (fun r => if r .id = some k then move r else r) =
      fun r => r .id == some j := by
    funext r
    by_cases own : r .id = some k <;> simp [own, (kept r).1]
  rw [status?, status?, get?_some, get?_some, jobs, List.find?_map, keys, Option.map_map]
  by_cases same : j = k
  · subst same
    rw [if_pos rfl]
    cases found : s.jobs.find? fun r => r .id == some j with
    | none => rfl
    | some r =>
        have own : r .id = some j := by simpa using List.find?_some found
        simp [own, (kept r).2]
  · rw [if_neg same, status?, get?_some]
    cases found : s.jobs.find? fun r => r .id == some j with
    | none => rfl
    | some r =>
        have key : r .id = some j := by simpa using List.find?_some found
        simp [key, same]

end Moves

/-- The store with the job of a key made anew. -/
def edit (s : Store) (k : String) (f : JobRow → JobRow) : Store :=
  { s with jobs := s.jobs.map fun r => if r .id = some k then f r else r }

theorem edit_moves {k status : String} {f : JobRow → JobRow}
    (kept : ∀ r, f r .id = r .id ∧ f r .status = some status) : s.Moves k status (s.edit k f) :=
  ⟨f, kept, rfl⟩

theorem edit_edit {k : String} {f g : JobRow → JobRow} (kept : ∀ r, f r .id = r .id) :
    (s.edit k f).edit k g = s.edit k fun r => g (f r) := by
  simp only [edit, List.map_map, mk.injEq, and_true]
  apply List.map_congr_left
  intro r hr
  by_cases own : r .id = some k <;> simp [own, kept]

theorem edit_jobs_congr (k : String) (f : JobRow → JobRow) (same : t.jobs = s.jobs) :
    (t.edit k f).jobs = (s.edit k f).jobs := by
  rw [edit, edit, same]

theorem change_eq {k : String} {changes : List (JobColumn × Cell)}
    (h : s.change (some k) changes = .ok t) : t = s.edit k fun r => r.setAll changes := by
  simp only [change, Option.isSome_some, Bool.true_and, beq_iff_eq] at h
  split at h
  · split at h
    · simp at h
    · obtain ⟨_, -, h⟩ := Outcome.bind_eq_ok.mp h
      split at h
      · simp at h
      · exact (Except.ok.inj h).symm
  · exact (Except.ok.inj h).symm

theorem ofName?_name (c : JobColumn) : JobColumn.ofName? c.name = some c := by
  cases c <;> decide +kernel

theorem unencodable?_name (c : JobColumn) : Text.unencodable? c.name = none := by
  cases c <;> rfl

theorem columnsOf_names (columns : List JobColumn) :
    columnsOf (columns.map JobColumn.name) = .ok columns := by
  rw [columnsOf]
  induction columns with
  | nil => rfl
  | cons c rest ih => simp [ofName?_name, ih]

theorem name_eq_updated {c : JobColumn} : c.name = JobColumn.updated.name ↔ c = .updated := by
  cases c <;> decide

/-- An update by the names of columns other than that of the last change sets these columns, and then
that one. -/
theorem update_eq (s : Store) (id : Value) (now : String) {changes : List (JobColumn × Value)}
    (other : ∀ c ∈ changes, c.1 ≠ .updated) :
    s.update id now (changes.map fun c => (c.1.name, c.2)) =
      cells 1 (changes.map Prod.snd ++ [.text now, id]) >>= fun given =>
        s.change given.getLast?.join ((changes.map Prod.fst ++ [JobColumn.updated]).zip given) := by
  have encodable : (changes.map fun c => (c.1.name, c.2)).filterMap
      (fun v => Text.unencodable? v.1) = [] := by
    simp [unencodable?_name]
  have kept : (changes.map fun c => (c.1.name, c.2)).filter (·.1 != JobColumn.updated.name) =
      changes.map fun c => (c.1.name, c.2) := by
    rw [List.filter_eq_self]
    intro v hv
    obtain ⟨c, hc, rfl⟩ := List.mem_map.mp hv
    simpa [name_eq_updated] using other c hc
  have absent : (changes.map fun c => (c.1.name, c.2)).findIdx? (·.1 == JobColumn.updated.name) =
      none := by
    rw [List.findIdx?_eq_none_iff]
    intro v hv
    obtain ⟨c, hc, rfl⟩ := List.mem_map.mp hv
    simpa [name_eq_updated] using other c hc
  have names : ((changes.map fun c => (c.1.name, c.2)) ++ [(JobColumn.updated.name,
      Value.text now)]).map (·.1) =
        (changes.map Prod.fst ++ [JobColumn.updated]).map JobColumn.name := by
    simp [Function.comp_def]
  simp only [update, encodable, kept, absent, names, columnsOf_names, Outcome.ok_bind, List.head?_nil]
  simp [Function.comp_def]

theorem cell_text {place : Nat} {x : String} {c : Cell} :
    cell place (.text x) = .ok c ↔ Text.unencodable? x = none ∧ c = some x := by
  rw [cell]
  split
  · simp [*, eq_comm]
  · simp [*]

theorem cells_cons {place : Nat} {v : Value} {rest : List Value} {given : List Cell}
    (h : cells place (v :: rest) = .ok given) :
    ∃ c later, cell place v = .ok c ∧ cells (place + 1) rest = .ok later ∧ given = c :: later := by
  simp only [cells, Outcome.bind_eq_ok, Outcome.pure_eq] at h
  obtain ⟨c, hc, later, hl, made⟩ := h
  exact ⟨c, later, hc, hl, (Except.ok.inj made).symm⟩

theorem start_eq {k now : String} (h : s.start (some k) now = .ok t) :
    t = s.edit k fun r => r.setAll [(.status, some "processing"), (.updated, some now)] :=
  change_eq h

theorem start_moves {k now : String} (h : s.start (some k) now = .ok t) :
    s.Moves k "processing" t := by
  rw [start_eq h]
  exact edit_moves fun _ => ⟨rfl, rfl⟩

/-- A mark sets the status of its job, and the column that keeps what the job ended with. -/
theorem mark_eq {k now status : String} {v : Value} {column : JobColumn} (other : column ≠ .updated)
    (h : s.update (.text k) now
      ([(.status, .text status), (column, v)].map fun c => (JobColumn.name c.1, c.2)) = .ok t) :
    Text.unencodable? k = none ∧ ∃ c, cell 2 v = .ok c ∧
      t = s.edit k fun r => r.setAll [(.status, some status), (column, c), (.updated, some now)] := by
  rw [update_eq s _ now (by simp [other])] at h
  obtain ⟨given, all, h⟩ := Outcome.bind_eq_ok.mp h
  obtain ⟨a, _, ha, afterStatus, rfl⟩ := cells_cons all
  obtain ⟨b, _, hb, afterValue, rfl⟩ := cells_cons afterStatus
  obtain ⟨c, _, hc, afterTime, rfl⟩ := cells_cons afterValue
  obtain ⟨d, _, hd, last, rfl⟩ := cells_cons afterTime
  obtain rfl := Except.ok.inj last
  obtain ⟨-, rfl⟩ := cell_text.mp ha
  obtain ⟨-, rfl⟩ := cell_text.mp hc
  obtain ⟨encodable, rfl⟩ := cell_text.mp hd
  exact ⟨encodable, b, hb, change_eq h⟩

theorem markDone_eq {k now : String} {url : Value} (h : s.markDone (.text k) now url = .ok t) :
    Text.unencodable? k = none ∧ ∃ c, cell 2 url = .ok c ∧ t = s.edit k fun r =>
      r.setAll [(.status, some "done"), (.outputUrl, c), (.updated, some now)] := by
  unfold markDone at h
  exact @mark_eq s t k now "done" url .outputUrl (by decide) h

theorem markError_eq {k now : String} {message : Value}
    (h : s.markError (.text k) now message = .ok t) :
    Text.unencodable? k = none ∧ ∃ c, cell 2 message = .ok c ∧ t = s.edit k fun r =>
      r.setAll [(.status, some "error"), (.errorMessage, c), (.updated, some now)] := by
  unfold markError at h
  exact @mark_eq s t k now "error" message .errorMessage (by decide) h

theorem markDone_moves {k now : String} {url : Value} (h : s.markDone (.text k) now url = .ok t) :
    s.Moves k "done" t := by
  obtain ⟨-, c, -, rfl⟩ := markDone_eq h
  exact edit_moves fun _ => ⟨rfl, rfl⟩

theorem markError_moves {k now : String} {message : Value}
    (h : s.markError (.text k) now message = .ok t) : s.Moves k "error" t := by
  obtain ⟨-, c, -, rfl⟩ := markError_eq h
  exact edit_moves fun _ => ⟨rfl, rfl⟩

/-- A new job goes to the end, and no job had its key. -/
theorem enqueue_eq_ok {id now : String} {o : Order} (h : s.enqueue id now o = .ok t) :
    s.hasJob (some id) = false ∧ ∃ user hookUrl demoUrl hookText editConfig,
      t = { s with
        jobs := s.jobs ++ [newRow id now user hookUrl demoUrl hookText editConfig] } := by
  simp only [enqueue, Outcome.bind_eq_ok] at h
  obtain ⟨user, -, hookUrl, -, demoUrl, -, hookText, -, editConfig, -, _, -, h⟩ := h
  split at h
  · simp at h
  · obtain rfl := Except.ok.inj h
    exact ⟨by simpa using ‹¬ s.hasJob (some id) = true›, user, hookUrl, demoUrl, hookText,
      editConfig, rfl⟩

/-- A new job has a key and a user. -/
theorem mem_of_enqueue {id now : String} {o : Order} {r : JobRow} (h : s.enqueue id now o = .ok t)
    (hr : r ∈ t.jobs) : r ∈ s.jobs ∨ r .id = some id ∧ ∃ user, r .user = some user := by
  simp only [enqueue, Outcome.bind_eq_ok] at h
  obtain ⟨user, -, hookUrl, -, demoUrl, -, hookText, -, editConfig, -, _, checked, h⟩ := h
  split at h
  · simp at h
  · obtain rfl := Except.ok.inj h
    refine (List.mem_append.mp hr).imp_right fun hr => ?_
    obtain rfl := List.mem_singleton.mp hr
    refine ⟨rfl, ?_⟩
    cases user with
    | some user => exact ⟨user, rfl⟩
    | none =>
        simp only [JobRow.check] at checked
        split at checked
        · cases checked
        · rename_i full
          simp [JobColumn.all, JobColumn.isRequired, newRow] at full

theorem enqueue_keyed {id now : String} {o : Order} (h : s.enqueue id now o = .ok t)
    (keyed : s.Keyed) : t.Keyed := by
  obtain ⟨free, user, hookUrl, demoUrl, hookText, editConfig, rfl⟩ := enqueue_eq_ok h
  constructor
  · intro r hr
    rcases List.mem_append.mp hr with hr | hr
    · exact keyed.someKey r hr
    · obtain rfl := List.mem_singleton.mp hr
      exact ⟨id, rfl⟩
  · rw [List.map_append, List.nodup_append]
    refine ⟨keyed.distinct, by simp, ?_⟩
    intro a ha b hb
    obtain ⟨r, hr, rfl⟩ := List.mem_map.mp ha
    obtain rfl := List.mem_singleton.mp hb
    intro same
    simp [hasJob] at free
    exact free r hr same

theorem enqueue_status? {id now : String} {o : Order} (h : s.enqueue id now o = .ok t) (j : String) :
    t.status? j = if j = id then some (some "pending") else s.status? j := by
  obtain ⟨free, user, hookUrl, demoUrl, hookText, editConfig, rfl⟩ := enqueue_eq_ok h
  have before := get?_eq_none free
  rw [get?_some] at before
  rw [status?, status?, get?_some, get?_some, List.find?_append]
  by_cases same : j = id
  · subst same
    simp [before, newRow]
  · simp [newRow, same, Ne.symm same]

theorem older_mem (a b : JobRow) : older a b = a ∨ older a b = b := by
  rw [older]
  split
  · exact .inr rfl
  · exact .inl rfl

theorem foldl_older_mem (rows : List JobRow) (r : JobRow) : rows.foldl older r ∈ r :: rows := by
  induction rows generalizing r with
  | nil => simp
  | cons q rest ih =>
      have later := ih (older r q)
      rcases List.mem_cons.mp later with found | found
      · rw [List.foldl_cons, found]
        rcases older_mem r q with h | h <;> simp [h]
      · exact List.mem_cons_of_mem _ (List.mem_cons_of_mem _ found)

theorem nextPending?_eq_none (h : s.nextPending? = none) :
    ∀ r ∈ s.jobs, r .status ≠ some "pending" := by
  intro r hr pending
  have mem : r ∈ s.jobs.filter isPending := List.mem_filter.mpr ⟨hr, by simp [isPending, pending]⟩
  rw [nextPending?] at h
  cases waiting : s.jobs.filter isPending with
  | nil => simp [waiting] at mem
  | cons q rest => simp [waiting, oldest?] at h

theorem nextPending?_eq_some {r : JobRow} (h : s.nextPending? = some r) :
    r ∈ s.jobs ∧ r .status = some "pending" := by
  rw [nextPending?] at h
  cases waiting : s.jobs.filter isPending with
  | nil => simp [waiting, oldest?] at h
  | cons q rest =>
      rw [waiting] at h
      obtain rfl := Option.some.inj h
      have mem := foldl_older_mem rest q
      rw [← waiting] at mem
      obtain ⟨hr, pending⟩ := List.mem_filter.mp mem
      exact ⟨hr, by simpa [isPending] using pending⟩

end Splice.Store
