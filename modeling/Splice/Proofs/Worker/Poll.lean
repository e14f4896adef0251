import Splice.Proofs.Frame
import Splice.Proofs.Jobs
import Splice.Proofs.Store.Age
import Splice.Worker

/-! # One poll

A poll takes a job, processes it and marks it. The jobs are changed by the claim and by one mark at the
end, whichever way the processing goes; so a poll ends if these two writes succeed.
-/

namespace Splice

theorem Failure.kind_ne_empty (f : Failure) : f.kind ≠ "" := by
  cases f with
  | yaml e => cases e <;> simp [kind, Yaml.Error.kind]
  | settings e =>
      cases e with
      | yaml e => cases e <;> simp [kind, Settings.ReadError.kind, Yaml.Error.kind]
      | badPath fault => cases fault <;> simp [kind, Settings.ReadError.kind, FileFault.kind]
      | _ => simp [kind, Settings.ReadError.kind]
  | program e =>
      cases e with
      | whole e => cases e <;> simp [kind, Program.Error.kind]
      | _ => simp [kind, Program.Error.kind]
  | engine fault => cases fault <;> simp [kind, Engine.Fault.kind]
  | file e => obtain ⟨fault, path⟩ := e; cases fault <;> simp [kind, FileFault.kind]
  | store fault => cases fault <;> simp [kind, Store.Fault.kind]
  | json e => cases e <;> simp [kind, Json.WriteError.kind]
  | other kind message named => exact named
  | _ => simp [kind]

theorem Failure.summary_ne_empty (f : Failure) : f.summary ≠ "" := by
  unfold summary
  split
  · exact f.kind_ne_empty
  · simpa using ‹¬ f.message.isEmpty = true›

namespace Worker

open Splice.Action

/-! ## What an outcome says -/

theorem nonempty_eq_some {s : Option String} {text : String} :
    nonempty s = some text ↔ s = some text ∧ text ≠ "" := by
  simp [nonempty, Option.filter_eq_some_iff]

/-- The address that an outcome gives: only success has one, and it is not empty. -/
def address? : Except Failure Pipeline.Result → Option String
  | .ok r => if r.success then nonempty r.outputUrl else none
  | .error _ => none

/-- The wording that an outcome without an address gives, if it is not empty. -/
def complaint? : Except Failure Pipeline.Result → Option String
  | .ok r => nonempty r.error
  | .error f => nonempty (some f.message)

/-- The message that is noted for an outcome without an address. -/
def message : Except Failure Pipeline.Result → String
  | .ok r => (nonempty r.error).getD "Unknown error"
  | .error f => f.summary

variable {o : Except Failure Pipeline.Result}

theorem address?_eq_some {url : String} : address? o = some url ↔
    ∃ r, o = .ok r ∧ r.success = true ∧ r.outputUrl = some url ∧ url ≠ "" := by
  cases o with
  | ok r => by_cases success : r.success = true <;> simp [address?, success, nonempty_eq_some]
  | error f => simp [address?]

theorem message_ne_empty (o : Except Failure Pipeline.Result) : message o ≠ "" := by
  cases o with
  | ok r =>
      cases told : nonempty r.error with
      | none => simp [message, told]
      | some text => simpa [message, told] using (nonempty_eq_some.mp told).2
  | error f => exact f.summary_ne_empty

/-- A wording that is not empty is noted as it is. -/
theorem message_of_complaint {text : String} (h : complaint? o = some text) : message o = text := by
  cases o with
  | ok r => simp only [message, show nonempty r.error = some text from h, Option.getD_some]
  | error f =>
      obtain ⟨told, some_text⟩ := nonempty_eq_some.mp h
      obtain rfl := Option.some.inj told
      rw [message, Failure.summary, if_neg]
      simpa using some_text

/-! ## The parts of a poll -/

/-- The part of a poll before a job is processed. -/
def take (w : Worker) : Action (Option Job) := do
  match ← Jobs.claim w.store with
  | none => return none
  | some row =>
    Machine.log (source 38) .info ("\n📦 Found job: " ++ (Job.ofRow row).id)
    setBusy true
    Machine.log (source 41) .info ("⚙️  Processing job " ++ (Job.ofRow row).id ++ "...")
    return some (Job.ofRow row)

/-- The change of the jobs that notes an outcome. -/
def mark (w : Worker) (job : Job) (o : Except Failure Pipeline.Result) : Action Unit :=
  match address? o with
  | some url => Jobs.markDone w.store (.text job.id) (.text url)
  | none => Jobs.markError w.store (.text job.id) (.text (message o))

variable {w : Worker} {p : Processor} {job : Job} {m n k j i : Machine}

theorem ends_take_some (h : Ends w.take m (some job) k) :
    ∃ row k₀ k₁ k₂, Ends (Jobs.claim w.store) m (some row) k₀ ∧ job = Job.ofRow row ∧
      Ends (Machine.log (source 38) .info ("\n📦 Found job: " ++ job.id)) k₀ () k₁ ∧
      Ends (setBusy true) k₁ () k₂ ∧
      Ends (Machine.log (source 41) .info ("⚙️  Processing job " ++ job.id ++ "...")) k₂ () k := by
  simp only [take, ends_bind] at h
  obtain ⟨_ | row, k₀, claimed, h⟩ := h
  · simp at h
  · simp only [ends_bind, ends_pure] at h
    obtain ⟨_, k₁, found, _, k₂, busy, _, _, started, same, rfl⟩ := h
    obtain rfl := Option.some.inj same
    exact ⟨row, k₀, k₁, k₂, claimed, rfl, found, busy, started⟩

theorem ends_take_none (h : Ends w.take m none k) : Ends (Jobs.claim w.store) m none k := by
  simp only [take, ends_bind] at h
  obtain ⟨_ | row, k₀, claimed, h⟩ := h
  · obtain ⟨-, rfl⟩ := ends_pure.mp h
    exact claimed
  · simp only [ends_bind, ends_pure] at h
    obtain ⟨_, _, -, _, _, -, _, _, -, same, -⟩ := h
    simp at same

/-- A poll while a job is in flight does nothing. -/
theorem ends_poll_busy (p : Processor) (busy : m.busy = true) : Ends (w.poll p) m none m := by
  simp only [poll, ends_bind, ends_get]
  exact ⟨m, m, ⟨rfl, rfl⟩, by simp [busy]⟩

theorem ends_poll_none (idle : m.busy = false) (taken : Ends w.take m none n) :
    Ends (w.poll p) m none n := by
  simp only [poll, ends_bind, ends_get]
  refine ⟨m, m, ⟨rfl, rfl⟩, ?_⟩
  simp only [idle, Bool.false_eq_true, if_false, ends_bind]
  exact ⟨none, n, ends_take_none taken, ends_pure.mpr ⟨rfl, rfl⟩⟩

/-- After a mark that succeeds, a job's work is over; only records of the log follow. -/
theorem ends_work (ran : Gives (p job) k o j) (marked : Ends (w.mark job o) j () i)
    (started : Ends (Machine.log (source 41) .info ("⚙️  Processing job " ++ job.id ++ "...")) m () k) :
    ∃ n, Ends (w.work p job) m () n ∧ Machine.Quiet [] i n := by
  simp only [work, ends_tryCatch, ends_bind, fails_bind]
  cases o with
  | ok r =>
      -- the outcome is noted, and nothing after the mark can fail
      simp only [mark] at marked
      cases told : address? (.ok r) with
      | some url =>
          have noted : (if r.success = true then nonempty r.outputUrl else none) = some url := told
          rw [told] at marked
          obtain ⟨i₁, first, quiet₁⟩ :=
            Machine.exists_ends_log (source 45) .info ("✅ Job " ++ job.id ++ " completed successfully") i
          obtain ⟨n, second, quiet₂⟩ := Machine.exists_ends_log (source 46) .info ("   Output: " ++ url) i₁
          refine ⟨n, .inl ⟨(), k, started, r, j, ran, ?_⟩, quiet₁.trans quiet₂⟩
          simp only [note, noted, ends_bind]
          exact ⟨(), i, marked, (), i₁, first, second⟩
      | none =>
          have noted : (if r.success = true then nonempty r.outputUrl else none) = none := told
          rw [told] at marked
          obtain ⟨n, first, quiet⟩ := Machine.exists_ends_log (source 49) .error
            ("❌ Job " ++ job.id ++ " failed: " ++ Engine.orNone r.error) i
          refine ⟨n, .inl ⟨(), k, started, r, j, ran, ?_⟩, quiet⟩
          simp only [note, noted, ends_bind]
          exact ⟨(), i, marked, first⟩
  | error f =>
      obtain ⟨n, last, quiet⟩ := Machine.exists_ends_log (source 52) .error
        ("❌ Job " ++ job.id ++ " failed with exception") i
      exact ⟨n, .inr ⟨f, j, .inr ⟨(), k, started, .inl ran⟩, (), i, marked, last⟩, quiet⟩

/-- What a mark writes into the row of its job. -/
def marks (o : Except Failure Pipeline.Result) (now : String) : List (Store.JobColumn × Store.Cell) :=
  match address? o with
  | some url => [(.status, some "done"), (.outputUrl, some url), (.updated, some now)]
  | none => [(.status, some "error"), (.errorMessage, some (message o)), (.updated, some now)]

/-- A mark that succeeds finds the jobs, and edits the one of its key. -/
theorem ends_mark (h : Ends (w.mark job o) m () n) :
    Text.unencodable? job.id = none ∧ Jobs.Bookkeeping m n ∧ ∃ s now,
      m.stores.lookup w.store = some s ∧
      n.stores.lookup w.store = some (s.edit job.id fun r => r.setAll (marks o now)) := by
  unfold mark at h
  unfold marks
  cases told : address? o with
  | some url =>
      rw [told] at h
      obtain ⟨encodable, s, now, opened, left⟩ := Jobs.ends_markDone h
      exact ⟨encodable, (Jobs.keeps_markDone _ _ _).ends h, s, now, opened, left⟩
  | none =>
      rw [told] at h
      obtain ⟨encodable, s, now, opened, left⟩ := Jobs.ends_markError h
      exact ⟨encodable, (Jobs.keeps_markError _ _ _).ends h, s, now, opened, left⟩

/-- A poll that takes a job ends once its mark succeeds, and gives the row as it is then. Only records
of the log come after the mark, and no job is in flight any more. -/
theorem ends_poll (idle : m.busy = false) (taken : Ends w.take m (some job) k)
    (ran : Gives (p job) k o j) (marked : Ends (w.mark job o) j () i) :
    ∃ t n, i.stores.lookup w.store = some t ∧ Ends (w.poll p) m (t.get? (some job.id)) n ∧
      Machine.Quiet [] i n ∧ n.busy = false := by
  obtain ⟨row, k₀, k₁, k₂, claimed, rfl, found, busy, started⟩ := ends_take_some taken
  obtain ⟨encodable, -, s, now, -, left⟩ := ends_mark marked
  obtain ⟨n, worked, quiet⟩ := ends_work ran marked started
  have cleared : Machine.Quiet [] n { n with busy := false } :=
    Machine.quiet_of_tree rfl rfl rfl rfl rfl
  have quiet := quiet.trans cleared
  refine ⟨_, { n with busy := false }, left, ?_, quiet, rfl⟩
  simp only [poll, ends_bind, ends_get]
  refine ⟨m, m, ⟨rfl, rfl⟩, ?_⟩
  simp only [idle, Bool.false_eq_true, if_false, ends_bind]
  refine ⟨some row, k₀, claimed, ?_⟩
  simp only [ends_bind, ends_attempt]
  refine ⟨(), k₁, found, (), k₂, busy, .ok (), n, gives_ok.mpr worked, (), _, ends_modify.mpr rfl, ?_⟩
  simp only [Jobs.get?, ends_bind, Jobs.ends_storeAt, ends_lift, ends_pure]
  exact ⟨_, _, ⟨quiet.stores ▸ left, rfl⟩, some (Job.ofRow row).id, _,
    ⟨Store.cell_text.mpr ⟨encodable, rfl⟩, rfl⟩, rfl, rfl⟩

end Worker
end Splice
