import Splice.Pipeline

/-! # The worker

The worker claims one pending job at a time, processes it and notes the outcome on the job. While a
job is in flight, polls do nothing. The worker polls until it is stopped.
-/

namespace Splice

/-- What a worker works with. -/
structure Worker where
  settings : Settings
  store : Location
  storage : Storage

namespace Worker

/-- A worker for settings; the job store is opened. -/
def open? (s : Settings) : Action Worker := do
  let store ← Jobs.openAt (← Machine.need (s.get .database))
  let root ← Machine.need (s.get .storage)
  return ⟨s, store, Storage.of root (s.get .publicBase)⟩

/-- A way to process jobs. -/
abbrev Processor := Job → Action Pipeline.Result

def processor (w : Worker) : Processor := fun job =>
  Pipeline.process job w.settings w.store w.storage

def source (line : Int) : Log.Source := ⟨"hookcut.worker", line⟩

def setBusy (busy : Bool) : Action Unit := modify fun m => { m with busy }

def nonempty (s : Option String) : Option String := s.filter (!·.isEmpty)

/-- Note an outcome on a job. Success without an address counts as a failure. -/
def note (w : Worker) (job : Job) (r : Pipeline.Result) : Action Unit := do
  match if r.success then nonempty r.outputUrl else none with
  | some url =>
    Jobs.markDone w.store (.text job.id) (.text url)
    Machine.log (source 45) .info ("✅ Job " ++ job.id ++ " completed successfully")
    Machine.log (source 46) .info ("   Output: " ++ url)
  | none =>
    Jobs.markError w.store (.text job.id) (.text ((nonempty r.error).getD "Unknown error"))
    Machine.log (source 49) .error ("❌ Job " ++ job.id ++ " failed: " ++ Engine.orNone r.error)

/-- Process a claimed job and note its outcome; a failure is an outcome too. -/
def work (w : Worker) (p : Processor) (job : Job) : Action Unit :=
  tryCatch
    (do
      Machine.log (source 41) .info ("⚙️  Processing job " ++ job.id ++ "...")
      w.note job (← p job))
    fun f => do
      Jobs.markError w.store (.text job.id) (.text f.summary)
      Machine.log (source 52) .error ("❌ Job " ++ job.id ++ " failed with exception")

/-- Claim and process at most one job, and give its row. -/
def poll (w : Worker) (p : Processor) : Action (Option Store.JobRow) := do
  if (← get).busy then return none
  match ← Jobs.claim w.store with
  | none => return none
  | some row =>
    let job := Job.ofRow row
    Machine.log (source 38) .info ("\n📦 Found job: " ++ job.id)
    setBusy true
    let outcome ← Pipeline.attempt (w.work p job)
    setBusy false
    match outcome with
    | .ok () => Jobs.get? w.store (.text job.id)
    | .error f => throw f

def stop : Action Unit := do
  Machine.log (source 58) .info "\n🛑 Stop requested, shutting down..."
  modify fun m => { m with stopped := true }

/-- The signals that stop the worker, in the order in which it listens to them. -/
def stopSignals : List Nat := [15, 2]

/-- Take numbered steps until the worker is stopped, at most as many as `fuel`; give the number of
the last one. A failure of a step ends that step only. -/
def loop (step : Nat → Action Unit) : Nat → Nat → Action Nat
  | 0, n => return n
  | fuel + 1, n => do
    if (← get).stopped then return n
    match ← Pipeline.attempt (step (n + 1)) with
    | .ok () => pure ()
    | .error _ =>
      Machine.log (source 74) .error "❌ Unexpected error in poll loop"
      setBusy false
    loop step fuel (n + 1)

/-- Announce the worker and take steps until it is stopped. -/
def run (w : Worker) (step : Nat → Action Unit) (fuel : Nat) : Action Nat := do
  Machine.log (source 67) .info "🚀 hookcut worker starting..."
  let interval ← Machine.need (w.settings.get .pollInterval)
  Machine.log (source 68) .info ("📊 Poll interval: " ++ interval.fixed 1 ++ "s")
  Machine.log (source 69) .info "👀 Watching for pending jobs..."
  loop step fuel 0

end Worker
end Splice
