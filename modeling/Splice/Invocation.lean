import Splice.Machine

/-! # Running the engine

The engine is run once for a program, for a limited time. A program that needs a filter is run only if
the engine lists it; a listing that succeeded is remembered for its engine.
-/

namespace Splice.Invocation

def source (line : Int) : Log.Source := ⟨"hookcut.engine", line⟩

def note (e : ProcessEvent) : Action Unit :=
  modify fun m => { m with processes := m.processes ++ [e] }

def listFilters (engine : Option String) : Action (List String) := do
  note (.listed (Engine.listingCommand engine))
  match (← get).listing with
  | .refused reason => throw (.engine (.start reason))
  | .overdue => throw (.engine (.start (Engine.listingOverdue engine)))
  | .printed text =>
    let names := Engine.filterNames text
    modify fun m => { m with knownFilters := (engine, names) :: m.knownFilters }
    return names

/-- The filters of an engine, listed at most once with success. -/
def availableFilters (engine : Option String) : Action (List String) := do
  match (← get).knownFilters.lookup engine with
  | some names => return names
  | none => listFilters engine

def checkFilters (engine : Option String) (required : List String) : Action Unit := do
  let available ← availableFilters engine
  let missing := Engine.missing required available
  if !missing.isEmpty then throw (.engine (.filters engine missing))

/-- How the next process goes. The last way repeats. -/
def nextRun : Action Engine.Run := do
  let m ← get
  match m.runs with
  | [] => return .ended 0 "" none
  | [r] => return r
  | r :: rest =>
    set { m with runs := rest }
    return r

/-- The file that a command writes: its last argument. -/
def outputOf (command : List (Option String)) : Path :=
  Path.ofText (command.getLast?.join.getD "")

def writeOutput (command : List (Option String)) (output : Option String) : Action Unit := do
  match output with
  | some content =>
    let p := outputOf command
    Machine.onTree p.text fun t here => t.write here p content
  | none => pure ()

def run (command : List (Option String)) (limit : Option Binary64) : Action Unit := do
  let text ← Machine.need (Program.commandText? command)
  Machine.log (source 110) .debug ("Running: " ++ text)
  note (.started command)
  match ← nextRun with
  | .refused reason => throw (.engine (.start reason))
  | .overdue output =>
    writeOutput command output
    note .killed
    throw (.engine (.timeout limit))
  | .ended code stderr output =>
    writeOutput command output
    if code ≠ 0 then throw (.engine (.exit code stderr))

/-- Run a program; what is wrong with the engine is its outcome. -/
def invoke (p : Program) (engine : Option String) (limit : Option Binary64) :
    Action Engine.Result := do
  Machine.log (source 142) .info
    ("   🎬 Running ffmpeg (expected " ++ p.expectedDuration.fixed 1 ++ "s of output)...")
  let attempt : Action Engine.Result := do
    if !p.requiredFilters.isEmpty then checkFilters engine p.requiredFilters
    run (p.command engine) limit
    Machine.log (source 154) .info "   ✓ ffmpeg completed successfully"
    return {}
  tryCatch attempt fun f =>
    match f with
    | .engine fault => do
      Machine.log (source 148) .error ("   ❌ " ++ fault.message)
      return ⟨some fault.message, fault.isTimeout⟩
    | f => throw f

end Splice.Invocation
