import Splice.Command.Usage
import Splice.Settings.Load
import Splice.Text.Arguments
import Splice.Worker

/-! # Running commands

A command prints what it does and ends with an exit code and a text for the error stream. What is
wrong with the command line ends it with code 2, what is wrong with the work with code 1.
-/

namespace Splice.Command

/-- How a command ended. -/
structure Ending where
  code : Nat := 0
  errors : String := ""
  signals : List Nat := []
  deriving DecidableEq, Repr

/-- What a command is started with besides its arguments. -/
structure Start extends Surroundings where
  steps : Worker → Nat → Action Unit
  limit : Nat

def Description.refuse (d : Description) (message : String) : Ending :=
  { code := 2, errors := d.error message }

def failed (message : String) : Ending := { code := 1, errors := "Error: " ++ message ++ "\n" }

def write (s : String) : Action Unit := modify fun m => { m with printed := m.printed ++ s }

def settings (s : Start) (r : Reading) : Action Settings :=
  s.toSurroundings.settings ((r.value? "--settings").map Path.ofText)

def setUpLog (s : Start) : Action Unit := Machine.setUpLog none (s.environment "LOG_LEVEL") none

def soundWord (c : Clip) : String := if c.hasAudio then "audio" else "no audio"

/-- A text with spaces before it, up to `width`. -/
def rightAligned (width : Nat) (s : String) : String :=
  String.ofList (List.replicate (width - s.length) ' ') ++ s

def probe (r : Reading) : Action Ending := do
  for path in r.plain.getD [] do
    let clip ← Clip.probe path
    Machine.printLine (rightAligned 8 (clip.duration.fixed 2) ++ "s  " ++
      Log.spaced 8 (soundWord clip) ++ "  " ++ path)
  return {}

def clipLine (title path : String) (c : Clip) : String :=
  title ++ ": " ++ c.duration.fixed 2 ++ "s (" ++ soundWord c ++ ")  " ++ path

def namedConfig (r : Reading) : Action EditConfig := do
  match Worker.nonempty (r.value? "--config") with
  | none => return {}
  | some path =>
    let content ← Machine.askTree path fun t here => t.readAt here path
    Machine.lift .ofConfig (EditConfig.ofFile content)

/-- The settings and the program for the files that a command line names. -/
def plan (s : Start) (r : Reading) (files : Program.Files) : Action (Settings × Program) := do
  let settings ← settings s r
  let config ← namedConfig r
  let hook ← Clip.probe files.hook
  let demo ← Clip.probe files.demo
  Machine.printLine (clipLine "Hook" files.hook hook)
  Machine.printLine (clipLine "Demo" files.demo demo)
  let program ← Machine.lift .program (Program.compile config files hook demo (r.value? "--text")
    (Pipeline.encoderOptions settings))
  return (settings, program)

def perform (settings : Settings) (program : Program) (output : String) : Action Ending := do
  Machine.makeDirectories (Path.ofText output).parent
  Machine.printLine ("Writing to: " ++ output)
  let result ← Invocation.invoke program (settings.get .engine) (settings.get .engineTimeout)
  if !result.success then return failed (Engine.orNone result.error)
  Machine.printLine ("\nDone: " ++ output)
  return {}

/-- Render one video from files, or show the command that would. -/
def renderFiles (s : Start) (r : Reading) (files : Program.Files) : Action Ending := do
  match ← Pipeline.attempt (plan s r files) with
  | .error f => if f.isReported then return failed f.message else throw f
  | .ok (settings, program) =>
    Machine.printLine ("Expected duration: ~" ++ program.expectedDuration.fixed 1 ++ "s")
    if r.hasFlag "--dry-run" then
      Machine.printLine (← Machine.need (Program.commandText? (program.command (settings.get .engine))))
      return {}
    perform settings program files.output

/-- The first of some paths that leads nowhere. -/
def firstMissing? : List String → Action (Option String)
  | [] => return none
  | path :: rest => do
    let p := Path.ofText path
    let isThere ← Machine.askTree p.text fun t here => t.isThere here p
    if isThere then firstMissing? rest else return some path

def render (s : Start) (r : Reading) : Action Ending := do
  let value (name : String) : String := (r.value? name).getD ""
  let files : Program.Files := ⟨value "--hook", value "--demo", value "--output"⟩
  setUpLog s
  match ← firstMissing? [files.hook, files.demo] with
  | some path => return renderDescription.refuse ("Input not found: " ++ path)
  | none => renderFiles s r files

def namedConfigValue (r : Reading) : Action Value := do
  match Worker.nonempty (r.value? "--config") with
  | none => return .null
  | some path =>
    let content ← Machine.askTree path fun t here => t.readAt here path
    Machine.lift .yaml (Yaml.read (Text.ofFile content))

def enqueue (s : Start) (r : Reading) : Action Ending := do
  let settings ← settings s r
  let config ← namedConfigValue r
  match EditConfig.read config with
  | .error (.fault f) => return enqueueDescription.refuse ("Invalid edit config: " ++ f.message)
  | .error e => throw (.ofConfig e)
  | .ok _ =>
    let path ← Machine.need (settings.get .database)
    let store ← Jobs.openAt path
    let value (name : String) : Value := Pipeline.storedValue (r.value? name)
    let row ← Jobs.enqueue store
      ⟨value "--user", value "--hook", value "--demo", value "--text", config⟩
    Machine.printLine ("Enqueued job " ++ (row.bind (· .id)).getD "" ++ " (" ++ path.text ++ ")")
    return {}

def work (s : Start) (r : Reading) : Action Ending := do
  setUpLog s
  let worker ← Worker.open? (← settings s r)
  if r.hasFlag "--once" then
    match ← worker.poll worker.processor with
    | none => Machine.printLine "No pending jobs."
    | some row =>
      Machine.printLine ("Job " ++ (row .id).getD "" ++ ": " ++ (row .status).getD "")
    return {}
  let _ ← worker.run (s.steps worker) s.limit
  return { signals := Worker.stopSignals }

def named (name : String) : Description × (Start → Reading → Action Ending) :=
  match name with
  | "render" => (renderDescription, render)
  | "probe" => (probeDescription, fun _ => probe)
  | "enqueue" => (enqueueDescription, enqueue)
  | _ => (workerDescription, work)

def halt (d : Description) : Stop → Action Ending
  | .help => do
    write d.help
    return {}
  | .wrong message => return d.refuse message

def carryOut (s : Start) (arguments : List String) : Action Ending :=
  match dispatch arguments with
  | .error stop => halt mainDescription stop
  | .ok none => do
    write mainDescription.help
    return { code := 1 }
  | .ok (some (name, rest)) =>
    let (description, action) := named name
    match description.grammar.read rest with
    | .error stop => halt description stop
    | .ok reading => action s reading

/-- Carry out a command line as a run of its own, with a log, a flag and a worker of its own. -/
def run (s : Start) (arguments : List String) : Action Ending := do
  let before ← get
  set { before with outlet := {}, busy := false, stopped := false }
  let outcome ← Pipeline.attempt (carryOut s arguments)
  modify fun m => { m with outlet := before.outlet, busy := before.busy, stopped := before.stopped }
  match outcome with
  | .ok ending => return ending
  | .error f => throw f

end Splice.Command
