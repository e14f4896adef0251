import Splice.Command.Run
import Splice.Store.Saved

/-! # The program

Reads the files that a command line, the environment and the pending jobs name, carries out the command
on them, and writes back what it changed. Starting the engine is left to a surrounding program: a run
of it is refused here.
-/

namespace Splice.Host

def contentAt? (path : String) : IO (Option String) := do
  try return some (← IO.FS.readFile path) catch _ => return none

def canOpen (path : String) : IO Bool := do
  try
    let _ ← IO.FS.Handle.mk path .read
    return true
  catch _ => return false

def now : IO Int := do
  let (_, path) ← IO.FS.createTempFile
  let time := (← path.metadata).modified
  IO.FS.removeFile path
  return time.sec * 1000000 + time.nsec.toNat / 1000

def withDirectory (m : Machine) (l : Location) : Machine :=
  match m.tree.makeDirectories [] (Path.ofLocation l) with
  | .ok tree => { m with tree }
  | .error _ => m

/-- A machine with a file, or with the job store that the file holds. -/
def withFile (m : Machine) (l : Location) (content : String) : Machine :=
  let m := withDirectory m l.dropLast
  match Store.ofSaved? content with
  | some store => { m with
      tree := m.tree.put l ""
      stores := (l, store) :: m.stores
      issued := m.issued + store.jobs.length + store.videos.length }
  | none => { m with tree := m.tree.put l content }

def loadFile (m : Machine) (name : String) : IO Machine := do
  let l := (Path.ofText name).locate m.here
  match ← contentAt? (Path.ofLocation l).text with
  | some content => return withFile m l content
  | none => return m

/-- The names that an argument may give of files. -/
def namesIn (argument : String) : List String :=
  match (Command.splitValue argument).2 with
  | .value s => [argument, s]
  | _ => [argument]

def pendingJobs (m : Machine) : List Job :=
  ((m.stores.flatMap fun s => s.2.jobs).filter Store.isPending).map Job.ofRow

/-- The variables of the environment that matter, with their values. -/
def environment : IO (List (String × String)) :=
  ("LOG_LEVEL" :: Setting.all.map (·.environmentName)).filterMapM fun name => do
    return (← IO.getEnv name).map (name, ·)

def installed : IO Installed := do
  let directories := Text.splitRuns (· == ':') ((← IO.getEnv "PATH").getD "").toList
  let engines ← (directories.map fun d => String.ofList d ++ "/ffmpeg").filterM canOpen
  let fonts ← (Font.regularPaths ++ Font.boldPaths).filterM canOpen
  return ⟨engines.head?, "ffmpeg", fonts.contains⟩

def settingsFile? (arguments : List String) : Option Path := do
  let (name, rest) ← (Command.dispatch arguments).toOption.join
  let reading ← ((Command.named name).1.grammar.read rest).toOption
  return Path.ofText (← reading.value? "--settings")

def databaseName (m : Machine) (s : Surroundings) (arguments : List String) : String :=
  match ((s.settings (settingsFile? arguments)).run.run m).1 with
  | .ok settings => ((settings.get .database).map Path.text).getD ""
  | .error _ => ""

/-- What a file of a machine holds. -/
def finalContent (m : Machine) (l : Location) (content : String) : String :=
  match (m.stores.lookup l).map Store.saved with
  | some (.ok text) => text
  | _ => content

/-- Write the files that a run changed, and remove those that it removed. -/
def save (before after : Machine) : IO Unit := do
  for (l, content) in after.tree.files do
    let content := finalContent after l content
    if (before.tree.content? l).map (finalContent before l) != some content then
      IO.FS.createDirAll (Path.ofLocation l).parent.text
      IO.FS.writeFile (Path.ofLocation l).text content
  for (l, _) in before.tree.files do
    if (after.tree.content? l).isNone then IO.FS.removeFile (Path.ofLocation l).text

/-- Carry out a command line and give the exit code. A worker takes a step for every pending job. -/
def run (arguments : List String) : IO UInt32 := do
  let here := (Path.ofText (← IO.currentDir).toString).locate []
  let given ← environment
  let surroundings : Surroundings := ⟨← installed, fun name => given.lookup name⟩
  let time ← now
  let m : Machine := { here
                       clock := Log.epoch * 1000000 + time
                       second := time / 1000000
                       runs := [.refused "processes are not started here"] }
  let m := withDirectory m here
  let m ← (arguments.flatMap namesIn ++ given.map (·.2)).foldlM loadFile m
  let m ← loadFile m (databaseName m surroundings arguments)
  let m ← ((pendingJobs m).flatMap fun j => [j.hookUrl, j.demoUrl]).foldlM loadFile m
  let start : Command.Start := { toSurroundings := surroundings
                                 steps := fun w _ => discard (w.poll w.processor)
                                 limit := (pendingJobs m).length }
  let (outcome, after) := (Command.run start arguments).run.run m
  IO.print after.printed
  save m after
  match outcome with
  | .ok ending =>
    IO.eprint ending.errors
    return ending.code.toUInt32
  | .error f =>
    IO.eprintln f.message
    return 1

end Splice.Host

def main (arguments : List String) : IO UInt32 := Splice.Host.run arguments
