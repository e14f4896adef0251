import Splice.Failure
import Splice.Log.Outlet

/-! # What a run can see and change

Files, the clock, identifiers, job stores, the network, the engine and the log. An action changes them
and ends with a value or a failure; what it changed before a failure stays changed.
-/

namespace Splice

/-- What the network answers. -/
inductive WebAnswer where
  | response (status : Int) (reason : Option String) (body : String)
  /-- A good response breaks off after a part of its body. -/
  | broken (part reason : String)
  /-- There is no answer. -/
  | failed (reason : String)

inductive ProcessEvent where
  | started (command : List (Option String))
  | listed (command : List (Option String))
  | killed

/-- The surroundings of a run. -/
structure Machine where
  tree : FileTree := {}
  here : Location := []
  clock : Int := 0
  /-- How many identifiers were given out. -/
  issued : Nat := 0
  stores : List (Location × Store) := []
  web : String → WebAnswer := fun _ => .failed "no route"
  /-- How the next processes of the engine go; the last way repeats. -/
  runs : List Engine.Run := []
  listing : Engine.Listing := .printed ""
  /-- The listings that were seen. -/
  knownFilters : List (Option String × List String) := []
  processes : List ProcessEvent := []
  outlet : Log.Outlet := {}
  /-- The second since 1970 that records of the log carry. -/
  second : Int := 0
  /-- The records that were taken, with their weights. -/
  records : List (Int × String) := []
  printed : String := ""
  /-- Whether the worker has a job in flight. -/
  busy : Bool := false
  stopped : Bool := false

/-- A step of a run. -/
abbrev Action (α : Type) := ExceptT Failure (StateM Machine) α

namespace Machine

/-- Give a part of an action's result a failure of this library. -/
def lift {ε α : Type} (because : ε → Failure) : Except ε α → Action α
  | .ok a => pure a
  | .error e => throw (because e)

/-- The microseconds between two readings of the clock. -/
def tick : Int := 1000000

/-- The last microsecond of year 9999. -/
def lastMicro : Int := 3652059 * Instant.microsPerDay - 1

/-- Read the clock. -/
def now : Action String := do
  let m ← get
  if m.clock < 0 ∨ lastMicro < m.clock then throw .clock
  set { m with clock := m.clock + tick }
  return (Instant.mk m.clock.toNat).text

/-- The identifier of a number: its hexadecimal digits in the groups of a random identifier. -/
def identifier (n : Nat) : String :=
  String.ofList (Text.hex 8 n ++ "-0000-4000-8000-".toList ++ Text.hex 12 n)

def freshId : Action String := do
  let m ← get
  set { m with issued := m.issued + 1 }
  return identifier (m.issued + 1)

def printLine (s : String) : Action Unit :=
  modify fun m => { m with printed := m.printed ++ s ++ "\n" }

/-- The machine after a record was written to one file. A record without bytes is left out. -/
def appendRecord (r : Log.Record) (m : Machine) (l : Location) : Machine :=
  if (Text.unencodable? r.fileText).isSome then m
  else
    match m.tree.content? l with
    | some content => { m with tree := m.tree.put l (content ++ r.fileText ++ "\n") }
    | none => m

/-- The machine after a record was written to every outlet. -/
def emit (m : Machine) (r : Log.Record) : Machine :=
  let m := { m with records := m.records ++ [(r.weight, r.message)] }
  let m := if m.outlet.console then { m with printed := m.printed ++ r.consoleText ++ "\n" } else m
  (m.outlet.filesFor r.weight).foldl (appendRecord r) m

def log (source : Log.Source) (level : Log.Level) (message : String) : Action Unit :=
  modify fun m =>
    if m.outlet.isEnabled level.weight then
      m.emit ⟨source.logger, level.weight, message, source.line, m.second⟩
    else m

/-- Apply an operation on files that may meet a fault at a path. -/
def onTree (path : String) (f : FileTree → Location → Except FileFault FileTree) : Action Unit := do
  let m ← get
  match f m.tree m.here with
  | .ok tree => set { m with tree }
  | .error fault => throw (.file ⟨fault, path⟩)

/-- Ask the files a question that may meet a fault at a path. -/
def askTree {α : Type} (path : String) (f : FileTree → Location → Except FileFault α) :
    Action α := do
  let m ← get
  match f m.tree m.here with
  | .ok a => return a
  | .error fault => throw (.file ⟨fault, path⟩)

def makeDirectories (p : Path) : Action Unit := do
  let m ← get
  match m.tree.makeDirectories m.here p with
  | .ok tree => set { m with tree }
  | .error e => throw (.file e)

/-- Write a record of any logger and weight, and say whether it weighs enough. Loggers that are not this
program's have a threshold of their own, and their records are not taken. -/
def record (r : Log.Record) : Action Bool := do
  let m ← get
  if Log.isOwn r.logger then
    if m.outlet.isEnabled r.weight then set (m.emit r)
    return m.outlet.isEnabled r.weight
  return decide (Log.Level.warning.weight ≤ r.weight)

/-- Set up the log. A file is created if it is not there. -/
def setUpLog (threshold : Option Int) (setting : Option String) (file : Option Path) :
    Action Unit := do
  modify fun m => { m with outlet := m.outlet.setUp threshold setting }
  match file with
  | none => return ()
  | some p =>
    makeDirectories p.parent
    let m ← get
    let l := p.locate m.here
    match m.tree.target m.here (Path.ofLocation l) with
    | .error fault => throw (.file ⟨fault, (Path.ofLocation l).text⟩)
    | .ok l =>
      set { m with
        tree := m.tree.put l ((m.tree.content? l).getD "")
        outlet := m.outlet.addFile l }

/-- The content of a setting that must not be set to nothing. -/
def need {α : Type} : Option α → Action α
  | some a => pure a
  | none => throw .unset

end Machine
end Splice
