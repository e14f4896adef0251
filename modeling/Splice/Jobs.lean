import Splice.Machine

/-! # Jobs

The job store of a file, opened for one operation at a time.
-/

namespace Splice

structure Job where
  id : String
  user : String
  hookUrl : String
  demoUrl : String
  hookText : Option String
  editConfig : Option String
  deriving DecidableEq, Repr

def Job.ofRow (r : Store.JobRow) : Job where
  id := (r .id).getD ""
  user := (r .user).getD ""
  hookUrl := (r .hookUrl).getD ""
  demoUrl := (r .demoUrl).getD ""
  hookText := r .hookText
  editConfig := r .editConfig

namespace Jobs

/-- Make sure that there is a job store at a path, and give its place. -/
def openAt (path : Path) : Action Location := do
  Machine.makeDirectories path.parent
  let m ← get
  match m.tree.target m.here path with
  | .error .nullByte => throw (.file ⟨.nullByte, path.text⟩)
  | .error .unencodable => throw (.file ⟨.unencodable, path.text⟩)
  | .error _ => throw (.store .unopened)
  | .ok l =>
    if (m.stores.lookup l).isSome then return l
    match m.tree.content? l with
    | some content =>
      if !content.isEmpty then throw (.other "DatabaseError" "file is not a database")
    | none => pure ()
    set { m with tree := m.tree.put l "", stores := (l, {}) :: m.stores }
    return l

def storeAt (l : Location) : Action Store := do
  match (← get).stores.lookup l with
  | some s => return s
  | none => throw (.store .unopened)

/-- Apply an operation to the store at a place. A fault leaves the store as it was. -/
def change (l : Location) (f : Store → Except Store.Fault Store) : Action Unit := do
  let s ← storeAt l
  let s ← Machine.lift .store (f s)
  modify fun m => { m with stores := (l, s) :: m.stores.filter (·.1 != l) }

def get? (l : Location) (id : Value) : Action (Option Store.JobRow) := do
  let s ← storeAt l
  return s.get? (← Machine.lift .store (Store.cell 1 id))

/-- Add a pending job and give its row. -/
def enqueue (l : Location) (o : Store.Order) : Action (Option Store.JobRow) := do
  let config ← Machine.lift .json (Store.storedConfig o.editConfig)
  let now ← Machine.now
  let id ← Machine.freshId
  change l (·.enqueue id now { o with editConfig := config })
  get? l (.text id)

/-- Move the oldest pending job to processing and give its row. -/
def claim (l : Location) : Action (Option Store.JobRow) := do
  match (← storeAt l).nextPending? with
  | none => return none
  | some row =>
    let now ← Machine.now
    change l (·.start (row .id) now)
    return (← storeAt l).get? (row .id)

/-- Set columns of a job by name. -/
def update (l : Location) (id : Value) (values : List (String × Value)) : Action Unit := do
  match values.find? fun v => Store.reservedNames.contains v.1 with
  | some (name, _) => throw (.store (.reserved name))
  | none =>
    let now ← Machine.now
    change l (·.update id now values)

def markDone (l : Location) (id outputUrl : Value) : Action Unit := do
  let now ← Machine.now
  change l (·.markDone id now outputUrl)

def markError (l : Location) (id message : Value) : Action Unit := do
  let now ← Machine.now
  change l (·.markError id now message)

def addVideo (l : Location) (user url filename storagePath : Value) : Action Unit := do
  let id ← Machine.freshId
  let now ← Machine.now
  change l (·.addVideo id now user url filename storagePath)

def videosOf (l : Location) (user : Value) : Action (List Store.Video) := do
  let s ← storeAt l
  return s.videosOf (← Machine.lift .store (Store.cell 1 user))

/-- Refuse changes of jobs, or allow them again. -/
def setBlocked (l : Location) (blocked : Bool) : Action Unit :=
  change l fun s => .ok { s with blocked }

end Jobs
end Splice
