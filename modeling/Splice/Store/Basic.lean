import Splice.Json.Writer
import Splice.Store.Row

/-! # The job store

A table of jobs and a library of rendered videos. A job is pending, processing, done or in error. The
oldest pending job is the one with the least creation time as text; of equal times the one that was
added first.

Every operation either gives the new store or leaves a fault; there is nothing in between.
-/

namespace Splice

namespace Store

inductive JobColumn where
  | id
  | user
  | hookUrl
  | demoUrl
  | hookText
  | editConfig
  | status
  | outputUrl
  | errorMessage
  | created
  | updated
  deriving DecidableEq, Repr

namespace JobColumn

def all : List JobColumn :=
  [.id, .user, .hookUrl, .demoUrl, .hookText, .editConfig, .status, .outputUrl, .errorMessage,
    .created, .updated]

def name : JobColumn → String
  | .id => "id"
  | .user => "user_id"
  | .hookUrl => "hook_url"
  | .demoUrl => "demo_url"
  | .hookText => "hook_text"
  | .editConfig => "edit_config"
  | .status => "status"
  | .outputUrl => "output_url"
  | .errorMessage => "error_message"
  | .created => "created_at"
  | .updated => "updated_at"

/-- The columns that must not be empty. -/
def isRequired : JobColumn → Bool
  | .user => true
  | .hookUrl => true
  | .demoUrl => true
  | .status => true
  | .created => true
  | .updated => true
  | _ => false

/-- The column of a name; the case of its letters does not matter. -/
def ofName? (s : String) : Option JobColumn := all.find? (·.name == s.toLower)

end JobColumn

/-- A row of the table of jobs. -/
abbrev JobRow := JobColumn → Cell

def JobRow.set (r : JobRow) (c : JobColumn) (v : Cell) : JobRow := fun d => if d = c then v else r d

/-- A row with several cells given anew; later ones win. -/
def JobRow.setAll (r : JobRow) (changes : List (JobColumn × Cell)) : JobRow :=
  changes.foldl (fun r c => JobRow.set r c.1 c.2) r

/-- Check what the table demands of a single row: the columns that must not be empty come first, in
the order of the table. -/
def JobRow.check (r : JobRow) : Except Fault Unit :=
  match JobColumn.all.find? fun c => c.isRequired && (r c).isNone with
  | some c => .error (.empty "video_jobs" c.name)
  | none => if statuses.any fun s => r .status == some s then .ok () else .error .status

structure Video where
  id : String
  user : String
  url : String
  filename : String
  kind : String
  storagePath : String
  created : String
  deriving DecidableEq, Repr

end Store

/-- The tables, in the order in which rows were added. -/
structure Store where
  jobs : List Store.JobRow := []
  videos : List Store.Video := []
  /-- Whether changes of jobs are refused. -/
  blocked : Bool := false

namespace Store

/-- What a new job is made of; the values are stored as text. -/
structure Order where
  user : Value
  hookUrl : Value
  demoUrl : Value
  hookText : Value := .null
  editConfig : Value := .null

/-- A configuration as it is stored: a mapping as JSON, all else as it is. -/
def storedConfig : Value → Except Json.WriteError Value
  | .mapping entries => (Json.write (.mapping entries)).map .text
  | .knot id (.mapping entries) => (Json.write (.knot id (.mapping entries))).map .text
  | v => .ok v

def newRow (id now : String) (user hookUrl demoUrl hookText editConfig : Cell) : JobRow
  | .id => some id
  | .user => user
  | .hookUrl => hookUrl
  | .demoUrl => demoUrl
  | .hookText => hookText
  | .editConfig => editConfig
  | .status => some "pending"
  | .outputUrl => none
  | .errorMessage => none
  | .created => some now
  | .updated => some now

def hasJob (s : Store) (id : Cell) : Bool := id.isSome && s.jobs.any (· .id == id)

/-- Add a pending job under a new key. -/
def enqueue (s : Store) (id now : String) (o : Order) : Except Fault Store := do
  let user ← cell 2 o.user
  let hookUrl ← cell 3 o.hookUrl
  let demoUrl ← cell 4 o.demoUrl
  let hookText ← cell 5 o.hookText
  let editConfig ← cell 6 o.editConfig
  let row := newRow id now user hookUrl demoUrl hookText editConfig
  row.check
  if s.hasJob (some id) then throw (.duplicate "video_jobs" "id")
  return { s with jobs := s.jobs ++ [row] }

def get? (s : Store) (id : Cell) : Option JobRow :=
  if id.isSome then s.jobs.find? (· .id == id) else none

def isPending (r : JobRow) : Bool := r .status == some "pending"

/-- When a job was created, as text. -/
def createdAt (r : JobRow) : String := (r .created).getD ""

/-- The first of two jobs in the order of their creation. -/
def older (a b : JobRow) : JobRow := if createdAt b < createdAt a then b else a

/-- The job with the least creation time, the first one of those with equal times. -/
def oldest? : List JobRow → Option JobRow
  | [] => none
  | r :: rest => some (rest.foldl older r)

def nextPending? (s : Store) : Option JobRow := oldest? (s.jobs.filter isPending)

/-- Change the jobs of a key. A change is refused as a whole if one changed row breaks a rule. -/
def change (s : Store) (id : Cell) (changes : List (JobColumn × Cell)) : Except Fault Store := do
  let hit (r : JobRow) : Bool := id.isSome && r .id == id
  if s.jobs.any hit then
    if s.blocked then throw .blocked
    let changed := ((s.jobs.filter hit).map (JobRow.setAll · changes))
    changed.forM JobRow.check
    let others := s.jobs.filter (!hit ·)
    if changed.any fun r => (r .id).isSome && others.any (· .id == r .id) then
      throw (.duplicate "video_jobs" "id")
  return { s with jobs := s.jobs.map fun r => if hit r then JobRow.setAll r changes else r }

def start (s : Store) (id : Cell) (now : String) : Except Fault Store :=
  s.change id [(.status, some "processing"), (.updated, some now)]

def reservedNames : List String := ["self", "job_id"]

/-- The columns of names, the first unknown one being a fault. -/
def columnsOf (names : List String) : Except Fault (List JobColumn) :=
  names.mapM fun name =>
    match JobColumn.ofName? name with
    | some c => .ok c
    | none => .error (.unknownColumn name)

/-- Set columns of a job by name, and the time of its last change. -/
def update (s : Store) (id : Value) (now : String) (values : List (String × Value)) :
    Except Fault Store := do
  match (values.filterMap fun v => Text.unencodable? v.1).head? with
  | some reason => throw (.unencodable reason)
  | none => pure ()
  let entries := values.filter (·.1 != JobColumn.updated.name)
  let at? := values.findIdx? (·.1 == JobColumn.updated.name)
  let entries := match at? with
    | some i => entries.take i ++ [(JobColumn.updated.name, Value.text now)] ++ entries.drop i
    | none => entries ++ [(JobColumn.updated.name, Value.text now)]
  let columns ← columnsOf (entries.map (·.1))
  let given ← cells 1 (entries.map (·.2) ++ [id])
  s.change given.getLast?.join (columns.zip given)

def markDone (s : Store) (id : Value) (now : String) (outputUrl : Value) : Except Fault Store :=
  s.update id now [("status", .text "done"), ("output_url", outputUrl)]

def markError (s : Store) (id : Value) (now : String) (message : Value) : Except Fault Store :=
  s.update id now [("status", .text "error"), ("error_message", message)]

/-- Demand a cell that is not empty. -/
def required (table column : String) : Cell → Except Fault String
  | some s => .ok s
  | none => .error (.empty table column)

def addVideo (s : Store) (id now : String) (user url filename storagePath : Value) :
    Except Fault Store := do
  let user ← cell 2 user
  let url ← cell 3 url
  let filename ← cell 4 filename
  let storagePath ← cell 5 storagePath
  let user ← required "videos" "user_id" user
  let url ← required "videos" "url" url
  let filename ← required "videos" "filename" filename
  let storagePath ← required "videos" "storage_path" storagePath
  if s.videos.any (·.id == id) then throw (.duplicate "videos" "id")
  return { s with videos := s.videos ++ [⟨id, user, url, filename, "output", storagePath, now⟩] }

/-- The videos of a user in the order of their creation times as text. -/
def videosOf (s : Store) (user : Cell) : List Video :=
  (s.videos.filter fun v => some v.user == user).mergeSort fun a b =>
    decide (a.created ≤ b.created)

end Store
end Splice
