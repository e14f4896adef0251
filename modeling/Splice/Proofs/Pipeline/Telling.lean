import Splice.Proofs.Invocation.Outcome
import Splice.Proofs.Pipeline.Process
import Splice.Proofs.Told

/-! # A job that tells of its steps

A job tells what was read, fetched and compiled, which filters the engine listed, when its process was
started and how it ended, and what was stored and put on the shelf of the library. A step is told when it
is done; of those that change the world outside, the beginning is told as well. Forgetting what is told
leaves `Pipeline.process`, and of the processes that the machine notes as started, all are told.
-/

namespace Splice.Pipeline

open Splice.Action Machine Told

/-- What a job tells. -/
inductive Event where
  | configured (config : EditConfig)
  | fetched (url : String) (target : Path)
  | compiled (p : Program)
  | listed (names : List String)
  | started (command : List (Option String))
  | killed
  | exited (code : Int)
  | found (file : Path)
  | uploading (key : String)
  | uploaded (url : String)
  | shelving (url : String)
  | shelved (url : String)

namespace Telling

def checkFilters (engine : Option String) (required : List String) : Told Event Unit := do
  let available ← call (Invocation.availableFilters engine)
  tell (.listed available)
  let missing := Engine.missing required available
  if !missing.isEmpty then call (throw (.engine (.filters engine missing)))

def conclude (command : List (Option String)) (limit : Option Binary64) : Engine.Run → Told Event Unit
  | .refused reason => call (throw (.engine (.start reason)))
  | .overdue output => do
    call (Invocation.writeOutput command output)
    call (Invocation.note .killed)
    tell .killed
    call (throw (.engine (.timeout limit)))
  | .ended code stderr output => do
    call (Invocation.writeOutput command output)
    tell (.exited code)
    if code ≠ 0 then call (throw (.engine (.exit code stderr)))

def run (command : List (Option String)) (limit : Option Binary64) : Told Event Unit := do
  let text ← call (Machine.need (Program.commandText? command))
  call (Machine.log (Invocation.source 110) .debug ("Running: " ++ text))
  call (Invocation.note (.started command))
  tell (.started command)
  let r ← call Invocation.nextRun
  conclude command limit r

def runAdmitted (p : Program) (engine : Option String) (limit : Option Binary64) :
    Told Event Engine.Result := do
  run (p.command engine) limit
  call (Machine.log (Invocation.source 154) .info "   ✓ ffmpeg completed successfully")
  return {}

def attemptRun (p : Program) (engine : Option String) (limit : Option Binary64) :
    Told Event Engine.Result :=
  if !p.requiredFilters.isEmpty then do
    checkFilters engine p.requiredFilters
    runAdmitted p engine limit
  else runAdmitted p engine limit

def invoke (p : Program) (engine : Option String) (limit : Option Binary64) :
    Told Event Engine.Result := do
  call (Machine.log (Invocation.source 142) .info
    ("   🎬 Running ffmpeg (expected " ++ p.expectedDuration.fixed 1 ++ "s of output)..."))
  handle (attemptRun p engine limit) Invocation.report

def download (url : String) (target : Path) : Told Event Unit := do
  call (Storage.download url target)
  tell (.fetched url target)

def prepare (job : Job) (s : Settings) (files : JobFiles) : Told Event Program := do
  let config ← call (Machine.lift Failure.ofConfig (EditConfig.read (storedValue job.editConfig)))
  tell (.configured config)
  call (Machine.log (source 58) .info "   📥 Downloading source videos...")
  Told.both (download job.hookUrl files.hook) (download job.demoUrl files.demo)
  let hook ← call (Clip.probe files.hook.text)
  let demo ← call (Clip.probe files.demo.text)
  let program ← call (Machine.lift .program (Program.compile config
    ⟨files.hook.text, files.demo.text, files.output.text⟩ hook demo job.hookText (encoderOptions s)))
  tell (.compiled program)
  match job.hookText.filter (!·.isEmpty) with
  | some text =>
    call (Machine.log (source 74) .info ("   📝 Text overlay: \"" ++ text ++ "\" (0-" ++
      program.timing.hookDuration.fixed 1 ++ " seconds)"))
  | none => pure ()
  return program

def publish (job : Job) (files : JobFiles) (store : Location) (storage : Storage) :
    Told Event Result := do
  tell (.uploading (storageKey job))
  let url ← call (storage.upload (.ofPath files.output) (storageKey job))
  tell (.uploaded url)
  tell (.shelving url)
  call (Jobs.addVideo store (.text job.user) (.text url) (.text (outputName job))
    (.text (storageKey job)))
  tell (.shelved url)
  return ⟨true, some url, none⟩

/-- What is left to do for a program that was run with success. -/
def finish (job : Job) (files : JobFiles) (store : Location) (storage : Storage) :
    Told Event Result := do
  let isThere ← call (Machine.askTree files.output.text fun t here => t.isThere here files.output)
  if !isThere then return .failed (some "Output file was not created")
  tell (.found files.output)
  publish job files store storage

def render (job : Job) (s : Settings) (files : JobFiles) (store : Location) (storage : Storage) :
    Told Event Result := do
  let program ← prepare job s files
  let result ← invoke program (s.get .engine) (s.get .engineTimeout)
  if !result.success then return .failed result.error
  finish job files store storage

def process (job : Job) (s : Settings) (store : Location) (storage : Storage) : Told Event Result := do
  let directory ← call (Machine.need (s.get .temporary))
  call (Machine.makeDirectories directory)
  let files := JobFiles.of job directory
  let outcome ← Told.attempt (handle (render job s files store storage) report)
  call (cleanUp files.all)
  match outcome with
  | .ok result => return result
  | .error f => call (throw f)

/-! ## Forgetting what is told -/

theorem silent_checkFilters (engine : Option String) (required : List String) :
    silent (checkFilters engine required) = Invocation.checkFilters engine required := by
  simp only [checkFilters, Invocation.checkFilters, silent_bind, silent_call, silent_tell, pure_bind]
  refine bind_congr fun available => ?_
  split <;> rfl

theorem silent_conclude (command : List (Option String)) (limit : Option Binary64) (r : Engine.Run) :
    silent (conclude command limit r) = Invocation.conclude command limit r := by
  cases r with
  | refused reason => rfl
  | overdue output =>
      simp only [conclude, Invocation.conclude, silent_bind, silent_call, silent_tell, pure_bind]
  | ended code stderr output =>
      simp only [conclude, Invocation.conclude, silent_bind, silent_call, silent_tell, pure_bind]
      refine bind_congr fun _ => ?_
      split <;> rfl

theorem silent_run (command : List (Option String)) (limit : Option Binary64) :
    silent (run command limit) = Invocation.run command limit := by
  simp only [run, Invocation.run_eq, silent_bind, silent_call, silent_tell, pure_bind, silent_conclude]

theorem silent_attemptRun (p : Program) (engine : Option String) (limit : Option Binary64) :
    silent (attemptRun p engine limit) = Invocation.attempt p engine limit := by
  have admitted : silent (runAdmitted p engine limit) = Invocation.runAdmitted p engine limit := by
    simp only [runAdmitted, Invocation.runAdmitted, silent_bind, silent_call, silent_pure, silent_run]
  unfold attemptRun Invocation.attempt
  split
  · simp only [silent_bind, silent_checkFilters, admitted]
  · exact admitted

theorem silent_invoke (p : Program) (engine : Option String) (limit : Option Binary64) :
    silent (invoke p engine limit) = Invocation.invoke p engine limit := by
  simp only [invoke, Invocation.invoke_eq, silent_bind, silent_call, silent_handle, silent_attemptRun]

theorem silent_download (url : String) (target : Path) :
    silent (download url target) = Storage.download url target := by
  simp only [download, silent_bind, silent_call, silent_tell]
  exact bind_pure (Storage.download url target)

theorem silent_prepare (job : Job) (s : Settings) (files : JobFiles) :
    silent (prepare job s files) = Pipeline.prepare job s files := by
  simp only [prepare, Pipeline.prepare, silent_bind, silent_call, silent_tell, pure_bind, silent_both,
    silent_download]
  refine bind_congr fun config => bind_congr fun _ => bind_congr fun _ => bind_congr fun hook =>
    bind_congr fun demo => bind_congr fun program => ?_
  cases job.hookText.filter (!·.isEmpty) <;> rfl

theorem silent_publish (job : Job) (files : JobFiles) (store : Location) (storage : Storage) :
    silent (publish job files store storage) = Pipeline.publish job files store storage := by
  simp only [publish, Pipeline.publish, silent_bind, silent_call, silent_tell, pure_bind, silent_pure]

theorem silent_render (job : Job) (s : Settings) (files : JobFiles) (store : Location)
    (storage : Storage) :
    silent (render job s files store storage) = Pipeline.render job s files store storage := by
  simp only [render, Pipeline.render, silent_bind, silent_prepare, silent_invoke]
  refine bind_congr fun program => bind_congr fun result => ?_
  split
  · rfl
  · simp only [finish, silent_bind, silent_call]
    refine bind_congr fun isThere => ?_
    split
    · rfl
    · simp only [silent_bind, silent_tell, pure_bind, silent_publish]

/-- A job that tells of its steps does what a job does. -/
theorem silent_process (job : Job) (s : Settings) (store : Location) (storage : Storage) :
    silent (process job s store storage) = Pipeline.process job s store storage := by
  simp only [process, Pipeline.process, silent_bind, silent_call, silent_attempt, silent_handle,
    silent_render]
  refine bind_congr fun directory => bind_congr fun _ => bind_congr fun outcome => bind_congr fun _ => ?_
  cases outcome <;> rfl

end Telling

/-! ## The processes that are started -/

/-- The command of a process, where it is started. -/
def commandOf : ProcessEvent → Option (List (Option String))
  | .started command => some command
  | _ => none

def Event.command? : Event → Option (List (Option String))
  | .started command => some command
  | _ => none

/-- The commands that were started on a machine. -/
def starts (m : Machine) : List (List (Option String)) := m.processes.filterMap commandOf

/-- No process is started between two machines. -/
def Startless (m n : Machine) : Prop := starts n = starts m

instance : IsPreorder Machine Startless where
  refl _ := rfl
  trans _ _ _ first second := Eq.trans second first

section Startless

variable {path : String} {paths : List Path}

theorem startless_of_processes {m n : Machine} (h : n.processes = m.processes) : Startless m n := by
  rw [Startless, starts, starts, h]

theorem keeps_log_startless (source : Log.Source) (level : Log.Level) (message : String) :
    Keeps Startless (Machine.log source level message) :=
  (keeps_log_alike source level message).mono fun _ _ h => startless_of_processes h.processes

theorem keeps_onTree_startless {f : FileTree → Location → Except FileFault FileTree} :
    Keeps Startless (Machine.onTree path f) := by
  refine keeps_iff.mpr ⟨fun m _ n h => ?_, fun m _ n h => ?_⟩
  · obtain ⟨tree, -, rfl⟩ := ends_onTree h
    rfl
  · rw [(fails_onTree h).1]
    rfl

theorem keeps_askTree_startless {α : Type} {g : FileTree → Location → Except FileFault α} :
    Keeps Startless (Machine.askTree path g) := by
  refine keeps_iff.mpr ⟨fun m _ n h => ?_, fun m _ n h => ?_⟩
  · rw [(ends_askTree h).2]
    rfl
  · rw [(fails_askTree h).1]
    rfl

theorem keeps_makeDirectories_startless (p : Path) : Keeps Startless (Machine.makeDirectories p) := by
  refine keeps_iff.mpr ⟨fun m _ n h => ?_, fun m _ n h => ?_⟩
  · simp only [Machine.makeDirectories, ends_bind, ends_get] at h
    obtain ⟨_, _, ⟨rfl, rfl⟩, h⟩ := h
    split at h
    · obtain rfl := ends_set.mp h
      rfl
    · exact absurd h not_ends_throw
  · rw [(fails_makeDirectories h).1]
    rfl

theorem keeps_copy_startless (source : Storage.CopySource) (target : Path) :
    Keeps Startless (Storage.copy source target) := by
  refine keeps_iff.mpr ⟨fun m _ n h => ?_, fun m _ n h => ?_⟩
  · obtain ⟨content, l, -, -, -, rfl⟩ := Storage.ends_copy h
    rfl
  · rw [Storage.fails_copy h]
    rfl

theorem keeps_download_startless (url : String) (target : Path) :
    Keeps Startless (Storage.download url target) := by
  have sized :
    Keeps Startless (Storage.sizeAt target >>= fun size => Machine.log (Storage.source 49) .info
      ("   ✓ Downloaded: " ++ target.text ++ " (" ++ toString size ++ " bytes)")) :=
    keeps_bind (keeps_bind keeps_askTree_startless fun _ => keeps_pure _) fun _ =>
      keeps_log_startless _ _ _
  refine keeps_bind (keeps_makeDirectories_startless _) fun _ => keeps_bind (keeps_log_startless _ _ _)
    fun _ => keeps_bind (keeps_lift _ _) fun address => ?_
  split
  · refine keeps_bind (keeps_bind keeps_get fun k => ?_) fun _ => sized
    split
    · exact keeps_throw _
    · exact keeps_bind keeps_onTree_startless fun _ => keeps_throw _
    · split
      · exact keeps_throw _
      · exact keeps_onTree_startless
  · refine keeps_bind keeps_askTree_startless fun isFile => ?_
    split
    · exact keeps_throw _
    · exact keeps_bind (keeps_copy_startless _ _) fun _ => sized

theorem keeps_probe_startless (path : String) : Keeps Startless (Clip.probe path) := by
  refine keeps_bind keeps_get fun k => ?_
  dsimp only
  split
  · exact keeps_bind (keeps_log_startless _ _ _) fun _ => keeps_pure _
  · split
    · exact keeps_pure _
    · exact keeps_bind (keeps_log_startless _ _ _) fun _ => keeps_pure _

theorem keeps_upload_startless (storage : Storage) (file : Storage.CopySource) (key : String) :
    Keeps Startless (storage.upload file key) := by
  have locates : Keeps Startless (storage.locate key) := by
    refine keeps_iff.mpr ⟨fun m _ n h => ?_, fun m _ n h => ?_⟩
    · rw [(Storage.ends_locate.mp h).1]
      rfl
    · rw [Storage.fails_locate h]
      rfl
  have addresses : Keeps Startless (storage.addressOf key) := by
    refine keeps_bind locates fun l => ?_
    split
    · exact keeps_pure _
    · exact keeps_pure _
  have stores (a : Action Unit) (h : Keeps Startless a) : Keeps Startless (Storage.asUpload a) := by
    refine keeps_tryCatch h fun f => ?_
    split
    · exact keeps_throw _
    · exact keeps_throw _
  refine keeps_bind locates fun l => keeps_bind (keeps_log_startless _ _ _) fun _ =>
    keeps_bind (stores _ ?_) fun _ => keeps_bind addresses fun url =>
    keeps_bind (keeps_log_startless _ _ _) fun _ => keeps_pure _
  exact keeps_bind (keeps_makeDirectories_startless _) fun _ => keeps_copy_startless _ _

theorem keeps_addVideo_startless (l : Location) (user url filename storagePath : Value) :
    Keeps Startless (Jobs.addVideo l user url filename storagePath) := by
  refine (Jobs.keeps_addVideo l user url filename storagePath).mono fun m n h => ?_
  rw [h]
  rfl

theorem keeps_removeFile_startless (path : String) : Keeps Startless (removeFile path) := by
  intro m o n h
  rcases gives_bind.mp h with ⟨f, failed, -⟩ | ⟨_, _, got, next⟩
  · exact absurd failed not_fails_get
  obtain ⟨rfl, rfl⟩ := ends_get.mp got
  dsimp only at next
  split at next
  · cases o with
    | ok u =>
        obtain rfl := ends_set.mp (gives_ok.mp next)
        rfl
    | error f => exact absurd (gives_error.mp next) not_fails_set
  · exact keeps_pure () _ _ _ next
  · exact keeps_throw _ _ _ _ next
  · exact keeps_throw _ _ _ _ next
  · exact keeps_log_startless _ _ _ _ _ _ next

theorem keeps_cleanUp_startless (texts : List String) : Keeps Startless (cleanUp texts) := by
  induction texts with
  | nil => exact keeps_pure _
  | cons text rest ih =>
      rw [cleanUp_cons]
      exact keeps_bind (keeps_removeFile_startless text) fun _ => ih

theorem keeps_availableFilters_startless (engine : Option String) :
    Keeps Startless (Invocation.availableFilters engine) := by
  intro m o n h
  obtain ⟨-, rfl⟩ := h.unique (Invocation.gives_availableFilters engine m)
  have unstarted : (m.listings engine).filterMap commandOf = [] := by
    unfold Machine.listings
    split <;> rfl
  rw [Startless, starts, starts, List.filterMap_append, unstarted, List.append_nil]

theorem keeps_nextRun_startless : Keeps Startless Invocation.nextRun := by
  intro m o n h
  obtain ⟨runs, next⟩ := Invocation.exists_ends_nextRun m
  obtain ⟨-, rfl⟩ := h.unique (gives_ok.mpr next)
  rfl

theorem keeps_writeOutput_startless (command : List (Option String)) (output : Option String) :
    Keeps Startless (Invocation.writeOutput command output) := by
  unfold Invocation.writeOutput
  split
  · exact keeps_onTree_startless
  · exact keeps_pure _

end Startless

/-- Of the processes that an action starts, all are told. -/
def Records {α : Type} (x : Told Event α) : Prop :=
  ∀ m o n told, Tells x m o n told → starts n = starts m ++ told.filterMap Event.command?

section Records

variable {α β : Type}

theorem records_pure (a : α) : Records (pure a) := by
  intro m o n told h
  obtain ⟨-, rfl, rfl⟩ := tells_pure.mp h
  simp

theorem records_call {x : Action α} (h : Keeps Startless x) : Records (call x) := by
  intro m o n told tells
  obtain ⟨given, rfl⟩ := tells_call.mp tells
  exact (h m o n given).trans (List.append_nil _).symm

theorem records_tell {e : Event} (other : e.command? = none) : Records (tell e) := by
  intro m o n told h
  obtain ⟨-, rfl, rfl⟩ := tells_tell.mp h
  simp [other]

theorem records_bind {x : Told Event α} {f : α → Told Event β} (first : Records x)
    (later : ∀ a, Records (f a)) : Records (x >>= f) := by
  intro m o n told h
  rcases tells_bind.mp h with ⟨e, failed, -⟩ | ⟨a, k, before, after, ended, rest, rfl⟩
  · exact first _ _ _ _ failed
  · rw [later a _ _ _ _ rest, first _ _ _ _ ended, List.filterMap_append, List.append_assoc]

theorem records_attempt {x : Told Event α} (h : Records x) : Records (Told.attempt x) := by
  intro m o n told tells
  obtain ⟨r, tried, -⟩ := tells_attempt.mp tells
  exact h _ _ _ _ tried

theorem records_handle {x : Told Event α} {handler : Failure → Action α} (h : Records x)
    (later : ∀ f, Keeps Startless (handler f)) : Records (handle x handler) := by
  intro m o n told tells
  rcases tells_handle.mp tells with ⟨a, ended, -⟩ | ⟨f, k, failed, handled⟩
  · exact h _ _ _ _ ended
  · rw [later f _ _ _ handled, h _ _ _ _ failed]

theorem records_both {a b : Told Event Unit} (first : Records a) (second : Records b) :
    Records (Told.both a b) := by
  refine records_bind (records_attempt first) fun x => records_bind (records_attempt second) fun y => ?_
  split
  · exact records_call (keeps_throw _)
  · exact records_call (keeps_throw _)
  · exact records_pure _

end Records

namespace Telling

theorem records_checkFilters (engine : Option String) (required : List String) :
    Records (checkFilters engine required) := by
  refine records_bind (records_call (keeps_availableFilters_startless engine)) fun names =>
    records_bind (records_tell rfl) fun _ => ?_
  dsimp only
  split
  · exact records_call (keeps_throw _)
  · exact records_pure _

theorem records_conclude (command : List (Option String)) (limit : Option Binary64) (r : Engine.Run) :
    Records (conclude command limit r) := by
  have wrote (output : Option String) := records_call (keeps_writeOutput_startless command output)
  cases r with
  | refused reason => exact records_call (keeps_throw _)
  | overdue output =>
      have killed : Keeps Startless (Invocation.note .killed) :=
        keeps_modify fun m => by simp [Startless, starts, commandOf]
      exact records_bind (wrote output) fun _ => records_bind (records_call killed) fun _ =>
        records_bind (records_tell rfl) fun _ => records_call (keeps_throw _)
  | ended code stderr output =>
      refine records_bind (wrote output) fun _ => records_bind (records_tell rfl) fun _ => ?_
      split
      · exact records_call (keeps_throw _)
      · exact records_pure _

/-- A process that is noted as started is told. -/
theorem records_started {command : List (Option String)} {x : Told Event Unit} (h : Records x) :
    Records (call (Invocation.note (.started command)) >>= fun _ =>
    tell (.started command) >>= fun _ => x) := by
  intro m o n told tells
  rcases tells_call_bind.mp tells with ⟨f, failed, -⟩ | ⟨_, k, noted, telling⟩
  · exact absurd failed not_fails_modify
  obtain ⟨more, rest, rfl⟩ := tells_tell_bind.mp telling
  obtain rfl := ends_modify.mp noted
  rw [h _ _ _ _ rest]
  simp [starts, commandOf, Event.command?]

theorem records_run (command : List (Option String)) (limit : Option Binary64) :
    Records (run command limit) :=
  records_bind (records_call (keeps_need _)) fun _ =>
    records_bind (records_call (keeps_log_startless _ _ _)) fun _ => records_started <|
    records_bind (records_call keeps_nextRun_startless) fun r => records_conclude command limit r

theorem records_invoke (p : Program) (engine : Option String) (limit : Option Binary64) :
    Records (invoke p engine limit) := by
  have admitted : Records (runAdmitted p engine limit) :=
    records_bind (records_run _ limit) fun _ =>
      records_bind (records_call (keeps_log_startless _ _ _)) fun _ => records_pure _
  refine records_bind (records_call (keeps_log_startless _ _ _)) fun _ => records_handle ?_ fun f => ?_
  · unfold attemptRun
    split
    · exact records_bind (records_checkFilters engine _) fun _ => admitted
    · exact admitted
  · unfold Invocation.report
    split
    · exact keeps_bind (keeps_log_startless _ _ _) fun _ => keeps_pure _
    · exact keeps_throw _

theorem records_prepare (job : Job) (s : Settings) (files : JobFiles) :
    Records (prepare job s files) := by
  have fetches (url : String) (target : Path) : Records (download url target) :=
    records_bind (records_call (keeps_download_startless url target)) fun _ => records_tell rfl
  refine records_bind (records_call (keeps_lift _ _)) fun config =>
    records_bind (records_tell rfl) fun _ =>
    records_bind (records_call (keeps_log_startless _ _ _)) fun _ =>
    records_bind (records_both (fetches _ _) (fetches _ _)) fun _ =>
    records_bind (records_call (keeps_probe_startless _)) fun hook =>
    records_bind (records_call (keeps_probe_startless _)) fun demo =>
    records_bind (records_call (keeps_lift _ _)) fun p => records_bind (records_tell rfl) fun _ => ?_
  split
  · exact records_bind (records_call (keeps_log_startless _ _ _)) fun _ => records_pure _
  · exact records_pure _

theorem records_finish (job : Job) (files : JobFiles) (store : Location) (storage : Storage) :
    Records (finish job files store storage) := by
  refine records_bind (records_call keeps_askTree_startless) fun isThere => ?_
  split
  · exact records_pure _
  · exact records_bind (records_tell rfl) fun _ => records_bind (records_tell rfl) fun _ =>
      records_bind (records_call (keeps_upload_startless storage _ _)) fun url =>
      records_bind (records_tell rfl) fun _ => records_bind (records_tell rfl) fun _ =>
      records_bind (records_call (keeps_addVideo_startless _ _ _ _ _)) fun _ =>
      records_bind (records_tell rfl) fun _ => records_pure _

theorem records_render (job : Job) (s : Settings) (files : JobFiles) (store : Location)
    (storage : Storage) : Records (render job s files store storage) := by
  refine records_bind (records_prepare job s files) fun p =>
    records_bind (records_invoke p _ _) fun result => ?_
  split
  · exact records_pure _
  · exact records_finish job files store storage

/-- Of the processes that a job starts, all are told. -/
theorem records_process (job : Job) (s : Settings) (store : Location) (storage : Storage) :
    Records (process job s store storage) := by
  have reports (f : Failure) : Keeps Startless (report f) := by
    unfold report
    split
    · exact keeps_pure _
    · exact keeps_throw _
  refine records_bind (records_call (keeps_need _)) fun directory =>
    records_bind (records_call (keeps_makeDirectories_startless _)) fun _ =>
    records_bind (records_attempt (records_handle (records_render job s _ store storage) reports))
      fun outcome => records_bind (records_call (keeps_cleanUp_startless _)) fun _ => ?_
  split
  · exact records_pure _
  · exact records_call (keeps_throw _)

end Telling
end Splice.Pipeline
