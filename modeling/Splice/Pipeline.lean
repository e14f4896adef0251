import Splice.Clip.Reader
import Splice.Invocation
import Splice.Jobs
import Splice.Storage

/-! # Processing a job

Fetch both clips, probe them, compile the program, run the engine, store the output and note it in the
library. The files of a job in the temporary directory are removed whatever happens.
-/

namespace Splice.Pipeline

structure Result where
  success : Bool
  outputUrl : Option String := none
  error : Option String := none
  deriving DecidableEq, Repr

def Result.failed (error : Option String) : Result := ⟨false, none, error⟩

/-- The files of a job in the temporary directory. -/
structure JobFiles where
  hook : Path
  demo : Path
  output : Path

def JobFiles.of (job : Job) (directory : Path) : JobFiles :=
  let file (suffix : String) : Path := directory.join (Path.ofText (job.id ++ suffix))
  ⟨file "-hook.mp4", file "-demo.mp4", file "-output.mp4"⟩

def JobFiles.all (f : JobFiles) : List String := [f.hook.text, f.demo.text, f.output.text]

def source (line : Int) : Log.Source := ⟨"hookcut.pipeline", line⟩

/-- Remove one file; a fault goes to the log. -/
def removeFile (path : String) : Action Unit := do
  let m ← get
  let p := Path.ofText path
  match m.tree.remove m.here p with
  | .ok tree => set { m with tree }
  | .error .missing => pure ()
  | .error .nullByte => throw (.file ⟨.nullByte, path⟩)
  | .error .unencodable => throw (.file ⟨.unencodable, path⟩)
  | .error fault =>
    Machine.log (source 46) .warning
      ("Could not remove " ++ path ++ ": " ++ (⟨fault, p.text⟩ : FileError).message)

def cleanUp (paths : List String) : Action Unit := paths.forM removeFile

def attempt {α : Type} (a : Action α) : Action (Except Failure α) :=
  tryCatch (a.bind fun x => pure (.ok x)) fun f => pure (.error f)

/-- Run two actions one after the other, whatever becomes of the first; the failure of the first
comes before that of the second. -/
def both (a b : Action Unit) : Action Unit := do
  let first ← attempt a
  let second ← attempt b
  match first, second with
  | .error f, _ => throw f
  | _, .error f => throw f
  | _, _ => return ()

def encoderOptions (s : Settings) : EncoderOptions where
  preset := s.get .preset
  quality := match s.get .quality with
    | some n => .int n
    | none => .null
  bitrate := s.get .bitrate
  fonts := ⟨s.get .regularFont, s.get .boldFont⟩

def storedValue : Option String → Value
  | some s => .text s
  | none => .null

def storageKey (job : Job) : String := job.user ++ "/output/" ++ job.id ++ ".mp4"

def outputName (job : Job) : String := "hookcut-" ++ String.ofList (job.id.toList.take 8) ++ ".mp4"

def prepare (job : Job) (s : Settings) (files : JobFiles) : Action Program := do
  let config ← Machine.lift Failure.ofConfig (EditConfig.read (storedValue job.editConfig))
  Machine.log (source 58) .info "   📥 Downloading source videos..."
  both (Storage.download job.hookUrl files.hook) (Storage.download job.demoUrl files.demo)
  let hook ← Clip.probe files.hook.text
  let demo ← Clip.probe files.demo.text
  let program ← Machine.lift .program (Program.compile config
    ⟨files.hook.text, files.demo.text, files.output.text⟩ hook demo job.hookText (encoderOptions s))
  match job.hookText.filter (!·.isEmpty) with
  | some text =>
    Machine.log (source 74) .info ("   📝 Text overlay: \"" ++ text ++ "\" (0-" ++
      program.timing.hookDuration.fixed 1 ++ " seconds)")
  | none => pure ()
  return program

def publish (job : Job) (files : JobFiles) (store : Location) (storage : Storage) :
    Action Result := do
  let url ← storage.upload (.ofPath files.output) (storageKey job)
  Jobs.addVideo store (.text job.user) (.text url) (.text (outputName job))
    (.text (storageKey job))
  return ⟨true, some url, none⟩

def render (job : Job) (s : Settings) (files : JobFiles) (store : Location) (storage : Storage) :
    Action Result := do
  let program ← prepare job s files
  let result ← Invocation.invoke program (s.get .engine) (s.get .engineTimeout)
  if !result.success then return .failed result.error
  let isThere ← Machine.askTree files.output.text fun t here => t.isThere here files.output
  if !isThere then return .failed (some "Output file was not created")
  publish job files store storage

def report (f : Failure) : Action Result :=
  if f.isReported then pure (.failed (some f.message)) else throw f

def process (job : Job) (s : Settings) (store : Location) (storage : Storage) : Action Result := do
  let directory ← Machine.need (s.get .temporary)
  Machine.makeDirectories directory
  let files := JobFiles.of job directory
  let outcome ← attempt (tryCatch (render job s files store storage) report)
  cleanUp files.all
  match outcome with
  | .ok result => return result
  | .error f => throw f

end Splice.Pipeline
