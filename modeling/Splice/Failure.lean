import Splice.EditConfig.Text
import Splice.Engine
import Splice.FileTree
import Splice.Program
import Splice.Settings.Reader
import Splice.Store.Basic

/-! # Failures

Every cause for which an action may end early. Some of them a job reports as its outcome; the others
end the job and are left to the worker.
-/

namespace Splice

inductive Failure where
  | config (f : EditConfig.Fault)
  /-- A whole number is too long to be written. -/
  | unwritable
  | yaml (e : Yaml.Error)
  | settings (e : Settings.ReadError)
  | program (e : Program.Error)
  | engine (f : Engine.Fault)
  /-- A source cannot be fetched. -/
  | download (url reason : String)
  /-- A key leads out of the storage. -/
  | escape (key : String)
  | upload (reason : String)
  | file (e : FileError)
  /-- A file would be copied onto itself; both are given as literals. -/
  | sameFile (source target : String)
  | store (f : Store.Fault)
  | json (e : Json.WriteError)
  /-- A setting that is set to nothing is needed. -/
  | unset
  | address (reason : String)
  /-- The clock shows a time outside the calendar. -/
  | clock
  | other (kind message : String) (named : kind ≠ "" := by decide)

def FileFault.kind : FileFault → String
  | .missing => "FileNotFoundError"
  | .exists => "FileExistsError"
  | .notDirectory => "NotADirectoryError"
  | .isDirectory => "IsADirectoryError"
  | .nameTooLong => "OSError"
  | .nullByte => "ValueError"
  | .unencodable => "UnicodeEncodeError"

def Store.Fault.kind : Store.Fault → String
  | .empty _ _ => "IntegrityError"
  | .status => "IntegrityError"
  | .duplicate _ _ => "IntegrityError"
  | .blocked => "IntegrityError"
  | .unknownColumn _ => "OperationalError"
  | .unopened => "OperationalError"
  | .unsupported _ _ => "ProgrammingError"
  | .tooLarge => "OverflowError"
  | .reserved _ => "TypeError"
  | .unencodable _ => "UnicodeEncodeError"

/-- The kind of a fault of a YAML text. Faults of form are not told apart. -/
def Yaml.Error.kind : Yaml.Error → String
  | .malformed => "YAMLError"
  | .hugeCodePoint => "OverflowError"
  | .tooManyParts => "OverflowError"
  | .noDigits => "IndexError"
  | .truth _ => "KeyError"
  | .noDate => "AttributeError"
  | .dateOfMapping => "TypeError"
  | .tooDeep => "RecursionError"
  | _ => "ValueError"

/-- The kind of a reason why there are no settings. -/
def Settings.ReadError.kind : Settings.ReadError → String
  | .fault _ => "ConfigError"
  | .yaml e => e.kind
  | .unwritable => "ValueError"
  | .wrongType => "TypeError"
  | .tooLarge => "OverflowError"
  | .infinite => "OverflowError"
  | .badPath f _ => f.kind
  | .missing _ => "FileNotFoundError"

/-- The kind of a reason why there is no program. -/
def Program.Error.kind : Program.Error → String
  | .window _ => "InvalidTrimError"
  | .color _ => "ValueError"
  | .whole .ofNaN => "ValueError"
  | .whole .ofInfinity => "OverflowError"
  | .graph _ => "GraphAssemblyError"
  | .unwritable => "ValueError"

def Engine.Fault.kind : Engine.Fault → String
  | .start _ => "EngineStartError"
  | .filters _ _ => "EngineStartError"
  | .timeout _ => "EngineTimeoutError"
  | .exit _ _ => "EngineExecutionError"

/-- The kind of a value without a JSON form. -/
def Json.WriteError.kind : Json.WriteError → String
  | .circular => "ValueError"
  | .digits => "ValueError"
  | _ => "TypeError"

namespace Failure

def sameFileMessage (source target : String) : String :=
  source ++ " and " ++ target ++ " are the same file"

def message : Failure → String
  | .config f => f.message
  | .unwritable => Value.unwritableMessage
  | .yaml e => e.message
  | .settings e => e.message
  | .program (.window e) => e.message
  | .program (.color e) => e.message
  | .program (.whole e) => e.message
  | .program (.graph f) => f.message
  | .program .unwritable => Value.unwritableMessage
  | .engine f => f.message
  | .download url reason => "Failed to download " ++ url ++ ": " ++ reason
  | .escape key => "Storage key escapes the storage root: " ++ Text.quoted key
  | .upload reason => "Upload failed: " ++ reason
  | .file e => e.message
  | .sameFile source target => sameFileMessage source target
  | .store f => f.message
  | .json e => e.message
  | .unset => "expected str, bytes or os.PathLike object, not NoneType"
  | .address reason => reason
  | .clock => "date value out of range"
  | .other _ message _ => message

def kind : Failure → String
  | .config _ => "ConfigError"
  | .unwritable => "ValueError"
  | .yaml e => e.kind
  | .settings e => e.kind
  | .program e => e.kind
  | .engine f => f.kind
  | .download _ _ => "DownloadError"
  | .escape _ => "UploadError"
  | .upload _ => "UploadError"
  | .file e => e.fault.kind
  | .sameFile _ _ => "SameFileError"
  | .store f => f.kind
  | .json e => e.kind
  | .unset => "TypeError"
  | .address _ => "ValueError"
  | .clock => "OverflowError"
  | .other kind _ _ => kind

/-- The wording of a failure, or its kind if there is none. -/
def summary (f : Failure) : String := if f.message.isEmpty then f.kind else f.message

/-- Whether a job reports a failure as its outcome. -/
def isReported : Failure → Bool
  | .config _ => true
  | .settings (.fault _) => true
  | .program (.window _) => true
  | .program (.graph _) => true
  | .engine _ => true
  | .download _ _ => true
  | .escape _ => true
  | .upload _ => true
  | _ => false

def ofConfig : EditConfig.ReadError → Failure
  | .fault f => .config f
  | .unwritable => .unwritable
  | .yaml e => .yaml e

/-- Whether a failure is one of the file system, and its wording then. -/
def system? : Failure → Option String
  | .file e => if e.fault.system?.isSome then some e.message else none
  | .sameFile source target => some (sameFileMessage source target)
  | _ => none

end Failure
end Splice
