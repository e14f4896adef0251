import Splice.Binary64.Printer
import Splice.Diagnostic
import Splice.Text.Quoted
import Splice.Text.Surrogate

/-! # The media engine

How a run of the engine may go, what is wrong when it gives no output, and which filters it was built
with.
-/

namespace Splice.Engine

inductive Run where
  | refused (reason : String)
  /-- It does not end in time; the output file may be begun by then. -/
  | overdue (output : Option String := none)
  /-- It ends; the output file is written if there is a content for it. -/
  | ended (code : Int) (stderr : String) (output : Option String)
  deriving DecidableEq, Repr

inductive Listing where
  | refused (reason : String)
  | overdue
  | printed (text : String)
  deriving DecidableEq, Repr

inductive Fault where
  | start (reason : String)
  | filters (engine : Option String) (missing : List String)
  | timeout (limit : Option Binary64)
  | exit (code : Int) (stderr : String)

/-- The text of a setting that may be set to nothing. -/
def orNone : Option String → String
  | some s => s
  | none => "None"

def Fault.message : Fault → String
  | .start reason => "ffmpeg failed to start: " ++ reason
  | .filters engine missing =>
    "ffmpeg at " ++ orNone engine ++ " has no " ++ ", ".intercalate missing ++
      " filter; text overlays need an ffmpeg built with libfreetype (set HOOKCUT_FFMPEG to one)"
  | .timeout limit =>
    "ffmpeg timed out after " ++ (limit.map Binary64.generalText).getD "None" ++ "s and was killed"
  | .exit code stderr => Diagnostic.summary (some stderr) (some code)

def Fault.isTimeout : Fault → Bool
  | .timeout _ => true
  | _ => false

structure Result where
  error : Option String := none
  timedOut : Bool := false

def Result.success (r : Result) : Bool := r.error.isNone

def listingCommand (engine : Option String) : List (Option String) :=
  [engine, some "-hide_banner", some "-filters"]

def argumentLiteral : Option String → String
  | some s => Text.quoted s
  | none => "None"

def listingOverdue (engine : Option String) : String :=
  "Command '[" ++ ", ".intercalate ((listingCommand engine).map argumentLiteral) ++
    "]' timed out after 30 seconds"

/-- The filter that a line of the listing names. Such a line has flags, a name and a word with an arrow
between its inputs and outputs. -/
def filterOfLine? (line : String) : Option String :=
  match Text.words line with
  | _ :: name :: pads :: _ => if Text.occursIn ['-', '>'] pads.toList then some name else none
  | _ => none

def filterNames (text : String) : List String := ((Text.lines text).filterMap filterOfLine?).eraseDups

/-- Texts in the order of their code points. -/
def sorted (xs : List String) : List String := xs.mergeSort Text.isOrdered

/-- The filters that are required and not available, each once, in order. -/
def missing (required available : List String) : List String :=
  sorted (required.eraseDups.filter (!available.contains ·))

end Splice.Engine
