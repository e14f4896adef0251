import Splice.EditConfig.Reader
import Splice.Text.Lines
import Splice.Yaml.Document

/-! # Reading an edit configuration from text

A configuration is a YAML text, which JSON is too. A blank text is the default configuration.
-/

namespace Splice.EditConfig

inductive ReadError where
  | fault (f : Fault)
  /-- A fault that cannot be told, for a whole number in it is too long to be written. -/
  | unwritable
  /-- A fault of the text that is not reported as one of the configuration. -/
  | yaml (e : Yaml.Error)

def ofFault {α : Type} : Except Fault α → Except ReadError α
  | .ok a => .ok a
  | .error f => .error (if f.isWritable then .fault f else .unwritable)

def ofText (s : String) : Except ReadError EditConfig :=
  if Text.isBlankText s then .ok {}
  else
    match Yaml.read s with
    | .ok v => ofFault (ofValue v)
    | .error .malformed => .error (.fault .malformed)
    | .error e => .error (.yaml e)

/-- Read a configuration from any value: text is read as YAML. -/
def read : Value → Except ReadError EditConfig
  | .text s => ofText s
  | v => ofFault (ofValue v)

/-- Read a configuration from the content of a file. A file that holds nothing but a text holds the
text of a configuration. -/
def ofFile (content : String) : Except ReadError EditConfig :=
  match Yaml.read (Text.ofFile content) with
  | .ok v => read v
  | .error e => .error (.yaml e)

end Splice.EditConfig
