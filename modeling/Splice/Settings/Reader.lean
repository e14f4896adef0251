import Splice.FileTree
import Splice.PathVariable
import Splice.Settings.Basic
import Splice.Text.Lines
import Splice.Text.LowerCase
import Splice.Text.Numeral
import Splice.Value.Printer
import Splice.Yaml.Document

/-! # Reading settings

Settings come from a file, and from the environment, which wins. Texts in the file may name the
variables that its `paths` entry defines, and its relative paths lead from its own directory.
-/

namespace Splice.Settings

inductive Fault where
  | root
  | unknownKey (key : Value)
  | unknownVariable (key : Value) (e : PathVariable.Error)
  | invalid (key value : Value)
  | unparseable (s : Setting) (value : String)

def Fault.message : Fault → String
  | .root => "Settings file root must be a mapping"
  | .unknownKey key => "Unknown settings key: " ++ key.display
  | .unknownVariable key e => "Settings key " ++ key.display ++ ": " ++ e.message
  | .invalid key value => "Settings key " ++ key.display ++ ": invalid value " ++ value.literal
  | .unparseable s value => s.environmentName ++ ": cannot parse " ++ Text.quoted value

inductive ReadError where
  | fault (f : Fault)
  | yaml (e : Yaml.Error)
  | unwritable
  /-- A path or a path variable is no text. -/
  | wrongType
  /-- A whole number is too large for the kind of its setting. -/
  | tooLarge
  | infinite
  | badPath (f : FileFault) (text : String)
  | missing (path : Path)

def ReadError.message : ReadError → String
  | .fault f => f.message
  | .yaml e => e.message
  | .unwritable => Value.unwritableMessage
  | .wrongType => "expected text"
  | .tooLarge => "int too large to convert to float"
  | .infinite => Binary64.WholeError.ofInfinity.message
  | .badPath f s => FileError.message ⟨f, s⟩
  | .missing p => "Settings file not found: " ++ p.text

inductive ConvertError where
  | invalid
  | tooLarge
  | infinite

/-- The text of bytes of ASCII. -/
def asciiText? (bs : List Nat) : Option String :=
  if bs.all (· < 128) then some (String.ofList (bs.map Char.ofNat)) else none

def orInvalid {α : Type} : Option α → Except ConvertError α
  | some a => .ok a
  | none => .error .invalid

def toNumber : Value → Except ConvertError Binary64
  | .int n => if (Binary64.ofInt n).isFinite then .ok (.ofInt n) else .error .tooLarge
  | .bool b => .ok (.ofInt (Value.boolInt b))
  | .float x => .ok x
  | .text s => orInvalid (Text.number? s)
  | .bytes bs => orInvalid ((asciiText? bs).bind Text.number?)
  | _ => .error .invalid

/-- A value as a whole number; a fraction is cut off. -/
def toWhole : Value → Except ConvertError Int
  | .int n => .ok n
  | .bool b => .ok (Value.boolInt b)
  | .float x =>
    match x.truncate with
    | .ok n => .ok n
    | .error .ofNaN => .error .invalid
    | .error .ofInfinity => .error .infinite
  | .text s => orInvalid (Text.whole? s)
  | .bytes bs => orInvalid ((asciiText? bs).bind Text.whole?)
  | _ => .error .invalid

/-- A key as the name of a setting: hyphens count as underscores, in any case. -/
def keyName (key : Value) : String :=
  String.ofList ((Text.lower (Text.trim key.display)).toList.map fun c => if c = '-' then '_' else c)

/-- The path of a value in a file, with the directory of the file. A relative path is resolved. -/
def toPath (here : Location) (directory : Path) : Value → Except ReadError Path
  | .text s =>
    let p := Path.ofText s
    if p.isAbsolute then .ok p
    else if let some f := FileFault.ofSteps? p then .error (.badPath f s)
    else .ok (Path.ofLocation ((directory.join p).locate here))
  | _ => .error .wrongType

def content (here : Location) (directory : Path) (key value : Value) :
    (kind : SettingKind) → Except ReadError kind.Content
  | .text => if value.isWritable then .ok value.display else .error .unwritable
  | .number => convert (toNumber value)
  | .whole => convert (toWhole value)
  | .path => toPath here directory value
where
  /-- Report a value that is no content. -/
  convert {α : Type} : Except ConvertError α → Except ReadError α
    | .ok a => .ok a
    | .error .invalid =>
      if value.isWritable then .error (.fault (.invalid key value)) else .error .unwritable
    | .error .tooLarge => .error .tooLarge
    | .error .infinite => .error .infinite

/-- A value with its path variables replaced, if it is a text. -/
def expand (paths key : Value) : Value → Except ReadError Value
  | .text s =>
    match PathVariable.substitute paths s with
    | .ok s => .ok (.text s)
    | .error .wrongType => .error .wrongType
    | .error e => .error (.fault (.unknownVariable key e))
  | v => .ok v

def assignment (here : Location) (directory : Path) (paths : Value) (entry : Value × Value) :
    Except ReadError Assignment := do
  if !entry.1.isWritable then throw .unwritable
  match Setting.ofName? (keyName entry.1) with
  | none => throw (.fault (.unknownKey entry.1))
  | some s =>
    let value ← expand paths entry.1 entry.2
    match value with
    | .null => return ⟨s, none⟩
    | value => return ⟨s, some (← content here directory entry.1 value s.kind)⟩

/-- Whether an entry of this key defines the path variables. -/
def isDefinition : Value → Bool
  | .text s => s == "paths"
  | _ => false

def definitions (entries : List (Value × Value)) : Value :=
  match Value.lookup? "paths" entries with
  | some v => if v.isEmpty then .mapping [] else v.opened
  | none => .mapping []

/-- The entries of a file. Where the file's mapping occurs within itself, its definition of path variables
is left out. -/
def entries? : Value → Option (List (Value × Value))
  | .null => some []
  | .mapping entries => some entries
  | .knot id (.mapping entries) =>
    let rest : Value := .knot id (.mapping (entries.filter (!isDefinition ·.1)))
    some (Value.tieEntries id rest entries)
  | _ => none

def ofValue (here : Location) (directory : Path) (v : Value) :
    Except ReadError (List Assignment) :=
  match entries? v with
  | some entries =>
    (entries.filter (!isDefinition ·.1)).mapM (assignment here directory (definitions entries))
  | none => .error (.fault .root)

def ofFile (here : Location) (file : Path) (content : String) :
    Except ReadError (List Assignment) :=
  match Yaml.read (Text.ofFile content) with
  | .ok v => ofValue here file.parent v
  | .error e => .error (.yaml e)

/-- The content that a variable's text gives a setting. -/
def parse (s : String) : (kind : SettingKind) → Option kind.Content
  | .text => some s
  | .number => Text.number? s
  | .whole => Text.whole? s
  | .path => some (Path.ofText s)

/-- What the environment gives. Empty variables count as absent. -/
def ofEnvironment (environment : String → Option String) : Except ReadError (List Assignment) := do
  let given ← Setting.all.mapM fun s =>
    match (environment s.environmentName).filter (!·.isEmpty) with
    | none => .ok none
    | some value =>
      match parse value s.kind with
      | some content => .ok (some (⟨s, some content⟩ : Assignment))
      | none => .error (.fault (.unparseable s value))
  return given.filterMap id

/-- The settings that a file and the environment give, in this order of reading. -/
def load (installed : Installed) (here : Location) (file : Option (Path × String))
    (environment : String → Option String) : Except ReadError Settings := do
  let fromFile ← match file with
    | none => pure []
    | some (path, content) => ofFile here path content
  let fromEnvironment ← ofEnvironment environment
  return ((Settings.default installed).assignAll fromFile).assignAll fromEnvironment

end Splice.Settings
