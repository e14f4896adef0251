import Splice.EditConfig.Basic
import Splice.EditConfig.Keys
import Splice.Text.Numeral

/-! # Reading an edit configuration from plain data

Every section is optional. What a section holds is checked and completed with defaults; the first
fault, in the order of the sections, is reported.
-/

namespace Splice.EditConfig

/-- Faults of an edit configuration. -/
inductive Fault where
  | malformed
  | rootNotMapping
  | keyNotText (place : String) (key : Value)
  | unknownKeys (keys : List String)
  | sectionNotMapping (name : String) (value : Value)
  | notNumber (name : String) (value : Value)
  | notFinite (name : String) (value : Value)
  | notBoolean (name : String) (value : Value)
  | negativeStart (name : String) (start : Binary64)
  | endMissing (name : String)
  | fontSize (name : String)
  | weight (name : String)
  | color (e : Color.ReadError)
  | percentRange (axis : String) (percent : Binary64)
  | audioSource (value : Value)
  /-- A value that a name is read from holds a whole number too long to be written. -/
  | unwritable

def Fault.message : Fault → String
  | .malformed => "Edit config is not valid YAML/JSON: <yaml error>"
  | .rootNotMapping => "Edit config root must be a mapping"
  | .keyNotText place key => place ++ ": keys must be strings, got " ++ key.literal
  | .unknownKeys keys => "Unknown edit config key(s): " ++ Text.quotedList keys
  | .sectionNotMapping name v => name ++ " must be a mapping, got " ++ v.literal
  | .notNumber name v => name ++ " must be a number, got " ++ v.literal
  | .notFinite name v => name ++ " must be a finite number, got " ++ v.literal
  | .notBoolean name v => name ++ " must be a boolean, got " ++ v.literal
  | .negativeStart name x => name ++ " must be >= 0, got " ++ x.text
  | .endMissing name => name ++ ".end is required unless use_full_clip is true"
  | .fontSize name =>
    "text_style: invalid font_size '" ++ name ++ "'. Valid: ['large', 'medium', 'small']"
  | .weight name => "text_style: invalid weight '" ++ name ++ "'. Valid: ['bold', 'normal']"
  | .color e => "text_style: " ++ e.message
  | .percentRange axis x => "text_position." ++ axis ++ " must be within 0-100, got " ++ x.text
  | .audioSource v =>
    "Invalid audio_source '" ++ v.display ++ "'. Valid: ['both', 'demo', 'hook', 'none']"
  | .unwritable => Value.unwritableMessage

/-- Whether a fault can be told: the value that it tells of must be writable. -/
def Fault.isWritable : Fault → Bool
  | .keyNotText _ key => key.isWritable
  | .sectionNotMapping _ v => v.isWritable
  | .notNumber _ v => v.isWritable
  | .notFinite _ v => v.isWritable
  | .notBoolean _ v => v.isWritable
  | .audioSource v => v.isWritable
  | .unwritable => false
  | _ => true

def sectionNames : List String :=
  ["hook_trim", "demo_trim", "transition", "hook_effect", "demo_effect", "text_style",
    "text_position", "audio_source"]

/-- The entries of a section; none if it is absent or null. -/
def section? (value : Option Value) (name : String) : Except Fault (Option Section) :=
  match value with
  | none => .ok none
  | some v =>
    match v.opened with
    | .null => .ok none
    | .mapping entries =>
      match canonicalEntries entries with
      | .ok s => .ok (some s)
      | .error key => .error (.keyNotText name key)
    | _ => .error (.sectionNotMapping name v)

/-- The binary64 number of a numeric value or numeral, if it has one. -/
def numberOf? : Value → Option Binary64
  | .int n =>
    match Binary64.ofInt n with
    | .infinite _ => none
    | x => some x
  | .float x => some x
  | .text s => Text.number? s
  | _ => none

def finite (v : Value) (name : String) : Except Fault Binary64 :=
  match numberOf? v with
  | none => .error (.notNumber name v)
  | some x => if x.isFinite then .ok x else .error (.notFinite name v)

/-- A truth value; false where it is absent. -/
def boolean (v : Option Value) (name : String) : Except Fault Bool :=
  match v with
  | none => .ok false
  | some (.bool b) => .ok b
  | some v => .error (.notBoolean name v)

/-- A name: the text of a value, or the default for an empty one, in small letters without blanks
around it. -/
def nameOf (v : Option Value) (default : String) : Except Fault String :=
  match v.filter (!·.isEmpty) with
  | none => .ok default
  | some v => if v.isWritable then .ok (Text.lower (Text.trim v.display)) else .error .unwritable

def readTrim (value : Option Value) (name : String) : Except Fault (Option Trim) := do
  match ← section? value name with
  | none => return none
  | some s =>
    let useFull ← boolean (s.get? "use_full_clip") (name ++ ".use_full_clip")
    let start ← finite ((s.get? "start").getD (.float 0)) (name ++ ".start")
    if start < 0 then throw (.negativeStart (name ++ ".start") start)
    match (s.get? "end").getD .null with
    | .null =>
      if useFull then return some ⟨start, none, true⟩
      else throw (.endMissing name)
    | v =>
      let finish ← finite v (name ++ ".end")
      return some ⟨start, some finish, useFull⟩

def readEffect (value : Option Value) (name : String) : Except Fault (Option Effect) := do
  match value with
  | some (.text kind) => return some { kind := Text.lower (Text.trim kind) }
  | value =>
    match ← section? value name with
    | none => return none
    | some s =>
      let kind ← nameOf (s.get? "kind") "none"
      let intensity ← nameOf (s.get? "intensity") "medium"
      return some ⟨kind, intensity⟩

def readTransition (value : Option Value) : Except Fault (Option Transition) := do
  match value with
  | some (.text kind) => return some { kind := Text.lower (Text.trim kind) }
  | value =>
    match ← section? value "transition" with
    | none => return none
    | some s =>
      let kind ← nameOf (s.get? "kind") "cut"
      let length ← finite ((s.get? "duration_ms").getD (.int 0)) "transition.duration_ms"
      return some ⟨kind, length⟩

/-- The value of a colour entry; white for an empty one. -/
def colorValue (v : Option Value) : Value :=
  match v with
  | none => .text "white"
  | some v => if v.isEmpty then .text "white" else v

def readTextStyle (value : Option Value) : Except Fault (Option TextStyle) := do
  match ← section? value "text_style" with
  | none => return none
  | some s =>
    let fontSize ← nameOf (s.get? "font_size") "medium"
    if (fontSizes.lookup fontSize).isNone then throw (.fontSize fontSize)
    let weight ← nameOf (s.get? "weight") "normal"
    if weight ≠ "normal" ∧ weight ≠ "bold" then throw (.weight weight)
    let color := colorValue (s.get? "color")
    match Color.ofValue color with
    | .error e => throw (.color e)
    | .ok _ =>
      let background ← boolean (s.get? "background") "text_style.background"
      return some ⟨fontSize, color, weight, background⟩

def percent (s : Section) (axis : String) : Except Fault Binary64 := do
  let x ← finite ((s.get? axis).getD (.float 50)) ("text_position." ++ axis)
  if 0 ≤ x ∧ x ≤ 100 then return x else throw (.percentRange axis x)

def readTextPosition (value : Option Value) : Except Fault (Option TextPosition) := do
  match ← section? value "text_position" with
  | none => return none
  | some s =>
    let x ← percent s "x_percent"
    let y ← percent s "y_percent"
    return some ⟨x, y⟩

def readAudioSource (value : Option Value) : Except Fault AudioSource :=
  match value.getD .null with
  | .null => .ok .both
  | v =>
    match AudioSource.ofName? (Text.lower (Text.trim v.display)) with
    | some a => .ok a
    | none => .error (.audioSource v)

/-- The names that are no section, sorted and without repetition. -/
def unknownKeys (s : Section) : List String :=
  (((s.map (·.1)).filter (!sectionNames.contains ·)).eraseDups).mergeSort Text.isOrdered

def ofEntries (entries : List (Value × Value)) : Except Fault EditConfig := do
  match canonicalEntries entries with
  | .error key => throw (.keyNotText "edit config" key)
  | .ok s =>
    let unknown := unknownKeys s
    if !unknown.isEmpty then throw (.unknownKeys unknown)
    let hookTrim ← readTrim (s.get? "hook_trim") "hook_trim"
    let demoTrim ← readTrim (s.get? "demo_trim") "demo_trim"
    let transition ← readTransition (s.get? "transition")
    let hookEffect ← readEffect (s.get? "hook_effect") "hook_effect"
    let demoEffect ← readEffect (s.get? "demo_effect") "demo_effect"
    let textStyle ← readTextStyle (s.get? "text_style")
    let textPosition ← readTextPosition (s.get? "text_position")
    let audioSource ← readAudioSource (s.get? "audio_source")
    return ⟨hookTrim, demoTrim, transition, hookEffect, demoEffect, textStyle, textPosition,
      audioSource⟩

/-- Read a configuration from a value that is not text. -/
def ofValue (v : Value) : Except Fault EditConfig :=
  match v.opened with
  | .null => .ok {}
  | .mapping entries => ofEntries entries
  | _ => .error .rootNotMapping

end Splice.EditConfig
