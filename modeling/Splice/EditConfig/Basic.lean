import Splice.Color.Basic

/-! # Edit configurations

What is to be done with the two clips: the parts of each that are used, the effects, the blend
between them, the text over the hook, and the sound. Kinds of effects and blends are free text here;
unknown kinds mean no effect and a hard cut.
-/

namespace Splice

/-- The part of a clip that is used, in seconds. -/
structure Trim where
  start : Binary64 := 0
  finish : Option Binary64 := none
  useFullClip : Bool := false

/-- The window of a trim that is in force; none if the whole clip is used. -/
def Trim.window? (t : Trim) : Option (Binary64 × Binary64) :=
  if t.useFullClip then none else t.finish.map fun finish => (t.start, finish)

def Trim.active (t : Trim) : Bool := t.window?.isSome

structure Effect where
  kind : String := "none"
  intensity : String := "medium"

/-- The factor of an effect's strength; unknown names are medium. -/
def Effect.multiplier (e : Effect) : Binary64 :=
  if e.intensity = "subtle" then 0.5 else if e.intensity = "strong" then 1.5 else 1

structure Transition where
  kind : String := "cut"
  milliseconds : Binary64 := 0

def Transition.seconds (t : Transition) : Binary64 := t.milliseconds / 1000

structure TextStyle where
  fontSize : String := "medium"
  color : Value := .text "white"
  weight : String := "normal"
  background : Bool := false

def fontSizes : List (String × Nat) := [("small", 48), ("medium", 72), ("large", 96)]

/-- The size of the text in pixels; unknown names are medium. -/
def TextStyle.pixels (s : TextStyle) : Nat := (fontSizes.lookup s.fontSize).getD 72

def TextStyle.bold (s : TextStyle) : Bool := s.weight == "bold"

/-- The centre of the text in percent of the frame, from the top left. -/
structure TextPosition where
  xPercent : Binary64 := 50
  yPercent : Binary64 := 50

inductive AudioSource where
  | hook
  | demo
  | both
  | none
  deriving DecidableEq, Repr

namespace AudioSource

def name : AudioSource → String
  | hook => "hook"
  | demo => "demo"
  | both => "both"
  | none => "none"

def ofName? (s : String) : Option AudioSource :=
  [hook, demo, both, none].find? (·.name == s)

/-- The wording for a value that names no choice of sound. -/
def unknownMessage (v : Value) : String := v.literal ++ " is not a valid AudioSource"

end AudioSource

structure EditConfig where
  hookTrim : Option Trim := none
  demoTrim : Option Trim := none
  transition : Option Transition := none
  hookEffect : Option Effect := none
  demoEffect : Option Effect := none
  textStyle : Option TextStyle := none
  textPosition : Option TextPosition := none
  audioSource : AudioSource := .both

end Splice
