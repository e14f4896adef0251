import Splice.Binary64.Printer
import Splice.EditConfig.Basic

/-! # Camera effects

Zooms, a pan and a crop on the canonical frame. Zoom and pan are expressions of the output frame's
number `on`, so that every frame is fixed by its number alone.
-/

namespace Splice.CameraEffect

def frameWidth : Nat := 1080

def frameHeight : Nat := 1920

/-- The extra zoom at the last frame, at medium strength. -/
def zoomInSpan : Binary64 := 0.15

/-- The extra zoom after the ramp of a punch, at medium strength. -/
def punchSpan : Binary64 := 0.2

def punchRampShare : Binary64 := 0.2

def panZoom : Binary64 := 1.1

/-- The way of a pan to either side of the centre, as a share of the height, at medium strength. -/
def panTravel : Binary64 := 0.05

/-- The longest way that the zoom of a pan leaves room for, `(1 - 1 / 1.1) / 2` cut to four places. -/
def panTravelLimit : Binary64 := 0.0454

def cropSpan : Binary64 := 0.1

def centerX : String := "iw/2-(iw/zoom/2)"

def centerY : String := "ih/2-(ih/zoom/2)"

def frameSize (sign : String) : String := toString frameWidth ++ sign ++ toString frameHeight

/-- The filter that zooms by `z` at the place `x`, `y`, frame by frame. -/
def zoomPan (z x y : String) : String :=
  "zoompan=z='" ++ z ++ "':x='" ++ x ++ "':y='" ++ y ++ "':d=1:s=" ++ frameSize "x" ++ ":fps=30"

/-- A steady zoom from 1 at the first frame to its peak at frame `frames`. -/
def zoomIn (multiplier : Binary64) (frames : Int) : String :=
  let span := zoomInSpan * multiplier
  zoomPan ("min(1+" ++ span.fixed 4 ++ "*on/" ++ toString frames ++ "," ++ (1 + span).fixed 4 ++ ")")
    centerX centerY

def punchRamp (frames : Int) : Except Binary64.WholeError Int :=
  ((Binary64.ofInt frames * punchRampShare).floor).map fun n => max 1 n

/-- A fast zoom to the peak during the ramp, which then holds. -/
def punchZoom (multiplier : Binary64) (frames : Int) : Except Binary64.WholeError String := do
  let span := punchSpan * multiplier
  let ramp ← punchRamp frames
  return zoomPan ("if(lte(on," ++ toString ramp ++ "),1+" ++ span.fixed 4 ++ "*on/" ++
    toString ramp ++ "," ++ (1 + span).fixed 4 ++ ")") centerX centerY

/-- A travel from above the centre to below it at a fixed zoom. The way is capped so that the picture
moves on every frame. -/
def verticalPan (multiplier : Binary64) (frames : Int) : String :=
  let travel := Binary64.min (panTravel * multiplier) panTravelLimit
  zoomPan panZoom.text centerX
    (centerY ++ "+ih*" ++ travel.fixed 4 ++ "*(2*min(on/" ++ toString frames ++ ",1)-1)")

structure CropGeometry where
  width : Int
  height : Int
  x : Int
  y : Int
  deriving DecidableEq, Repr

/-- The even number nearest to a length of the frame times a factor. -/
def evenLength (length : Nat) (factor : Binary64) : Except Binary64.WholeError Int :=
  ((Binary64.ofInt length * factor / 2).nearest).map fun n => 2 * n

/-- The geometry of a centred crop. Even sizes make both corners whole pixels. -/
def cropGeometry (multiplier : Binary64) : Except Binary64.WholeError CropGeometry := do
  let factor := 1 + cropSpan * multiplier
  let width ← evenLength frameWidth factor
  let height ← evenLength frameHeight factor
  return ⟨width, height, Int.fdiv (width - frameWidth) 2, Int.fdiv (height - frameHeight) 2⟩

def centerCrop (multiplier : Binary64) : Except Binary64.WholeError String := do
  let g ← cropGeometry multiplier
  return "scale=" ++ toString g.width ++ ":" ++ toString g.height ++ ",crop=" ++ frameSize ":" ++
    ":" ++ toString g.x ++ ":" ++ toString g.y

/-- The filter of an effect for a count of frames; empty for none and for unknown kinds. -/
def filter (effect : Option Effect) (frames : Int) : Except Binary64.WholeError String :=
  match effect with
  | none => .ok ""
  | some e =>
    if e.kind = "zoom-in" then .ok (zoomIn e.multiplier frames)
    else if e.kind = "punch-zoom" then punchZoom e.multiplier frames
    else if e.kind = "vertical-pan" then .ok (verticalPan e.multiplier frames)
    else if e.kind = "center-crop" then centerCrop e.multiplier
    else .ok ""

end Splice.CameraEffect
