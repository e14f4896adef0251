import Splice.Binary64.Printer
import Splice.EditConfig.Basic

/-! # Clip windows

The start and length of the part of each clip that is used. Every generator reads the same four
numbers.
-/

namespace Splice

structure Timing where
  hookStart : Binary64
  hookDuration : Binary64
  demoStart : Binary64
  demoDuration : Binary64

namespace Timing

def framesPerSecond : Nat := 30

/-- A window without length. -/
structure EmptyWindow where
  side : String
  start : Binary64
  duration : Binary64
  /-- The length of the whole clip. -/
  probed : Binary64

def EmptyWindow.message (e : EmptyWindow) : String :=
  e.side ++ " window resolves to " ++ e.duration.fixed 3 ++ "s (start=" ++ e.start.text ++
    ", probed=" ++ e.probed.text ++ "); it must be > 0"

/-- The window of one clip: that of its trim if it is in force, else the whole clip. -/
def window (trim : Option Trim) (probed : Binary64) (side : String) :
    Except EmptyWindow (Binary64 × Binary64) :=
  let (start, duration) := match trim.bind Trim.window? with
    | some (start, finish) => (start, finish - start)
    | none => (0, probed)
  if duration ≤ 0 then .error ⟨side, start, duration, probed⟩ else .ok (start, duration)

/-- The windows of both clips; the hook's is resolved first. -/
def resolve (hookTrim demoTrim : Option Trim) (hookProbed demoProbed : Binary64) :
    Except EmptyWindow Timing := do
  let (hookStart, hookDuration) ← window hookTrim hookProbed "hook"
  let (demoStart, demoDuration) ← window demoTrim demoProbed "demo"
  return ⟨hookStart, hookDuration, demoStart, demoDuration⟩

/-- The frames of a length, one second's worth at least. -/
def frameCount (duration : Binary64) : Except Binary64.WholeError Int :=
  ((duration * .ofInt framesPerSecond).floor).map fun n => max framesPerSecond n

def hookFrames (t : Timing) : Except Binary64.WholeError Int := frameCount t.hookDuration

def demoFrames (t : Timing) : Except Binary64.WholeError Int := frameCount t.demoDuration

end Timing
end Splice
