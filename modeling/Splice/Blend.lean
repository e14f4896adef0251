import Splice.Binary64.Printer
import Splice.EditConfig.Basic

/-! # Blends between the clips

A blend of positive length starts that much before the end of the hook, or at its start if it is
longer than the hook. All else is a hard cut.
-/

namespace Splice

/-- A blend of `duration` seconds that starts `offset` seconds into the hook. -/
structure Blend where
  kind : String
  duration : Binary64
  offset : Binary64

namespace Blend

def zoomLimit : Binary64 := 0.3

/-- The engine's name of a kind of transition; hard cuts and unknown kinds have none. -/
def engineKind? (kind : String) : Option String :=
  [("crossfade", "fade"), ("push-up", "slideup"), ("zoom-cut", "zoomin")].lookup kind

/-- The length of a blend: a zoom is capped. -/
def length (t : Transition) : Binary64 :=
  if t.kind = "zoom-cut" then Binary64.min t.seconds zoomLimit else t.seconds

/-- Where a blend starts in the hook; never before its start. -/
def startIn (hookDuration duration : Binary64) : Binary64 :=
  Binary64.max 0 (hookDuration - duration)

/-- The blend of a transition after a hook of the given length; none means a hard cut. -/
def plan? (transition : Option Transition) (hookDuration : Binary64) : Option Blend := do
  let t ← transition
  let kind ← engineKind? t.kind
  if t.seconds ≤ 0 then none
  else some ⟨kind, length t, startIn hookDuration (length t)⟩

def filter (b : Blend) : String :=
  "xfade=transition=" ++ b.kind ++ ":duration=" ++ b.duration.fixed 3 ++ ":offset=" ++
    b.offset.fixed 3

def outputDuration (b : Blend) (demoDuration : Binary64) : Binary64 := b.offset + demoDuration

end Blend
end Splice
