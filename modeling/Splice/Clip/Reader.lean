import Splice.Clip
import Splice.Machine

/-! # Reading clips

A clip states its facts in three words. A clip that cannot be read is no failure: its length and sound
are assumed, and the engine will report what is wrong.
-/

namespace Splice.Clip

/-- The length, if any, and the sound that the content of a clip states, or why it states none. -/
def stated (content : String) : Except String (Option Binary64 × Bool) :=
  match Text.words content with
  | ["clip", length, sound] =>
    let hasAudio := sound == "audio"
    if length = "none" then .ok (none, hasAudio)
    else
      match Text.number? length with
      | some x => .ok (some x, hasAudio)
      | none => .error ("could not convert string to float: " ++ Text.quoted length)
  | _ => .error "not a video"

/-- The facts of a clip at a path; a length that is missing, zero or negative is assumed. -/
def probe (path : String) : Action Clip := do
  let m ← get
  let facts := match m.tree.readAt m.here path with
    | .ok content => stated content
    | .error _ => .error "missing"
  match facts with
  | .error reason =>
    Machine.log ⟨"hookcut.probe", 37⟩ .warning
      ("Probe failed for " ++ path ++ " (" ++ reason ++ "); using " ++
        unknown.duration.fixed 1 ++ "s, no audio")
    return unknown
  | .ok (length, hasAudio) =>
    match length.filter fun x => !x.isZero && !decide (x ≤ 0) with
    | some x => return ⟨x, hasAudio⟩
    | none =>
      Machine.log ⟨"hookcut.probe", 41⟩ .warning
        ("Probe of " ++ path ++ " reported no duration; using " ++ unknown.duration.fixed 1 ++ "s")
      return ⟨unknown.duration, hasAudio⟩

end Splice.Clip
