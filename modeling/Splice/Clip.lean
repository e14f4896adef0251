import Splice.Binary64.Basic

/-! # Clips

What is known of a clip before it is used: its length, and whether it has sound.
-/

namespace Splice

structure Clip where
  duration : Binary64
  hasAudio : Bool

/-- What is assumed of a clip that cannot be read. -/
def Clip.unknown : Clip := ⟨5, false⟩

end Splice
