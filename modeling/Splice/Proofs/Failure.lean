import Splice.Failure
import Splice.Proofs.Diagnostic

/-! # What failures say

Every failure that a job reports has a message that is not empty.
-/

namespace Splice

theorem EditConfig.Fault.message_ne_empty (f : EditConfig.Fault) : f.message ≠ "" := by
  cases f with
  | malformed | rootNotMapping | unwritable => decide
  | endMissing name => exact append_ne_empty_right name (by decide)
  | unknownKeys | color => exact append_ne_empty_left (by decide) _
  | fontSize | weight | audioSource =>
      exact append_ne_empty_left (append_ne_empty_left (by decide) _) _
  | percentRange =>
      exact append_ne_empty_left (append_ne_empty_left (append_ne_empty_left (by decide) _) _) _
  | _ => exact append_ne_empty_left (append_ne_empty_right _ (by decide)) _

theorem Settings.Fault.message_ne_empty (f : Settings.Fault) : f.message ≠ "" := by
  cases f with
  | root => decide
  | unknownKey => exact append_ne_empty_left (by decide) _
  | unparseable => exact append_ne_empty_left (append_ne_empty_right _ (by decide)) _
  | _ => exact append_ne_empty_left (append_ne_empty_left (append_ne_empty_left (by decide) _) _) _

theorem FilterGraph.Fault.message_ne_empty (f : FilterGraph.Fault) : f.message ≠ "" := by
  cases f with
  | undeclaredMap | unused => exact append_ne_empty_left (by decide) _
  | consumedTwice | producedTwice => exact append_ne_empty_right _ (by decide)
  | noInput | undeclared => exact append_ne_empty_right _ (by decide)
  | emptyChain => exact append_ne_empty_left (append_ne_empty_right _ (by decide)) _

theorem Timing.EmptyWindow.message_ne_empty (e : Timing.EmptyWindow) : e.message ≠ "" :=
  append_ne_empty_right _ (by decide)

theorem Engine.Fault.message_ne_empty (f : Fault) : f.message ≠ "" := by
  cases f with
  | start => exact append_ne_empty_left (by decide) _
  | filters => exact append_ne_empty_right _ (by decide)
  | timeout => exact append_ne_empty_right _ (by decide)
  | exit => exact Diagnostic.summary_ne_empty _ _

/-- A failure that is reported says what is wrong. -/
theorem Failure.message_ne_empty {f : Failure} (h : f.isReported = true) : f.message ≠ "" := by
  cases f with
  | config f => exact f.message_ne_empty
  | settings e =>
      cases e with
      | fault f => exact f.message_ne_empty
      | _ => cases h
  | program e =>
      cases e with
      | window e => exact e.message_ne_empty
      | graph f => exact f.message_ne_empty
      | _ => cases h
  | engine f => exact f.message_ne_empty
  | download url reason =>
      exact append_ne_empty_left (append_ne_empty_left (append_ne_empty_left (by decide) url) _) reason
  | escape key => exact append_ne_empty_left (by decide) _
  | upload reason => exact append_ne_empty_left (by decide) reason
  | _ => cases h

end Splice
