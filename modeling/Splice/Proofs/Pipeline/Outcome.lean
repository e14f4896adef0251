import Splice.Proofs.Failure
import Splice.Proofs.Pipeline.Process

/-! # The outcome of a job

A job that has an outcome either succeeds with an address, or fails with a message; neither is empty.
A failure that is reported is such an outcome. Failures of other kinds end the job without one: an
address that cannot be taken apart is enough.
-/

namespace Splice

open Splice.Action Machine

variable {m n : Machine}

/-- The address of a stored output is not empty. -/
theorem Storage.ends_upload_address {s : Storage} {file : CopySource} {key url : String}
    (h : Ends (s.upload file key) m url n) : url ≠ "" := by
  simp only [upload, ends_bind, ends_pure] at h
  obtain ⟨_, _, -, _, _, -, _, _, -, _, _, addressed, _, _, -, rfl, -⟩ := h
  obtain ⟨l, _, -, addressed⟩ := ends_bind.mp addressed
  split at addressed
  · obtain ⟨rfl, -⟩ := ends_pure.mp addressed
    exact append_ne_empty_left (append_ne_empty_right _ (by decide)) key
  · obtain ⟨rfl, -⟩ := ends_pure.mp addressed
    exact append_ne_empty_left (by decide) _

namespace Pipeline

/-- An outcome says where the output is, or what is wrong. -/
inductive Result.Proper : Result → Prop
  | success {url : String} (some_text : url ≠ "") : Proper ⟨true, some url, none⟩
  | failure {text : String} (some_text : text ≠ "") : Proper (.failed (some text))

variable {job : Job} {s : Settings} {files : JobFiles} {store : Location} {storage : Storage}

theorem ends_render_proper {r : Result} (h : Ends (render job s files store storage) m r n) :
    r.Proper := by
  obtain ⟨program, _, -, h⟩ := ends_bind.mp h
  obtain ⟨result, _, invoked, h⟩ := ends_bind.mp h
  split at h
  · rename_i wrong
    obtain ⟨rfl, -⟩ := ends_pure.mp h
    obtain ⟨rfl, -⟩ | ⟨fault, rfl⟩ := Invocation.ends_invoke invoked
    · simp [Engine.Result.success] at wrong
    · exact .failure fault.message_ne_empty
  · obtain ⟨isThere, _, -, h⟩ := ends_bind.mp h
    split at h
    · obtain ⟨rfl, -⟩ := ends_pure.mp h
      exact .failure (by decide)
    · obtain ⟨url, _, stored, h⟩ := ends_bind.mp h
      obtain ⟨_, _, -, h⟩ := ends_bind.mp h
      obtain ⟨rfl, -⟩ := ends_pure.mp h
      exact .success (Storage.ends_upload_address stored)

theorem fails_cleanUp {texts : List String} {f : Failure} (h : Fails (cleanUp texts) m f n) :
    ∃ e, f = .file e := by
  induction texts generalizing m with
  | nil => exact absurd h not_fails_pure
  | cons text rest ih =>
      rw [cleanUp_cons] at h
      rcases fails_bind.mp h with failed | ⟨_, k, -, failed⟩
      · obtain ⟨l, -, absurd, -⟩ | ⟨fault, -, ⟨-, same, -⟩ | ⟨absurd, -⟩⟩ :=
          gives_removeFile (gives_error.mpr failed)
        · cases absurd
        · exact ⟨_, Except.error.inj same⟩
        · cases absurd
      · exact ih failed

theorem reported_proper {o : Except Failure Result} (proper : ∀ r, o = .ok r → r.Proper) :
    (∀ r, reported o = .ok r → r.Proper) ∧ ∀ f, reported o = .error f → f.isReported = false := by
  cases o with
  | ok r =>
      refine ⟨fun q same => ?_, fun f same => ?_⟩
      · exact proper q same
      · cases same
  | error f =>
      simp only [reported]
      split
      · rename_i told
        refine ⟨fun q same => ?_, fun g same => ?_⟩
        · obtain rfl := Except.ok.inj same
          exact .failure (f.message_ne_empty told)
        · cases same
      · rename_i silent
        refine ⟨fun q same => ?_, fun g same => ?_⟩
        · cases same
        · obtain rfl := Except.error.inj same
          simpa using silent

def strayOrder : Store.Order := ⟨.text "u", .text "http://[", .text "b.mp4", .null, .null⟩

def strayStart : Machine where
  stores := [(["jobs.db"], {})]
  outlet := { threshold := Log.Level.warning.weight }

def strayStored : Machine := after (Jobs.enqueue ["jobs.db"] strayOrder) strayStart

def strayJob : Job := ⟨identifier 1, "u", "http://[", "b.mp4", none, none⟩

def stray : Action Result :=
  process strayJob (.default ⟨none, "ffmpeg", fun _ => false⟩) ["jobs.db"]
    (.of (.ofText "storage") none)

theorem stray_fails : ∃ f, Fails stray strayStored f (after stray strayStored) :=
  fails_after (by decide +kernel)

end Pipeline
end Splice
