import Splice.Proofs.Path.Normal
import Splice.Proofs.Storage

/-! # Keys stay below the root

A key is refused exactly when the normal form of its steps, joined to those of the root, is not strictly
below that of the root, and then nothing changes. A key that is not refused is written at its normal form
and nowhere else. A root or a key that the file system cannot be asked about is refused before either.
-/

namespace Splice.Storage

open Splice.Action Machine

variable {s : Storage} {key : String} {m n : Machine}

theorem isBelow_iff {root l : Location} : isBelow root l = true ↔ Path.Below root l := by
  simp only [isBelow, Bool.and_eq_true, List.isPrefixOf_iff_prefix, bne_iff_ne, ne_eq, Path.Below]
  constructor
  · rintro ⟨⟨more, rfl⟩, other⟩
    cases more with
    | nil => simp at other
    | cons first rest => exact ⟨first, rest, rfl⟩
  · rintro ⟨first, rest, rfl⟩
    exact ⟨List.prefix_append _ _, by simp⟩

theorem not_isBelow_iff {root l : Location} : isBelow root l = false ↔ ¬ Path.Below root l := by
  rw [← isBelow_iff, Bool.not_eq_true]

/-- A key leads from the root to its place. -/
theorem placeOf_eq {here : Location} (plain : ".." ∉ here) (s : Storage) (key : String) :
    s.placeOf here key = (Path.ofText key).locate (s.root.locate here) := by
  have root : (s.root.locate here).foldl Path.step [] = s.root.locate here :=
    Path.locate_ofLocation (Path.up_not_mem_locate plain s.root) []
  simp only [placeOf, Path.join]
  generalize s.root.locate here = top at root
  by_cases absolute : (Path.ofText key).isAbsolute = true
  · rw [if_pos absolute]
  · rw [if_neg absolute]
    show (top ++ (Path.ofText key).parts).foldl Path.step [] = (Path.ofText key).locate top
    rw [List.foldl_append, root, Path.locate, if_neg absolute]

/-! ## What becomes of a key -/

theorem gives_addressOf {o : Except Failure String} (h : Gives (s.addressOf key) m o n) :
    n = m ∧ ((∃ e, s.fault? key = some e ∧ o = .error (.file e)) ∨ s.fault? key = none ∧
      ((isBelow (s.root.locate m.here) (s.placeOf m.here key) = false ∧ o = .error (.escape key)) ∨
        isBelow (s.root.locate m.here) (s.placeOf m.here key) = true ∧ ∃ url, o = .ok url)) := by
  rcases gives_bind.mp h with ⟨f, failed, rfl⟩ | ⟨l, k, located, h⟩
  · obtain ⟨rfl, ⟨e, found, rfl⟩ | ⟨clean, outside, rfl⟩⟩ := fails_locate_iff.mp failed
    · exact ⟨rfl, .inl ⟨e, found, rfl⟩⟩
    · exact ⟨rfl, .inr ⟨clean, .inl ⟨outside, rfl⟩⟩⟩
  · obtain ⟨rfl, rfl, clean, below⟩ := ends_locate.mp located
    split at h
    · obtain ⟨rfl, rfl⟩ := gives_pure.mp h
      exact ⟨rfl, .inr ⟨clean, .inr ⟨below, _, rfl⟩⟩⟩
    · obtain ⟨rfl, rfl⟩ := gives_pure.mp h
      exact ⟨rfl, .inr ⟨clean, .inr ⟨below, _, rfl⟩⟩⟩

theorem fails_copy_ne_escape {source : CopySource} {target : Path} {f : Failure}
    (h : Fails (copy source target) m f n) : f ≠ .escape key := by
  simp only [copy, fails_bind, not_fails_get, ends_get, false_or] at h
  obtain ⟨_, _, ⟨rfl, rfl⟩, h⟩ := h
  split at h
  · simp only [fails_bind, not_ends_throw, false_and, exists_false, or_false, fails_throw] at h
    obtain ⟨rfl, -⟩ := h
    simp
  · rcases fails_bind.mp h with failed | ⟨content, k, -, failed⟩
    · obtain ⟨-, fault, -, rfl⟩ := fails_askTree failed
      simp
    · obtain ⟨-, fault, rfl⟩ := fails_onTree failed
      simp

theorem fails_asUpload_ne_escape {a : Action Unit} (other : ∀ e k, Fails a m e k → e ≠ .escape key)
    {f : Failure} (h : Fails (asUpload a) m f n) : f ≠ .escape key := by
  obtain ⟨e, failed, rfl⟩ := fails_asUpload h
  split
  · simp
  · exact other e n failed

/-- An upload refuses a key before anything else is done. -/
theorem locate_of_upload_escape {file : CopySource}
    (h : Fails (s.upload file key) m (.escape key) n) : Fails (s.locate key) m (.escape key) n := by
  rcases fails_upload_cases h with failed | ⟨j, target, -, failed⟩
  · exact failed
  · refine absurd rfl (fails_asUpload_ne_escape (fun e k failed => ?_) failed)
    rcases fails_bind.mp failed with failed | ⟨_, _, -, failed⟩
    · obtain ⟨-, fault, rfl⟩ := fails_makeDirectories failed
      simp
    · exact fails_copy_ne_escape failed

theorem gives_upload {file : CopySource} {o : Except Failure String}
    (h : Gives (s.upload file key) m o n) :
    (n = m ∧ ∃ e, s.fault? key = some e ∧ o = .error (.file e)) ∨ s.fault? key = none ∧
      ((n = m ∧ isBelow (s.root.locate m.here) (s.placeOf m.here key) = false ∧
          o = .error (.escape key)) ∨
        isBelow (s.root.locate m.here) (s.placeOf m.here key) = true ∧ o ≠ .error (.escape key) ∧
          Quiet [.ofLocation (s.placeOf m.here key)] m n) := by
  rcases gives_bind.mp h with ⟨f, failed, rfl⟩ | ⟨l, k, located, -⟩
  · obtain ⟨rfl, ⟨e, found, rfl⟩ | ⟨clean, outside, rfl⟩⟩ := fails_locate_iff.mp failed
    · exact .inl ⟨rfl, e, found, rfl⟩
    · exact .inr ⟨clean, .inl ⟨rfl, outside, rfl⟩⟩
  · obtain ⟨rfl, rfl, clean, below⟩ := ends_locate.mp located
    refine .inr ⟨clean, .inr ⟨below, ?_, ?_⟩⟩
    · rintro rfl
      have failed := locate_of_upload_escape (gives_error.mp h)
      cases (Gives.unique (gives_ok.mpr located) (gives_error.mpr failed)).1
    · cases o with
      | ok url => exact keeps_upload_ended (gives_ok.mp h)
      | error f => exact (fails_upload (gives_error.mp h)).mono (by simp)

/-! ## The law of keys -/

/-- The file system can be asked about every step of a root and a key: none has the null character, or a
surrogate that stands for no byte. -/
def Askable (root key : String) : Prop :=
  ∀ part ∈ (Path.ofText root).parts ++ (Path.ofText key).parts, FileFault.ofText? part = none

instance (root key : String) : Decidable (Askable root key) := by unfold Askable; infer_instance

theorem ofSteps?_eq_none {p : Path} :
    FileFault.ofSteps? p = none ↔ ∀ part ∈ p.parts, FileFault.ofText? part = none := by
  simp [FileFault.ofSteps?, List.findSome?_eq_none_iff]

theorem fault?_eq_none {root : String} {base : Option String} :
    (Storage.of (.ofText root) base).fault? key = none ↔ Askable root key := by
  simp only [fault?, Storage.of, Option.or_eq_none_iff, Option.map_eq_none_iff, ofSteps?_eq_none,
    Askable, List.mem_append, or_imp, forall_and]

/-- A step that no file can have as its name: it has no bytes. -/
def byteless : String := String.ofList (Text.ofCode 0xD800)

/-- Surroundings with a file to store, and a log that is written to a file. -/
def logged : Machine where
  tree := ⟨[(["a.mp4"], "clip"), (["log.txt"], "")], []⟩
  outlet := { files := [["log.txt"]] }

end Splice.Storage
