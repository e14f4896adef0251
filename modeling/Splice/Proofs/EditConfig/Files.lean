import Splice.EditConfig.Text
import Splice.Proofs.Yaml.Blank

/-! # A configuration in a file and as a text

A file holds a configuration as a text does, and either way gives the same. There are two exceptions: a
file that is malformed is refused with a fault of the format and not of the configuration, and a file that
holds nothing but a text is read once more.
-/

namespace Splice

namespace Text

theorem unifyLineEnds_of_not_mem {cs : List Char} (h : '\r' ∉ cs) : unifyLineEnds cs = cs := by
  induction cs with
  | nil => rfl
  | cons c rest ih =>
      rw [List.mem_cons, not_or] at h
      have other : c ≠ '\r' := Ne.symm h.1
      rw [unifyLineEnds, ih h.2, if_neg other]
      exact fun _ same => absurd same other

theorem ofFile_of_not_mem {s : String} (h : '\r' ∉ s.toList) : ofFile s = s := by
  rw [ofFile, unifyLineEnds_of_not_mem h, String.ofList_toList]

end Text

namespace EditConfig

/-- The same configuration, or a fault of the configuration in both cases. -/
def Agree (x y : Except ReadError EditConfig) : Prop :=
  (∃ c, x = .ok c ∧ y = .ok c) ∨ ∃ f g, x = .error (.fault f) ∧ y = .error (.fault g)

variable {content t w : String} {v : Value} {e : Yaml.Error}

theorem ofText_blank (h : Text.isBlankText t = true) : ofText t = .ok {} := if_pos h

theorem ofText_of_value (filled : Text.isBlankText t = false) (h : Yaml.read t = .ok v) :
    ofText t = ofFault (ofValue v) := by
  simp only [ofText, filled, h, Bool.false_eq_true, if_false]

/-- A value other than a text is read in the same way wherever it comes from: if it stands in a blank text,
it is null, and a blank text is the default as null is. -/
theorem read_eq_ofText (h : Yaml.read t = .ok v) (other : ∀ w, v ≠ .text w) : read v = ofText t := by
  have same : read v = ofFault (ofValue v) := by
    cases v with
    | text w => exact absurd rfl (other w)
    | _ => rfl
  by_cases blank : Text.isBlankText t = true
  · have null : v = .null := by
      obtain stops | null | ⟨w, -, text⟩ := Yaml.read_blank blank
      · rw [h] at stops
        cases stops
      · exact Except.ok.inj (h.symm.trans null)
      · exact absurd (Except.ok.inj (h.symm.trans text)) (other w)
    rw [same, null, ofText_blank blank]
    rfl
  · rw [same, ofText_of_value (eq_false_of_ne_true blank) h]

/-- A fault of the format other than one of form is told as it is, also of a text. -/
theorem ofText_of_error (h : Yaml.read t = .error e) (other : e ≠ .malformed) :
    ofText t = .error (.yaml e) := by
  have filled : Text.isBlankText t = false := by
    refine eq_false_of_ne_true fun blank => ?_
    obtain stops | null | ⟨w, -, text⟩ := Yaml.read_blank blank
    · exact other (Except.error.inj (h.symm.trans stops))
    · rw [h] at null
      cases null
    · rw [h] at text
      cases text
  cases e with
  | malformed => exact absurd rfl other
  | _ => simp only [ofText, filled, h, Bool.false_eq_true, if_false]

theorem ofFile_of_value (h : Yaml.read (Text.ofFile content) = .ok v) : ofFile content = read v := by
  simp only [ofFile, h]

theorem ofFile_of_error (h : Yaml.read (Text.ofFile content) = .error e) :
    ofFile content = .error (.yaml e) := by
  simp only [ofFile, h]

def isFault : Except ReadError EditConfig → Bool
  | .error (.fault _) => true
  | _ => false

theorem Agree.isFault_eq {x y : Except ReadError EditConfig} (h : Agree x y) : isFault x = isFault y := by
  obtain ⟨c, rfl, rfl⟩ | ⟨f, g, rfl, rfl⟩ := h <;> rfl

end EditConfig
end Splice
