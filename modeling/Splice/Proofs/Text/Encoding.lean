import Mathlib.Data.List.TakeWhile
import Splice.Text.Surrogate

/-! # Texts that have bytes

Characters below the surrogates are code points that stand for themselves, so a text of them can be
written anywhere.
-/

namespace Splice.Text

theorem codes_plain {cs : List Char} (h : ∀ c ∈ cs, c.toNat < 0xD800) :
    codes cs = cs.map Char.toNat := by
  induction cs with
  | nil => rfl
  | cons c cs ih =>
      rw [List.forall_mem_cons] at h
      have plain : held c = [c] := by
        apply if_neg
        simp only [isReserved, Bool.and_eq_true, decide_eq_true_eq]
        omega
      have step := codes_held c cs
      rw [plain, List.singleton_append] at step
      rw [step, ih h.2, List.map_cons]

theorem unencodable?_plain {s : String} (h : ∀ c ∈ s.toList, c.toNat < 0xD800) :
    unencodable? s = none := by
  have none : ∀ code ∈ codes s.toList, isSurrogate code = false := by
    rw [codes_plain h]
    intro code mem
    obtain ⟨c, hc, rfl⟩ := List.mem_map.mp mem
    have small := h c hc
    simp only [isSurrogate, Bool.and_eq_false_iff, decide_eq_false_iff_not]
    exact .inl (by omega)
  have all : (codes s.toList).takeWhile (!isSurrogate ·) = codes s.toList := by
    refine List.takeWhile_eq_self_iff.mpr fun code mem => ?_
    rw [none code mem]
    rfl
  simp only [unencodable?, all, List.drop_length, List.takeWhile_nil]

end Splice.Text
