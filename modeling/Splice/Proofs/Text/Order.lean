import Mathlib.Data.List.Nodup
import Mathlib.Data.List.Perm.Basic
import Splice.Text.Surrogate

/-! # The order of texts

Texts are compared by their code points, so texts of different code points have one sorted list, in
whatever order they come.
-/

namespace Splice.Text

theorem areOrdered_total (ms ns : List Nat) : areOrdered ms ns = true ∨ areOrdered ns ms = true := by
  induction ms generalizing ns with
  | nil => exact .inl rfl
  | cons m ms ih =>
      cases ns with
      | nil => exact .inr rfl
      | cons n ns =>
          simp only [areOrdered, Bool.or_eq_true, decide_eq_true_eq, Bool.and_eq_true, beq_iff_eq]
          obtain less | rfl | more := Nat.lt_trichotomy m n
          · exact .inl (.inl less)
          · exact (ih ns).imp (fun h => .inr ⟨rfl, h⟩) fun h => .inr ⟨rfl, h⟩
          · exact .inr (.inl more)

theorem areOrdered_trans {ks ms ns : List Nat} (first : areOrdered ks ms = true)
    (second : areOrdered ms ns = true) : areOrdered ks ns = true := by
  induction ks generalizing ms ns with
  | nil => rfl
  | cons k ks ih =>
      cases ms with
      | nil => cases first
      | cons m ms =>
          cases ns with
          | nil => cases second
          | cons n ns =>
              simp only [areOrdered, Bool.or_eq_true, decide_eq_true_eq, Bool.and_eq_true,
                beq_iff_eq] at first second ⊢
              obtain less | ⟨rfl, first⟩ := first
              · exact .inl (second.elim (Nat.lt_trans less) fun same => same.1 ▸ less)
              · exact second.imp_right fun same => ⟨same.1, ih first same.2⟩

theorem areOrdered_antisymm {ms ns : List Nat} (there : areOrdered ms ns = true)
    (back : areOrdered ns ms = true) : ms = ns := by
  induction ms generalizing ns with
  | nil =>
      cases ns with
      | nil => rfl
      | cons => cases back
  | cons m ms ih =>
      cases ns with
      | nil => cases there
      | cons n ns =>
          simp only [areOrdered, Bool.or_eq_true, decide_eq_true_eq, Bool.and_eq_true,
            beq_iff_eq] at there back
          obtain less | ⟨rfl, there⟩ := there
          · omega
          · rw [ih there (back.resolve_left (Nat.lt_irrefl m)).2]

theorem isOrdered_trans (a b c : String) (first : isOrdered a b = true) (second : isOrdered b c = true) :
    isOrdered a c = true :=
  areOrdered_trans first second

theorem isOrdered_total (a b : String) : (isOrdered a b || isOrdered b a) = true :=
  (Bool.or_eq_true _ _).mpr (areOrdered_total (codes a.toList) (codes b.toList))

/-- The order in which different texts come does not matter when they are sorted. -/
theorem mergeSort_eq_of_perm {ss ts : List String} (perm : ss.Perm ts)
    (distinct : (ss.map fun s => codes s.toList).Nodup) :
    ss.mergeSort isOrdered = ts.mergeSort isOrdered := by
  have sorted := List.pairwise_mergeSort isOrdered_trans isOrdered_total
  apply List.Perm.eq_of_pairwise _ (sorted ss) (sorted ts)
  · exact (List.mergeSort_perm ss _).trans (perm.trans (List.mergeSort_perm ts _).symm)
  · intro s t hs ht there back
    have hs : s ∈ ss := (List.mergeSort_perm ss _).mem_iff.mp hs
    have ht : t ∈ ss := perm.mem_iff.mpr ((List.mergeSort_perm ts _).mem_iff.mp ht)
    exact List.inj_on_of_nodup_map distinct hs ht (areOrdered_antisymm there back)

end Splice.Text
