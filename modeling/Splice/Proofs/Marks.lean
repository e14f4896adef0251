import Splice.Binary64.Printer
import Splice.Color.Basic

/-! # Texts without marks

A reader takes a text apart at marks such as `;` or `:`. The texts of numbers and of colours have no
marks, whatever the number, so that they stay in one piece.
-/

namespace Splice

/-- What stands in a joined list stands in one of its parts or between them. -/
theorem mem_intercalate {α : Type} {sep : List α} {items : List (List α)} {a : α}
    (h : a ∈ sep.intercalate items) : a ∈ sep ∨ ∃ i ∈ items, a ∈ i := by
  induction items with
  | nil => simp at h
  | cons i rest ih =>
      cases rest with
      | nil => exact .inr ⟨i, by simp, by simpa using h⟩
      | cons j rest =>
          rw [List.intercalate_cons_cons, List.mem_append, List.mem_append] at h
          rcases h with (h | h) | h
          · exact .inr ⟨i, by simp, h⟩
          · exact .inl h
          · rcases ih h with h | ⟨k, hk, h⟩
            · exact .inl h
            · exact .inr ⟨k, List.mem_cons_of_mem i hk, h⟩

/-- No character of a text is one of the marks. -/
def Avoids (marks : List Char) (s : String) : Prop := ∀ c ∈ s.toList, c ∉ marks

instance (marks : List Char) (s : String) : Decidable (Avoids marks s) :=
  List.decidableBAll (· ∉ marks) s.toList

namespace Avoids

variable {marks : List Char} {s t : String}

theorem append_iff : Avoids marks (s ++ t) ↔ Avoids marks s ∧ Avoids marks t := by
  simp [Avoids, or_imp, forall_and]

theorem mono {fewer : List Char} (h : Avoids marks s) (sub : fewer ⊆ marks) : Avoids fewer s :=
  fun c hc hm => h c hc (sub hm)

end Avoids

/-- The characters of the texts of numbers: letters, digits, signs and the point. -/
def isNumeral (c : Char) : Bool := c.isAlphanum || c == '-' || c == '+' || c == '.'

def Numeral (s : String) : Prop := ∀ c ∈ s.toList, isNumeral c = true

instance (s : String) : Decidable (Numeral s) := List.decidableBAll (isNumeral · = true) s.toList

/-- What may be read as a part of a number is no mark. -/
def Apart (marks : List Char) : Prop := ∀ c ∈ marks, isNumeral c = false

instance (marks : List Char) : Decidable (Apart marks) :=
  List.decidableBAll (isNumeral · = false) marks

namespace Numeral

theorem avoids {s : String} (h : Numeral s) {marks : List Char} (apart : Apart marks) :
    Avoids marks s := by
  intro c hc hm
  have := (h c hc).symm.trans (apart c hm)
  contradiction

theorem append {s t : String} (hs : Numeral s) (ht : Numeral t) : Numeral (s ++ t) := by
  intro c hc
  rw [String.toList_append] at hc
  rcases List.mem_append.mp hc with h | h
  · exact hs c h
  · exact ht c h

theorem ofList {cs : List Char} (h : ∀ c ∈ cs, isNumeral c = true) : Numeral (String.ofList cs) := by
  rwa [Numeral, String.toList_ofList]

end Numeral

theorem isNumeral_of_isDigit {c : Char} (h : c.isDigit = true) : isNumeral c = true := by
  simp [isNumeral, Char.isAlphanum, h]

theorem isNumeral_wholeDigits {n : Nat} {c : Char} (h : c ∈ Binary64.wholeDigits n) :
    isNumeral c = true :=
  isNumeral_of_isDigit (Nat.isDigit_of_mem_toDigits (by decide) (by decide) h)

theorem numeral_nat (n : Nat) : Numeral (toString n) := by
  rw [Nat.toString_eq_ofList_toDigits]
  exact Numeral.ofList fun c hc => isNumeral_wholeDigits hc

theorem numeral_int (n : Int) : Numeral (toString n) := by
  cases n with
  | ofNat n => exact numeral_nat n
  | negSucc n =>
      have minus : Numeral "-" := by decide
      exact minus.append (numeral_nat (n + 1))

theorem avoids_int {marks : List Char} (apart : Apart marks) (n : Int) : Avoids marks (toString n) :=
  (numeral_int n).avoids apart

/-- A whole number is written with digits and a minus sign only. -/
theorem not_mem_int {c : Char} (other : c.isDigit = false) (noSign : c ≠ '-') (n : Int) :
    c ∉ (toString n).toList := by
  have digits (n : Nat) : c ∉ (toString n).toList := by
    rw [Nat.toString_eq_ofList_toDigits, String.toList_ofList]
    intro hc
    exact absurd (Nat.isDigit_of_mem_toDigits (by decide) (by decide) hc) (by simp [other])
  cases n with
  | ofNat n => exact digits n
  | negSucc n =>
      have minus : (toString (Int.negSucc n)).toList = '-' :: (toString (n + 1)).toList := by
        rw [show toString (Int.negSucc n) = "-" ++ toString (n + 1) from rfl, String.toList_append]
        rfl
      rw [minus, List.mem_cons, not_or]
      exact ⟨noSign, digits (n + 1)⟩

namespace Binary64

theorem isNumeral_placesText {places count : Nat} {c : Char} (h : c ∈ placesText places count) :
    isNumeral c = true := by
  simp only [placesText] at h
  split at h
  · exact isNumeral_wholeDigits h
  · simp only [List.mem_append, List.mem_cons, List.mem_replicate] at h
    rcases h with h | rfl | ⟨-, rfl⟩ | h
    · exact isNumeral_wholeDigits h
    · rfl
    · rfl
    · exact isNumeral_wholeDigits h

theorem isNumeral_signText {negative : Bool} {c : Char} (h : c ∈ signText negative) :
    isNumeral c = true := by
  cases negative with
  | false => simp [signText] at h
  | true =>
      obtain rfl := List.mem_singleton.mp h
      rfl

/-- The text of a number with a fixed count of places, also of one that is not finite. -/
theorem numeral_fixed (places : Nat) (x : Binary64) : Numeral (x.fixed places) := by
  apply Numeral.ofList
  intro c hc
  cases x with
  | nan =>
      simp only [fixedChars, List.mem_cons, List.not_mem_nil, or_false] at hc
      rcases hc with rfl | rfl | rfl <;> rfl
  | infinite s =>
      rcases List.mem_append.mp hc with h | h
      · exact isNumeral_signText h
      · simp only [List.mem_cons, List.not_mem_nil, or_false] at h
        rcases h with rfl | rfl | rfl <;> rfl
  | finite s m l =>
      rcases List.mem_append.mp hc with h | h
      · exact isNumeral_signText h
      · exact isNumeral_placesText h

theorem avoids_fixed {marks : List Char} (apart : Apart marks) (places : Nat) (x : Binary64) :
    Avoids marks (x.fixed places) :=
  (numeral_fixed places x).avoids apart

end Binary64

namespace Color

theorem isNumeral_digitChar {d : Nat} (h : d < 16) : isNumeral d.digitChar.toUpper = true := by
  have each : ∀ d < 16, isNumeral (Nat.digitChar d).toUpper = true := by decide
  exact each d h

theorem isNumeral_hexDigits (n : Nat) :
    ∀ c ∈ Nat.toDigits 16 n, isNumeral c.toUpper = true := by
  induction n using Nat.strongRecOn with
  | ind n ih =>
      intro c hc
      rw [Nat.toDigits_eq_if (by decide)] at hc
      split at hc
      · obtain rfl := List.mem_singleton.mp hc
        exact isNumeral_digitChar ‹n < 16›
      · rcases List.mem_append.mp hc with h | h
        · exact ih (n / 16) (by omega) c h
        · obtain rfl := List.mem_singleton.mp h
          exact isNumeral_digitChar (by omega)

theorem numeral_hexComponent (n : Int) : Numeral (hexComponent n) := by
  apply Numeral.ofList
  intro c hc
  simp only [List.mem_append, List.mem_replicate, List.mem_map] at hc
  rcases hc with (h | ⟨-, rfl⟩) | ⟨d, hd, rfl⟩
  · split at h
    · obtain rfl := List.mem_singleton.mp h
      rfl
    · simp at h
  · rfl
  · exact isNumeral_hexDigits n.natAbs d hd

/-- The text of a colour has no mark but the one before its opacity. -/
theorem avoids_engineText {marks : List Char} (apart : Apart marks) (noAt : '@' ∉ marks)
    (color : Color) : Avoids marks color.engineText := by
  have base : Numeral ("0x" ++ hexComponent color.red ++ hexComponent color.green ++
      hexComponent color.blue) := by
    have start : Numeral "0x" := by decide
    exact ((start.append (numeral_hexComponent _)).append (numeral_hexComponent _)).append
      (numeral_hexComponent _)
  simp only [engineText]
  split
  · exact base.avoids apart
  · split
    · exact base.avoids apart
    · have opacity : Avoids marks "@" := by simpa [Avoids] using noAt
      refine Avoids.append_iff.mpr ⟨Avoids.append_iff.mpr ⟨base.avoids apart, opacity⟩, ?_⟩
      exact Binary64.avoids_fixed apart 2 _

end Color
end Splice
