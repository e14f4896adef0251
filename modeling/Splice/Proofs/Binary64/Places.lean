import Splice.Proofs.Binary64.Order
import Splice.Proofs.Binary64.Text

/-! # Numbers with a fixed count of places

A number that is written with places is read as the decimal next to it. A positive number is written as
zero just if it is at most half of the last place.
-/

namespace Splice

theorem roundDiv_pos_iff {num den : Nat} (pos : 0 < den) : 0 < roundDiv num den ↔ den < 2 * num := by
  have split : num / den * den + num % den = num := Nat.div_add_mod' num den
  unfold roundDiv
  dsimp only
  rcases Nat.lt_or_ge num den with less | more
  · rw [Nat.div_eq_of_lt less, Nat.mod_eq_of_lt less]
    split
    · omega
    · split <;> omega
  · have some' : 0 < num / den := Nat.div_pos more pos
    split
    · omega
    · split <;> omega

namespace Binary64

/-- The value of a finite number. -/
def value : Binary64 → ℚ
  | .finite s units _ => signedUnits s units / unitsPerOne
  | _ => 0

/-- The digits after the point, with zeros before them. -/
def fractionDigits (places n : Nat) : List Char :=
  List.replicate (places - (wholeDigits n).length) '0' ++ wholeDigits n

theorem length_fractionDigits {places n : Nat} (some_places : 0 < places) (h : n < 10 ^ places) :
    (fractionDigits places n).length = places := by
  have short := (Nat.length_toDigits_le_iff (by decide) some_places).mpr h
  rw [fractionDigits, List.length_append, List.length_replicate]
  unfold wholeDigits
  omega

theorem isDigit_fractionDigits (places n : Nat) : ∀ c ∈ fractionDigits places n, c.isDigit = true := by
  intro c mem
  rcases List.mem_append.mp mem with zero | digit
  · rw [List.eq_of_mem_replicate zero]
    rfl
  · exact isDigit_wholeDigits n c digit

/-- A count of the last place is written as its digits, with a point among them. -/
theorem placesText_form {places : Nat} (some_places : 0 < places) (count : Nat) :
    PointForm (placesText places count) (wholeDigits (count / 10 ^ places))
      (fractionDigits places (count % 10 ^ places)) [] 0 where
  text := by
    rw [placesText, if_neg some_places.ne', List.append_nil]
    rfl
  filled := Nat.toDigits_ne_nil
  left := isDigit_wholeDigits _
  right := isDigit_fractionDigits _ _
  ending := .inl ⟨rfl, rfl⟩

theorem ofDigitChars_places {places : Nat} (some_places : 0 < places) (count : Nat) :
    Nat.ofDigitChars 10 (wholeDigits (count / 10 ^ places) ++
      fractionDigits places (count % 10 ^ places)) 0 = count := by
  have rest : count % 10 ^ places < 10 ^ places := Nat.mod_lt _ (Nat.pow_pos (by decide))
  have whole : Nat.ofDigitChars 10 (wholeDigits (count / 10 ^ places)) 0 = count / 10 ^ places :=
    Nat.ofDigitChars_ten_toDigits
  have fraction : Nat.ofDigitChars 10 (fractionDigits places (count % 10 ^ places)) 0 =
      count % 10 ^ places := by
    rw [fractionDigits, ofDigitChars_zeros]
    exact Nat.ofDigitChars_ten_toDigits
  rw [Nat.ofDigitChars_append, Nat.ofDigitChars_eq_ofDigitChars_zero, whole, fraction,
    length_fractionDigits some_places rest]
  exact Nat.div_add_mod count (10 ^ places)

/-- A number that is written with places is read as the decimal that it is rounded to. -/
theorem number?_fixed {places : Nat} (some_places : 0 < places) (negative : Bool) {units : Nat}
    (fits : Fits units) : Text.number? ((Binary64.finite negative units fits).fixed places) =
      some (ofDecimal negative (roundDiv (units * 10 ^ places) unitsPerOne) (-places)) := by
  have rest (count : Nat) : count % 10 ^ places < 10 ^ places := Nat.mod_lt _ (Nat.pow_pos (by decide))
  have form := placesText_form some_places (roundDiv (units * 10 ^ places) unitsPerOne)
  have read := form.number? negative
  rw [ofDigitChars_places some_places, boundExponent_eq (by decide) (by decide),
    length_fractionDigits some_places (rest _), Int.zero_sub] at read
  exact read

/-- A decimal with places is positive if it has a digit other than zero. -/
theorem ofDecimal_pos_iff {count places : Nat} (some_places : 0 < places)
    (small : 10 ^ places ≤ unitsPerOne) : 0 < ofDecimal false count (-places) ↔ 0 < count := by
  have pos : 0 < 10 ^ places := Nat.pow_pos (by decide)
  rw [ofDecimal_places some_places, zero_lt_iff (round_ne_nan _ _ _)]
  rcases Nat.eq_zero_or_pos count with rfl | some_count
  · have nothing : 0 * unitsPerOne ≤ 0 * 10 ^ places := by simp
    obtain ⟨units, fits, made, none⟩ := round_eq_finite fits_zero pos nothing false
    rw [made, zero_eq, finite_le_iff]
    simp [signedUnits, Nat.le_zero.mp none]
  · have least : 10 ^ places ≤ count * unitsPerOne := small.trans (Nat.le_mul_of_pos_left _ some_count)
    rw [round_le_zero_iff pos least]
    simpa using some_count

/-- A positive number that is written with places is read as a positive number, unless it is at most half
of the last place: then it is written as zero. -/
theorem fixed_pos_iff {x : Binary64} (finite : x.isFinite = true) (positive : 0 < x) {places : Nat}
    (some_places : 0 < places) (small : 10 ^ places ≤ unitsPerOne) :
    ∃ read, Text.number? (x.fixed places) = some read ∧
      (0 < read ↔ 1 / (2 * 10 ^ places) < x.value) := by
  obtain ⟨s, units, fits, rfl⟩ := exists_of_isFinite finite
  obtain rfl : s = false := by
    rw [zero_eq, finite_lt_iff] at positive
    cases s with
    | false => rfl
    | true =>
        simp only [signedUnits, Bool.false_eq_true, if_false, if_true] at positive
        omega
  refine ⟨_, number?_fixed some_places false fits, ?_⟩
  rw [ofDecimal_pos_iff some_places small, roundDiv_pos_iff unitsPerOne_pos, value]
  have units_pos : (0 : ℚ) < unitsPerOne := Nat.cast_pos.mpr unitsPerOne_pos
  rw [div_lt_div_iff₀ (by positivity) units_pos, one_mul]
  simp only [signedUnits, Bool.false_eq_true, if_false, Int.cast_natCast]
  rw [← Nat.cast_lt (α := ℚ)]
  push_cast
  ring_nf

end Binary64
end Splice
