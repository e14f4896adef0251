import Mathlib.Algebra.Order.Field.Power
import Mathlib.Data.Nat.Log
import Mathlib.Tactic.FieldSimp
import Mathlib.Tactic.Ring
import Splice.Binary64.Basic

/-! # Rounding to binary64 numbers

What a decimal is rounded to depends on its value alone, and a decimal that is near enough to a number is
rounded to that number.
-/

namespace Splice

section

variable {num den : Nat}

theorem roundDiv_mul {k : Nat} (pos : 0 < k) (num den : Nat) :
    roundDiv (k * num) (k * den) = roundDiv num den := by
  have rest : k * num % (k * den) = k * (num % den) := Nat.mul_mod_mul_left k num den
  have scale (a b : Nat) : k * a < k * b ↔ a < b := Nat.mul_lt_mul_left pos
  simp only [roundDiv, Nat.mul_div_mul_left _ _ pos, rest, Nat.mul_left_comm 2 k, scale]

/-- A quotient less than a half away from a whole number is rounded to it. -/
theorem roundDiv_eq {n : Nat} (below : 2 * (n * den) < 2 * num + den)
    (above : 2 * num < 2 * (n * den) + den) :
    roundDiv num den = n := by
  have split : num / den * den + num % den = num := Nat.div_add_mod' num den
  have rest : num % den < den := Nat.mod_lt num (by omega)
  unfold roundDiv
  dsimp only
  generalize num / den = q at *
  generalize num % den = r at *
  have least : n ≤ q + 1 := by
    by_contra far
    have more : (q + 2) * den ≤ n * den := Nat.mul_le_mul_right den (by omega)
    rw [Nat.add_mul] at more
    omega
  have most : q ≤ n := by
    by_contra far
    have more : (n + 1) * den ≤ q * den := Nat.mul_le_mul_right den (by omega)
    rw [Nat.add_mul] at more
    omega
  obtain rfl | rfl : n = q ∨ n = q + 1 := by omega
  · rw [if_pos (by omega)]
  · rw [Nat.add_mul, Nat.one_mul] at below
    rw [if_neg (by omega), if_pos (by omega)]

end

namespace Binary64

section

variable {num den num' den' : Nat}

theorem roundUnits_mul {k : Nat} (pos : 0 < k) (num den : Nat) :
    roundUnits (k * num) (k * den) = roundUnits num den := by
  simp only [roundUnits, Nat.mul_div_mul_left _ _ pos, Nat.mul_assoc, roundDiv_mul pos]

/-- Rounding depends on the quotient alone. -/
theorem roundUnits_congr (pos : 0 < den) (pos' : 0 < den') (same : (num : ℚ) / den = num' / den') :
    roundUnits num den = roundUnits num' den' := by
  have cross : num * den' = num' * den := by
    rw [div_eq_div_iff (Nat.cast_ne_zero.mpr pos.ne') (Nat.cast_ne_zero.mpr pos'.ne')] at same
    exact_mod_cast same
  rw [← roundUnits_mul pos' num den, ← roundUnits_mul pos num' den', Nat.mul_comm den' num, cross,
    Nat.mul_comm den' den, Nat.mul_comm num' den]

theorem round_congr (pos : 0 < den) (pos' : 0 < den') (same : (num : ℚ) / den = num' / den')
    (negative : Bool) :
    round negative num den = round negative num' den' := by
  have units := roundUnits_congr pos pos' same
  simp only [round, units]

end

theorem unitsPerOne_pos : 0 < unitsPerOne := by
  unfold unitsPerOne
  generalize 1074 = n
  exact Nat.two_pow_pos n

/-- A decimal is a quotient of unit counts that is rounded. -/
theorem ofDecimal_eq_round (negative : Bool) (digits : Nat) (exponent : Int) :
    ∃ num den : Nat, 0 < den ∧ ofDecimal negative digits exponent = round negative num den ∧
      (num : ℚ) / den = digits * 10 ^ exponent * unitsPerOne := by
  unfold ofDecimal ofRatio
  split
  · rename_i neg
    refine ⟨_, _, Nat.pow_pos (by decide), rfl, ?_⟩
    have power : (10 : ℚ) ^ exponent = (10 ^ exponent.natAbs)⁻¹ := by
      rw [← zpow_natCast, ← zpow_neg]
      congr 1
      omega
    rw [power]
    push_cast
    ring
  · rename_i pos
    refine ⟨_, _, Nat.one_pos, rfl, ?_⟩
    have power : (10 : ℚ) ^ exponent = 10 ^ exponent.natAbs := by
      rw [← zpow_natCast]
      congr 1
      omega
    rw [power, Nat.pow_eq]
    push_cast
    ring

/-- What a decimal is rounded to depends on its value alone. -/
theorem ofDecimal_congr {d d' : Nat} {e e' : Int} (same : (d : ℚ) * 10 ^ e = d' * 10 ^ e')
    (negative : Bool) :
    ofDecimal negative d e = ofDecimal negative d' e' := by
  obtain ⟨num, den, pos, rounds, value⟩ := ofDecimal_eq_round negative d e
  obtain ⟨num', den', pos', rounds', value'⟩ := ofDecimal_eq_round negative d' e'
  rw [rounds, rounds']
  exact round_congr pos pos' (by rw [value, value', same]) negative

theorem add_le_of_dvd {step a b : Nat} (ha : step ∣ a) (hb : step ∣ b) (lt : a < b) : a + step ≤ b := by
  obtain ⟨x, rfl⟩ := ha
  obtain ⟨y, rfl⟩ := hb
  have more : x + 1 ≤ y := Nat.lt_of_mul_lt_mul_left lt
  exact Nat.mul_le_mul_left step more

/-- The grid on which a quotient near a number is rounded: the number is on it, and it is fine enough. -/
theorem grid_near {num den units : Nat} (fits : Fits units) (some' : 0 < units) (pos : 0 < den)
    (below : (2 * 10 ^ 16 - 1) * (units * den) ≤ 2 * 10 ^ 16 * num)
    (above : 2 * 10 ^ 16 * num ≤ (2 * 10 ^ 16 + 1) * (units * den)) :
    2 ^ ((num / den).log2 - 52) ∣ units ∧ units ≤ 2 ^ 53 * 2 ^ ((num / den).log2 - 52) := by
  have least : 2 ^ units.log2 ≤ units := Nat.log2_self_le some'.ne'
  have most : units < 2 ^ (units.log2 + 1) := Nat.lt_log2_self
  have step : 2 ^ (units.log2 - 52) ∣ units := Nat.dvd_of_mod_eq_zero fits.2
  generalize units.log2 = k at *
  have wide (m j : Nat) (h : m ≤ j + 1) : 2 ^ m ≤ 2 ^ 53 * 2 ^ (j - 52) := by
    rw [← Nat.pow_add]
    exact Nat.pow_le_pow_right (by decide) (by omega)
  have within : units * den < 2 ^ 53 * (2 ^ (k - 52) * den) := by
    rw [← Nat.mul_assoc]
    exact Nat.mul_lt_mul_of_pos_right (Nat.lt_of_lt_of_le most (wide (k + 1) k (Nat.le_refl _))) pos
  -- The quotient is below the next power of two, since a number is a whole step below it.
  have low : num < 2 ^ (k + 1) * den := by
    have room := Nat.mul_le_mul_right den
      (add_le_of_dvd step (Nat.pow_dvd_pow 2 (by omega : k - 52 ≤ k + 1)) most)
    rw [Nat.add_mul] at room
    omega
  have quotient : num / den < 2 ^ (k + 1) := (Nat.div_lt_iff_lt_mul pos).mpr low
  have top : (num / den).log2 ≤ k := by
    by_cases zero : num / den = 0
    · rw [zero]
      exact Nat.zero_le k
    · exact Nat.le_of_lt_succ ((Nat.log2_lt zero).mpr quotient)
  refine ⟨(Nat.pow_dvd_pow 2 (by omega)).trans step, ?_⟩
  by_cases reaches : 2 ^ k * den ≤ num
  · have high : 2 ^ k ≤ num / den := (Nat.le_div_iff_mul_le pos).mpr reaches
    have exact' : k ≤ (num / den).log2 := (Nat.le_log2 (by have := Nat.two_pow_pos k; omega)).mpr high
    exact Nat.le_trans (Nat.le_of_lt most) (wide _ _ (by omega))
  · -- Below its power of two there is no quotient near any number but the power itself.
    have power : units = 2 ^ k := by
      by_contra other
      have room := Nat.mul_le_mul_right den (add_le_of_dvd (Nat.pow_dvd_pow 2 (Nat.sub_le k 52)) step
        (Nat.lt_of_le_of_ne least (Ne.symm other)))
      rw [Nat.add_mul] at room
      omega
    rw [power] at below ⊢
    apply wide
    cases k with
    | zero => exact Nat.zero_le _
    | succ k =>
        have high : 2 ^ k ≤ num / den := by
          have double : 2 ^ (k + 1) * den = 2 * (2 ^ k * den) := by ring
          rw [Nat.le_div_iff_mul_le pos]
          omega
        exact Nat.succ_le_succ ((Nat.le_log2 (by have := Nat.two_pow_pos k; omega)).mpr high)

/-- A quotient that is within one part in `2 · 10 ^ 16` of a number is rounded to it: that is less than
half of the distance to the next number on either side. -/
theorem roundUnits_near {num den units : Nat} (fits : Fits units) (some' : 0 < units) (pos : 0 < den)
    (below : (2 * 10 ^ 16 - 1) * (units * den) ≤ 2 * 10 ^ 16 * num)
    (above : 2 * 10 ^ 16 * num ≤ (2 * 10 ^ 16 + 1) * (units * den)) : roundUnits num den = units := by
  obtain ⟨⟨n, split⟩, fine⟩ := grid_near fits some' pos below above
  unfold roundUnits
  dsimp only
  rw [Nat.pow_eq]
  generalize 2 ^ ((num / den).log2 - 52) = grid at *
  have place : n * (den * grid) = units * den := by
    rw [split]
    ring
  have room := Nat.mul_le_mul_right den fine
  rw [Nat.mul_assoc] at room
  have width : 0 < grid * den := by
    apply Nat.mul_pos _ pos
    rw [split] at some'
    exact Nat.pos_of_mul_pos_right some'
  rw [Nat.mul_comm den grid] at place ⊢
  have nearest : roundDiv num (grid * den) = n := roundDiv_eq (by omega) (by omega)
  rw [nearest, split, Nat.mul_comm]

end Binary64
end Splice
