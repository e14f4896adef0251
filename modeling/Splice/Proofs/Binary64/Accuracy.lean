import Mathlib.Algebra.Order.Floor.Ring
import Mathlib.Data.Rat.Floor
import Mathlib.Tactic.Linarith
import Mathlib.Tactic.Positivity
import Splice.Proofs.Binary64.Places

/-! # How exact binary64 numbers are

Every operation gives what its exact result is rounded to, and rounding passes no number. So a result stays
between numbers that the exact one is between; and it is near the exact one, since the numbers of a grid are
never far. Whole parts of numbers are numbers.
-/

namespace Splice.Binary64

/-! ## Values -/

section Values

variable {x y z : Binary64}

theorem value_eq {s : Bool} {units : Nat} {fits : Fits units} :
    (finite s units fits).value = signedUnits s units / unitsPerOne := rfl

theorem unitsPerOne_cast_pos : (0 : ℚ) < unitsPerOne := Nat.cast_pos.mpr unitsPerOne_pos

theorem le_iff_value_le (hx : x.isFinite = true) (hy : y.isFinite = true) : x ≤ y ↔ x.value ≤ y.value := by
  obtain ⟨s, m, fits, rfl⟩ := exists_of_isFinite hx
  obtain ⟨t, n, fits', rfl⟩ := exists_of_isFinite hy
  rw [finite_le_iff, value_eq, value_eq, div_le_div_iff_of_pos_right unitsPerOne_cast_pos, Int.cast_le]

theorem lt_iff_value_lt (hx : x.isFinite = true) (hy : y.isFinite = true) : x < y ↔ x.value < y.value := by
  rw [lt_iff_not_le (ne_nan_of_isFinite hx) (ne_nan_of_isFinite hy), le_iff_value_le hy hx, not_le]

protected theorem le_of_lt (hx : x.isFinite = true) (hy : y.isFinite = true) (h : x < y) : x ≤ y :=
  (le_iff_value_le hx hy).mpr ((lt_iff_value_lt hx hy).mp h).le

protected theorem lt_of_lt_of_le (hx : x.isFinite = true) (hy : y.isFinite = true) (hz : z.isFinite = true)
    (h : x < y) (h' : y ≤ z) : x < z :=
  (lt_iff_value_lt hx hz).mpr
    (((lt_iff_value_lt hx hy).mp h).trans_le ((le_iff_value_le hy hz).mp h'))

/-- A number that has a finite number on either side is finite. -/
theorem isFinite_of_between {a b : Binary64} (ha : a.isFinite = true) (hb : b.isFinite = true)
    (low : a ≤ x) (high : x ≤ b) : x.isFinite = true := by
  obtain ⟨s, m, fits, rfl⟩ := exists_of_isFinite ha
  obtain ⟨t, n, fits', rfl⟩ := exists_of_isFinite hb
  cases x with
  | finite => rfl
  | nan => cases low
  | infinite negative =>
      cases negative with
      | false => cases high
      | true => cases low

theorem value_ofNat {n : Nat} (small : n ≤ 2 ^ 53) : (OfNat.ofNat n : Binary64).value = n := by
  rw [ofNat_eq_finite small, value_eq]
  simp only [signedUnits, Bool.false_eq_true, if_false]
  push_cast
  exact mul_div_cancel_right₀ _ unitsPerOne_cast_pos.ne'

theorem zero_spec : (0 : Binary64).isFinite = true ∧ (0 : Binary64).value = 0 :=
  ⟨isFinite_ofNat (Nat.zero_le _), (value_ofNat (Nat.zero_le _)).trans Nat.cast_zero⟩

theorem zero_le_iff (finite : x.isFinite = true) : 0 ≤ x ↔ 0 ≤ x.value := by
  rw [le_iff_value_le zero_spec.1 finite, zero_spec.2]

theorem signedUnits_zero (s : Bool) : signedUnits s 0 = 0 := by
  cases s with
  | false => rfl
  | true => rfl

theorem signedUnits_not (s : Bool) (units : Nat) : signedUnits (!s) units = -signedUnits s units := by
  cases s with
  | false => rfl
  | true => exact (Int.neg_neg _).symm

theorem value_neg (x : Binary64) : (-x).value = -x.value := by
  cases x with
  | nan => exact neg_zero.symm
  | infinite => exact neg_zero.symm
  | finite s m fits =>
      show ((signedUnits (!s) m : ℤ) : ℚ) / unitsPerOne = -((signedUnits s m : ℤ) / unitsPerOne)
      rw [signedUnits_not, Int.cast_neg, neg_div]

theorem isFinite_neg (finite : x.isFinite = true) : (-x).isFinite = true := by
  obtain ⟨s, m, fits, rfl⟩ := exists_of_isFinite finite
  rfl

theorem double_neg (x : Binary64) : - -x = x := by
  show neg (neg x) = x
  cases x with
  | nan => rfl
  | infinite s => rw [neg, neg, Bool.not_not]
  | finite s m fits => rw [neg, neg, Bool.not_not]

theorem negated_le_iff : -x ≤ -y ↔ y ≤ x := by
  show le (neg x) (neg y) = true ↔ le y x = true
  cases x with
  | nan => cases y <;> rfl
  | infinite s => cases y <;> cases s <;> simp [neg, le]
  | finite s m fits =>
      cases y with
      | nan => rfl
      | infinite t => cases t <;> simp [neg, le]
      | finite t n fits' => simp [neg, le, signedUnits_not]

theorem neg_round (negative : Bool) (num den : Nat) : -round negative num den = round (!negative) num den := by
  show neg (round negative num den) = _
  unfold round
  split
  · rfl
  · rfl

end Values

/-! ## Rational numbers that are numbers -/

/-- A rational number that is the value of a number. -/
def IsNumber (q : ℚ) : Prop := ∃ x : Binary64, x.isFinite = true ∧ x.value = q

/-- A few steps of a power of two are a number. -/
theorem isNumber_steps {k : ℤ} {p : ℕ} (few : k.natAbs ≤ 2 ^ 53) (coarse : p ≤ 1074) :
    IsNumber (k / 2 ^ p) := by
  obtain ⟨one, place, units⟩ := exists_unitsPerOne_eq
  have split : 2 ^ (one - p) * 2 ^ p = unitsPerOne := by
    rw [units, ← Nat.pow_add, Nat.sub_add_cancel (place ▸ coarse)]
  have fits : Fits (k.natAbs * 2 ^ (one - p)) := by
    refine ⟨?_, steps_mod few _⟩
    refine Nat.lt_of_le_of_lt (Nat.mul_le_mul_right _ few) ?_
    have below : 2 ^ 53 * 2 ^ (one - p) ≤ 2 ^ 53 * unitsPerOne := by
      rw [units]
      exact Nat.mul_le_mul_left _ (Nat.pow_le_pow_right Nat.two_pos (Nat.sub_le _ _))
    exact Nat.lt_of_le_of_lt below (fits_whole (Nat.le_refl _)).1
  refine ⟨.finite (decide (k < 0)) _ fits, rfl, ?_⟩
  have signed : signedUnits (decide (k < 0)) (k.natAbs * 2 ^ (one - p)) = k * 2 ^ (one - p) := by
    rcases lt_or_ge k 0 with negative | positive
    · rw [decide_eq_true negative, signedUnits, if_pos rfl]
      push_cast
      rw [abs_of_neg negative, neg_mul, neg_neg]
    · rw [decide_eq_false (by omega), signedUnits, if_neg Bool.false_ne_true]
      push_cast
      rw [abs_of_nonneg positive]
  rw [value_eq, signed, ← split]
  push_cast
  have steps : (0 : ℚ) < 2 ^ (one - p) := by positivity
  field_simp

theorem isNumber_whole {k : ℤ} (few : k.natAbs ≤ 2 ^ 53) : IsNumber k := by
  have whole := isNumber_steps (p := 0) few (Nat.zero_le _)
  rwa [pow_zero, div_one] at whole

/-- A power of two is a number, up to the largest ones. -/
theorem isNumber_two_pow {k : ℕ} (within : k < 1024) : IsNumber (2 ^ k) := by
  obtain ⟨one, place, units⟩ := exists_unitsPerOne_eq
  have fits : Fits (1 * 2 ^ (k + one)) := by
    refine ⟨?_, steps_mod (Nat.one_le_two_pow) _⟩
    have room : k + one < 2098 := by omega
    unfold unitLimit
    generalize 2098 = limit at room
    rw [Nat.one_mul]
    exact Nat.pow_lt_pow_right Nat.one_lt_two room
  refine ⟨.finite false _ fits, rfl, ?_⟩
  rw [value_eq, signedUnits, if_neg Bool.false_ne_true, Nat.one_mul, Nat.pow_add, ← units]
  push_cast
  exact mul_div_cancel_right₀ _ unitsPerOne_cast_pos.ne'

/-! ## Rounding -/

/-- What a rational number is rounded to: rounding passes no number. -/
structure Rounds (q : ℚ) (x : Binary64) : Prop where
  above : ∀ a : Binary64, a.isFinite = true → a.value ≤ q → a ≤ x
  below : ∀ a : Binary64, a.isFinite = true → q ≤ a.value → x ≤ a

/-- A number between two rational numbers. -/
structure Within (a b : ℚ) (x : Binary64) : Prop where
  finite : x.isFinite = true
  least : a ≤ x.value
  most : x.value ≤ b

namespace Rounds

variable {q a b : ℚ} {x : Binary64}

theorem within (h : Rounds q x) (low : IsNumber a) (high : IsNumber b) (least : a ≤ q) (most : q ≤ b) :
    Within a b x := by
  obtain ⟨u, hu, rfl⟩ := low
  obtain ⟨v, hv, rfl⟩ := high
  have above := h.above u hu least
  have below := h.below v hv most
  have finite := isFinite_of_between hu hv above below
  exact ⟨finite, (le_iff_value_le hu finite).mp above, (le_iff_value_le finite hv).mp below⟩

/-- A number of usual size is rounded to one that is at most a step of a grid away, which is one part in
`2 ^ 20`. -/
theorem near (h : Rounds q x) (low : -1048576 ≤ q) (high : q ≤ 1048576) :
    x.isFinite = true ∧ q - 1 / 1048576 ≤ x.value ∧ x.value ≤ q + 1 / 1048576 := by
  have grid : (1048576 : ℚ) = 2 ^ 20 := by norm_num
  have width : (0 : ℚ) < 2 ^ 20 := by positivity
  rw [grid] at low high ⊢
  have low : -(2 ^ 40) ≤ q * 2 ^ 20 := by linarith
  have high : q * 2 ^ 20 ≤ 2 ^ 40 := by linarith
  have floor : -(2 ^ 40) ≤ ⌊q * 2 ^ 20⌋ := Int.le_floor.mpr (by exact_mod_cast low)
  have ceil : ⌈q * 2 ^ 20⌉ ≤ 2 ^ 40 := Int.ceil_le.mpr (by exact_mod_cast high)
  have order := Int.floor_le_ceil (q * 2 ^ 20)
  have down : (⌊q * 2 ^ 20⌋ : ℚ) / 2 ^ 20 ≤ q := by
    rw [div_le_iff₀ width]
    exact Int.floor_le _
  have up : q ≤ (⌈q * 2 ^ 20⌉ : ℚ) / 2 ^ 20 := by
    rw [le_div_iff₀ width]
    exact Int.le_ceil _
  obtain ⟨finite, least, most⟩ := h.within (isNumber_steps (k := ⌊q * 2 ^ 20⌋) (by omega) (by decide))
    (isNumber_steps (k := ⌈q * 2 ^ 20⌉) (by omega) (by decide)) down up
  have floorNear := Int.lt_floor_add_one (q * 2 ^ 20)
  have ceilNear := Int.ceil_lt_add_one (q * 2 ^ 20)
  refine ⟨finite, le_trans ?_ least, le_trans most ?_⟩
  · rw [le_div_iff₀ width, sub_mul, one_div_mul_cancel width.ne']
    linarith
  · rw [div_le_iff₀ width, add_mul, one_div_mul_cancel width.ne']
    linarith

end Rounds

/-- Rounding up to a count of at most 53 significant bits does not pass it. -/
theorem le_roundUnits {num den units : Nat} (short : units % 2 ^ (units.log2 - 52) = 0) (pos : 0 < den)
    (h : units * den ≤ num) : units ≤ roundUnits num den := by
  have below : units ≤ num / den := (Nat.le_div_iff_mul_le pos).mpr h
  have grid {u : Nat} (dvd : 2 ^ ((num / den).log2 - 52) ∣ u) (small : u ≤ num / den) :
      u ≤ roundUnits num den := by
    obtain ⟨n, split⟩ := dvd
    have steps : n ≤ num / (den * 2 ^ ((num / den).log2 - 52)) := by
      rw [← Nat.div_div_eq_div_mul, Nat.le_div_iff_mul_le (Nat.two_pow_pos _), Nat.mul_comm, ← split]
      exact small
    rw [roundUnits_eq, split, Nat.mul_comm]
    exact Nat.mul_le_mul_right _ (steps.trans (div_le_roundDiv _ _))
  rcases Nat.eq_zero_or_pos units with rfl | some_units
  · exact Nat.zero_le _
  have some_quotient : num / den ≠ 0 := (some_units.trans_le below).ne'
  have bits : units.log2 ≤ (num / den).log2 := by
    rw [Nat.log2_eq_log_two, Nat.log2_eq_log_two]
    exact Nat.log_mono_right below
  rcases Nat.lt_or_eq_of_le bits with fewer | same
  · -- the power of two of the quotient is on its grid, and not below the number
    have power : 2 ^ (num / den).log2 ≤ roundUnits num den :=
      grid (Nat.pow_dvd_pow 2 (Nat.sub_le _ _)) (Nat.log2_self_le some_quotient)
    have least : units < 2 ^ (units.log2 + 1) := Nat.lt_log2_self
    exact (least.le.trans (Nat.pow_le_pow_right Nat.two_pos fewer)).trans power
  · exact grid (same ▸ Nat.dvd_of_mod_eq_zero short) below

theorem Rounds.neg {q : ℚ} {x : Binary64} (h : Rounds q x) : Rounds (-q) (-x) where
  above a ha low := by
    rw [← double_neg a, negated_le_iff]
    exact h.below (-a) (isFinite_neg ha) (by rw [value_neg]; linarith)
  below a ha high := by
    rw [← double_neg a, negated_le_iff]
    exact h.above (-a) (isFinite_neg ha) (by rw [value_neg]; linarith)

/-- A quotient of unit counts is rounded. -/
theorem rounds_ratio (num : Nat) {den : Nat} (pos : 0 < den) :
    Rounds (num / den / unitsPerOne) (round false num den) := by
  have den_pos : (0 : ℚ) < den := Nat.cast_pos.mpr pos
  constructor
  · intro a finite low
    obtain ⟨s, m, fits, rfl⟩ := exists_of_isFinite finite
    rw [value_eq, div_le_div_iff_of_pos_right unitsPerOne_cast_pos, le_div_iff₀ den_pos] at low
    unfold round
    split
    · rw [finite_le_iff]
      cases s with
      | false =>
          rw [signedUnits, if_neg Bool.false_ne_true] at low
          have below : m * den ≤ num := by exact_mod_cast low
          exact Int.ofNat_le.mpr (le_roundUnits fits.2 pos below)
      | true => exact (Int.neg_nonpos_of_nonneg (Int.natCast_nonneg m)).trans (Int.natCast_nonneg _)
    · rfl
  · intro a finite high
    obtain ⟨s, m, fits, rfl⟩ := exists_of_isFinite finite
    rw [value_eq, div_le_div_iff_of_pos_right unitsPerOne_cast_pos, div_le_iff₀ den_pos] at high
    have least : 0 ≤ signedUnits s m := by
      by_contra! negative
      have product : (signedUnits s m : ℚ) * den < 0 :=
        mul_neg_of_neg_of_pos (Int.cast_lt_zero.mpr negative) den_pos
      exact absurd (high.trans_lt product) (not_lt_of_ge (Nat.cast_nonneg num))
    have size : signedUnits s m = m := by
      cases s with
      | false => rfl
      | true =>
          rw [signedUnits, if_pos rfl] at least ⊢
          omega
    rw [size] at high
    have above : num ≤ m * den := by exact_mod_cast high
    obtain ⟨rounded, fits', made, below⟩ := round_eq_finite fits pos above false
    rw [made, finite_le_iff, size]
    exact Int.ofNat_le.mpr below

/-- A signed quotient of unit counts is rounded. -/
theorem rounds_round (num : Nat) {den : Nat} (pos : 0 < den) (negative : Bool) :
    Rounds (signedUnits negative num / den / unitsPerOne) (round negative num den) := by
  have positive := rounds_ratio num pos
  cases negative with
  | false => exact positive
  | true =>
      have negated := positive.neg
      rw [neg_round, ← neg_div, ← neg_div] at negated
      rwa [signedUnits, if_pos rfl, Int.cast_neg, Int.cast_natCast]

/-! ## Operations -/

/-- A number is the nearest one to a rational number. -/
def IsNearest (q : ℚ) (x : Binary64) : Prop :=
  ∃ (negative : Bool) (num den : Nat), 0 < den ∧ (signedUnits negative num : ℚ) / den / unitsPerOne = q ∧
    x = round negative num den

theorem IsNearest.rounds {q : ℚ} {x : Binary64} (h : IsNearest q x) : Rounds q x := by
  obtain ⟨negative, num, den, pos, rfl, made⟩ := h
  rw [made]
  exact rounds_round num pos negative

section Monotone

variable {num num' den den' : Nat}

/-- Rounding keeps the order of quotients: either they are rounded on one grid, or a power of two is
between them. -/
theorem roundUnits_mono (pos : 0 < den) (h : num ≤ num') : roundUnits num den ≤ roundUnits num' den := by
  have quotients : num / den ≤ num' / den := Nat.div_le_div_right h
  have bits : (num / den).log2 ≤ (num' / den).log2 := by
    rw [Nat.log2_eq_log_two, Nat.log2_eq_log_two]
    exact Nat.log_mono_right quotients
  rcases Nat.lt_or_eq_of_le bits with fewer | same
  · have short (k : Nat) : 2 ^ k % 2 ^ ((2 ^ k).log2 - 52) = 0 := by
      simpa using steps_mod Nat.one_le_two_pow k
    have some_quotient : num' / den ≠ 0 := by
      intro none
      rw [none] at fewer
      exact absurd fewer (Nat.not_lt_zero _)
    have below : num ≤ 2 ^ (num' / den).log2 * den := by
      have power : num / den < 2 ^ (num' / den).log2 :=
        Nat.lt_log2_self.trans_le (Nat.pow_le_pow_right Nat.two_pos fewer)
      exact ((Nat.div_lt_iff_lt_mul pos).mp power).le
    have above : 2 ^ (num' / den).log2 * den ≤ num' :=
      (Nat.le_div_iff_mul_le pos).mp (Nat.log2_self_le some_quotient)
    exact (roundUnits_le (short _) pos below).trans (le_roundUnits (short _) pos above)
  · rw [roundUnits_eq, roundUnits_eq, same]
    exact Nat.mul_le_mul_right _ (roundDiv_mono h)

theorem round_mono (pos : 0 < den) (pos' : 0 < den') (h : num * den' ≤ num' * den) :
    round false num den ≤ round false num' den' := by
  have units : roundUnits num den ≤ roundUnits num' den' := by
    rw [← roundUnits_mul pos' num den, ← roundUnits_mul pos num' den', Nat.mul_comm den' den]
    refine roundUnits_mono (Nat.mul_pos pos pos') ?_
    rwa [Nat.mul_comm den' num, Nat.mul_comm den num']
  unfold round
  by_cases fits' : Fits (roundUnits num' den')
  · have fits : Fits (roundUnits num den) := fits_roundUnits pos (units.trans_lt fits'.1)
    rw [dif_pos fits, dif_pos fits', finite_le_iff]
    exact Int.ofNat_le.mpr units
  · rw [dif_neg fits']
    split
    · rfl
    · rfl

theorem round_true_le_round_false (num num' den den' : Nat) :
    round true num den ≤ round false num' den' := by
  unfold round
  split
  · split
    · rw [finite_le_iff]
      exact (Int.neg_nonpos_of_nonneg (Int.natCast_nonneg _)).trans (Int.natCast_nonneg _)
    · rfl
  · split
    · rfl
    · rfl

/-- Of two rational numbers the greater one is not rounded to the lesser number. -/
theorem IsNearest.mono {p q : ℚ} {x y : Binary64} (hx : IsNearest p x) (hy : IsNearest q y) (h : p ≤ q) :
    x ≤ y := by
  obtain ⟨s, num, den, pos, rfl, made⟩ := hx
  obtain ⟨t, num', den', pos', rfl, made'⟩ := hy
  rw [made, made']
  rw [div_le_div_iff_of_pos_right unitsPerOne_cast_pos,
    div_le_div_iff₀ (Nat.cast_pos.mpr pos) (Nat.cast_pos.mpr pos')] at h
  have cross : signedUnits s num * den' ≤ signedUnits t num' * den := by exact_mod_cast h
  have least : 0 ≤ ((num * den' : Nat) : Int) ∧ 0 ≤ ((num' * den : Nat) : Int) :=
    ⟨Int.natCast_nonneg _, Int.natCast_nonneg _⟩
  push_cast at least
  cases s with
  | false =>
      cases t with
      | false =>
          simp only [signedUnits, Bool.false_eq_true, if_false] at cross
          exact round_mono pos pos' (by exact_mod_cast cross)
      | true =>
          -- both numbers are zero
          simp only [signedUnits, Bool.false_eq_true, if_false, if_true, Int.neg_mul] at cross
          have none : num * den' = 0 ∧ num' * den = 0 := by constructor <;> zify <;> omega
          obtain rfl : num = 0 := (Nat.mul_eq_zero.mp none.1).resolve_right pos'.ne'
          obtain rfl : num' = 0 := (Nat.mul_eq_zero.mp none.2).resolve_right pos.ne'
          obtain ⟨m, fits, made, zero⟩ := round_eq_finite fits_zero pos (Nat.zero_mul den).ge false
          obtain ⟨n, fits', made', zero'⟩ := round_eq_finite fits_zero pos' (Nat.zero_mul den').ge true
          obtain rfl := Nat.le_zero.mp zero
          obtain rfl := Nat.le_zero.mp zero'
          rw [made, made', finite_le_iff]
          exact Int.le_refl _
  | true =>
      cases t with
      | false => exact round_true_le_round_false num num' den den'
      | true =>
          simp only [signedUnits, if_true, Int.neg_mul] at cross
          have turned : num' * den ≤ num * den' := by zify; omega
          have back := round_mono pos' pos turned
          rwa [← negated_le_iff, neg_round, neg_round] at back

end Monotone

section Operations

variable {x y z : Binary64}

theorem signedUnits_mul (s t : Bool) (m n : Nat) :
    signedUnits (s != t) (m * n) = signedUnits s m * signedUnits t n := by
  cases s <;> cases t <;> simp [signedUnits]

/-- A number is the nearest one to itself. -/
theorem isNearest_value {x : Binary64} (finite : x.isFinite = true) : IsNearest x.value x := by
  obtain ⟨s, m, fits, rfl⟩ := exists_of_isFinite finite
  exact ⟨s, m, 1, Nat.one_pos, by rw [Nat.cast_one, div_one, value_eq], (round_one fits s).symm⟩

theorem isNearest_add (hx : x.isFinite = true) (hy : y.isFinite = true) :
    IsNearest (x.value + y.value) (x + y) := by
  obtain ⟨s, m, fits, rfl⟩ := exists_of_isFinite hx
  obtain ⟨t, n, fits', rfl⟩ := exists_of_isFinite hy
  have sum : finite s m fits + finite t n fits' = if signedUnits s m + signedUnits t n = 0 then
      .finite (s && t) 0 fits_zero else round (decide (signedUnits s m + signedUnits t n < 0))
        (signedUnits s m + signedUnits t n).natAbs 1 := rfl
  rw [sum, value_eq, value_eq, ← add_div, ← Int.cast_add]
  generalize signedUnits s m + signedUnits t n = total
  split
  · rename_i none
    have zero : ((total : ℤ) : ℚ) / unitsPerOne = (finite (s && t) 0 fits_zero).value := by
      rw [none, value_eq, signedUnits_zero]
    rw [zero]
    exact isNearest_value rfl
  · have signed : signedUnits (decide (total < 0)) total.natAbs = total := by
      unfold signedUnits
      split
      · rename_i negative
        have := of_decide_eq_true negative
        omega
      · rename_i positive
        have := of_decide_eq_false (eq_false_of_ne_true positive)
        omega
    exact ⟨_, _, 1, Nat.one_pos, by rw [signed, Nat.cast_one, div_one], rfl⟩

theorem isNearest_sub (hx : x.isFinite = true) (hy : y.isFinite = true) :
    IsNearest (x.value - y.value) (x - y) := by
  have sum := isNearest_add hx (isFinite_neg hy)
  rwa [value_neg, ← sub_eq_add_neg] at sum

theorem isNearest_mul (hx : x.isFinite = true) (hy : y.isFinite = true) :
    IsNearest (x.value * y.value) (x * y) := by
  obtain ⟨s, m, fits, rfl⟩ := exists_of_isFinite hx
  obtain ⟨t, n, fits', rfl⟩ := exists_of_isFinite hy
  refine ⟨s != t, m * n, unitsPerOne, unitsPerOne_pos, ?_, finite_mul_finite s t fits fits'⟩
  rw [signedUnits_mul, Int.cast_mul, value_eq, value_eq, div_mul_div_comm, ← div_div]

/-- A quotient by a number that is not zero. -/
theorem isNearest_div (hx : x.isFinite = true) (hy : y.isFinite = true) (other : y.value ≠ 0) :
    IsNearest (x.value / y.value) (x / y) := by
  obtain ⟨s, m, fits, rfl⟩ := exists_of_isFinite hx
  obtain ⟨t, n, fits', rfl⟩ := exists_of_isFinite hy
  have some_units : n ≠ 0 := by
    rintro rfl
    apply other
    rw [value_eq, signedUnits_zero, Int.cast_zero, zero_div]
  have quotient : finite s m fits / finite t n fits' = round (s != t) (m * unitsPerOne) n := by
    show div (.finite s m fits) (.finite t n fits') = _
    rw [div, if_neg some_units]
  refine ⟨_, _, n, Nat.pos_of_ne_zero some_units, ?_, quotient⟩
  have some_units : (n : ℚ) ≠ 0 := Nat.cast_ne_zero.mpr some_units
  have units := unitsPerOne_cast_pos.ne'
  rw [value_eq, value_eq]
  generalize unitsPerOne = one at units ⊢
  cases s <;> cases t <;> simp [signedUnits] <;> field_simp

theorem isNearest_ofDecimal (digits : Nat) (exponent : Int) :
    IsNearest (digits * 10 ^ exponent) (ofDecimal false digits exponent) := by
  obtain ⟨num, den, pos, rounded, quotient⟩ := ofDecimal_eq_round false digits exponent
  refine ⟨false, num, den, pos, ?_, rounded⟩
  rw [div_eq_iff unitsPerOne_cast_pos.ne', ← quotient]
  rfl

theorem rounds_add (hx : x.isFinite = true) (hy : y.isFinite = true) : Rounds (x.value + y.value) (x + y) :=
  (isNearest_add hx hy).rounds

theorem rounds_sub (hx : x.isFinite = true) (hy : y.isFinite = true) : Rounds (x.value - y.value) (x - y) :=
  (isNearest_sub hx hy).rounds

theorem rounds_mul (hx : x.isFinite = true) (hy : y.isFinite = true) : Rounds (x.value * y.value) (x * y) :=
  (isNearest_mul hx hy).rounds

theorem rounds_div (hx : x.isFinite = true) (hy : y.isFinite = true) (other : y.value ≠ 0) :
    Rounds (x.value / y.value) (x / y) :=
  (isNearest_div hx hy other).rounds

theorem rounds_ofDecimal (digits : Nat) (exponent : Int) :
    Rounds (digits * 10 ^ exponent) (ofDecimal false digits exponent) :=
  (isNearest_ofDecimal digits exponent).rounds

/-! The order of sums is that of their terms, and so it is with positive multiples and parts. -/

theorem add_le_add_of_le (hx : x.isFinite = true) (hy : y.isFinite = true) (hz : z.isFinite = true)
    (h : x ≤ y) : x + z ≤ y + z :=
  (isNearest_add hx hz).mono (isNearest_add hy hz)
    (add_le_add_left ((le_iff_value_le hx hy).mp h) z.value)

theorem mul_le_mul_of_le (hx : x.isFinite = true) (hy : y.isFinite = true) (hz : z.isFinite = true)
    (nonneg : 0 ≤ z.value) (h : x ≤ y) : z * x ≤ z * y :=
  (isNearest_mul hz hx).mono (isNearest_mul hz hy)
    (mul_le_mul_of_nonneg_left ((le_iff_value_le hx hy).mp h) nonneg)

theorem div_le_div_of_le (hx : x.isFinite = true) (hy : y.isFinite = true) (hz : z.isFinite = true)
    (pos : 0 < z.value) (h : x ≤ y) : x / z ≤ y / z :=
  (isNearest_div hx hz pos.ne').mono (isNearest_div hy hz pos.ne')
    (div_le_div_of_nonneg_right ((le_iff_value_le hx hy).mp h) pos.le)

/-- What is added to a number that is not negative is not above the sum. -/
theorem le_add_of_zero_le (hx : x.isFinite = true) (hy : y.isFinite = true) (h : 0 ≤ x) : y ≤ x + y :=
  (isNearest_value hy).mono (isNearest_add hx hy)
    (le_add_of_nonneg_left ((zero_le_iff hx).mp h))

/-- The sum of two numbers is finite if a number that is above neither of them can be taken twice or more
times. -/
theorem isFinite_add_of_mul {n : Nat} (small : n ≤ 2 ^ 53) (twice : 2 ≤ n) (hx : x.isFinite = true)
    (hy : y.isFinite = true) (hz : z.isFinite = true) (nonneg : 0 ≤ x) (first : x ≤ z) (second : y ≤ z)
    (finite : (z * OfNat.ofNat n).isFinite = true) : (x + y).isFinite = true := by
  have whole : (OfNat.ofNat n : Binary64).isFinite = true := isFinite_ofNat small
  refine isFinite_of_between hy finite (le_add_of_zero_le hx hy nonneg) ?_
  refine (isNearest_add hx hy).mono (isNearest_mul hz whole) ?_
  rw [value_ofNat small]
  have first := (le_iff_value_le hx hz).mp first
  have second := (le_iff_value_le hy hz).mp second
  have nonneg := (zero_le_iff hx).mp nonneg
  have count : (2 : ℚ) ≤ n := by exact_mod_cast twice
  calc x.value + y.value ≤ z.value * 2 := by linarith only [first, second]
    _ ≤ z.value * n := mul_le_mul_of_nonneg_left count (nonneg.trans first)

end Operations

/-! ## Whole parts -/

/-- The whole part of a number is a number: above 53 bits there are whole numbers only. -/
theorem fits_wholePart {units : Nat} (fits : Fits units) : Fits (units / unitsPerOne * unitsPerOne) := by
  rcases Nat.le_total (units / unitsPerOne) (2 ^ 53) with few | many
  · exact fits_whole few
  · obtain ⟨k, -, one⟩ := exists_unitsPerOne_eq
    have grid : unitsPerOne ∣ units := by
      have large : 2 ^ (53 + k) ≤ units := by
        rw [Nat.pow_add, ← one]
        exact (Nat.le_div_iff_mul_le unitsPerOne_pos).mp many
      have bits : 53 + k ≤ units.log2 := by
        have some_units : units ≠ 0 := (Nat.lt_of_lt_of_le (Nat.two_pow_pos _) large).ne'
        exact (Nat.le_log2 some_units).mpr large
      have step : 2 ^ (units.log2 - 52) ∣ units := Nat.dvd_of_mod_eq_zero fits.2
      rw [one]
      exact (Nat.pow_dvd_pow 2 (by omega)).trans step
    rwa [Nat.div_mul_cancel grid]

theorem ofInt_eq_whole {n : Int} (fits : Fits (n.natAbs * unitsPerOne)) :
    ofInt n = .finite (decide (n < 0)) (n.natAbs * unitsPerOne) fits :=
  round_one fits (decide (n < 0))

end Splice.Binary64
