import Mathlib.Algebra.Order.Field.Rat
import Mathlib.Tactic.Linarith
import Mathlib.Tactic.Positivity
import Splice.Binary64.Printer
import Splice.Proofs.Binary64.Rounding

/-! # Shortest decimals

The shortest decimal of a number reads back as the number: a point of a grid is only taken if it does,
and on the grid of seventeen digits the nearest point always does.
-/

namespace Splice.Binary64

theorem pow_le_of_digits {n : Nat} (pos : 0 < n) :
    10 ^ ((wholeDigits n).length - 1) ≤ n ∧ n < 10 ^ (wholeDigits n).length := by
  have some' : 0 < (wholeDigits n).length := Nat.length_toDigits_pos
  refine ⟨?_, (Nat.length_toDigits_le_iff (by decide) some').mp (Nat.le_refl _)⟩
  by_contra low
  cases single : (wholeDigits n).length - 1 with
  | zero =>
      rw [single] at low
      omega
  | succ k =>
      rw [single] at low
      have short := (Nat.length_toDigits_le_iff (by decide) (Nat.succ_pos k)).mpr (Nat.lt_of_not_le low)
      unfold wholeDigits at *
      omega

theorem length_wholeDigits {n count : Nat} (least : 10 ^ (count - 1) ≤ n) (most : n < 10 ^ count) :
    (wholeDigits n).length = count := by
  have pos : 0 < n := Nat.lt_of_lt_of_le (Nat.pow_pos (by decide)) least
  obtain ⟨low, high⟩ := pow_le_of_digits pos
  have above := (Nat.pow_lt_pow_iff_right (by decide : 1 < 10)).mp (Nat.lt_of_le_of_lt low most)
  have below := (Nat.pow_lt_pow_iff_right (by decide : 1 < 10)).mp (Nat.lt_of_le_of_lt least high)
  omega

section

variable {num den : Nat}

/-- The power of ten of the first digit is the greatest one that is not above. -/
theorem decimalExponent_spec (pos : 0 < num) (pos' : 0 < den) :
    (10 : ℚ) ^ decimalExponent num den ≤ num / den ∧
    (num : ℚ) / den < 10 ^ (decimalExponent num den + 1) := by
  have den0 : (0 : ℚ) < den := by exact_mod_cast pos'
  have num0 : (0 : ℚ) < num := by exact_mod_cast pos
  unfold decimalExponent
  split
  · rename_i whole
    have some' : 0 < num / den := Nat.div_pos whole pos'
    obtain ⟨low, high⟩ := pow_le_of_digits some'
    have filled : 0 < (wholeDigits (num / den)).length := Nat.length_toDigits_pos
    generalize (wholeDigits (num / den)).length = count at *
    have power : ((count : Int) - 1) = ((count - 1 : Nat) : Int) := by omega
    constructor
    · rw [power, zpow_natCast, le_div_iff₀ den0]
      exact_mod_cast (Nat.le_div_iff_mul_le pos').mp low
    · rw [Int.sub_add_cancel, zpow_natCast, div_lt_iff₀ den0]
      exact_mod_cast (Nat.div_lt_iff_lt_mul pos').mp high
  · rename_i part
    have fraction : num < den := Nat.lt_of_not_le part
    have split : ∃ c, 0 < c ∧ (den + num - 1) / num - 1 = c ∧ c * num < den ∧ den ≤ (c + 1) * num := by
      have least : 2 ≤ (den + num - 1) / num := (Nat.le_div_iff_mul_le pos).mpr (by omega)
      have low := Nat.div_mul_le_self (den + num - 1) num
      have high := Nat.lt_div_mul_add pos (a := den + num - 1)
      refine ⟨(den + num - 1) / num - 1, by omega, rfl, ?_, ?_⟩
      · rw [Nat.sub_mul]
        omega
      · rw [Nat.sub_add_cancel (by omega)]
        omega
    obtain ⟨c, some', eq, below, above⟩ := split
    rw [eq]
    obtain ⟨low, high⟩ := pow_le_of_digits some'
    have filled : 0 < (wholeDigits c).length := Nat.length_toDigits_pos
    generalize (wholeDigits c).length = count at *
    have power : -(count : Int) + 1 = -((count - 1 : Nat) : Int) := by omega
    constructor
    · rw [zpow_neg, zpow_natCast, inv_le_comm₀ (by positivity) (by positivity), inv_div,
        div_le_iff₀ num0]
      have : den ≤ 10 ^ count * num := Nat.le_trans above (Nat.mul_le_mul_right num high)
      exact_mod_cast this
    · rw [power, zpow_neg, zpow_natCast, lt_inv_comm₀ (by positivity) (by positivity), inv_div,
        lt_div_iff₀ num0]
      have : 10 ^ (count - 1) * num < den := Nat.lt_of_le_of_lt (Nat.mul_le_mul_right num low) below
      exact_mod_cast this

/-- The fraction in steps of a power of ten. -/
theorem inSteps_spec (num : Nat) (pos : 0 < den) (step : Int) : 0 < (inSteps num den step).2 ∧
    ((inSteps num den step).1 : ℚ) / (inSteps num den step).2 = num / den / 10 ^ step := by
  unfold inSteps
  split
  · have power : (10 : ℚ) ^ step = (10 ^ step.natAbs)⁻¹ := by
      rw [← zpow_natCast, ← zpow_neg]
      congr 1
      omega
    refine ⟨pos, ?_⟩
    rw [power, Nat.pow_eq, div_inv_eq_mul]
    push_cast
    ring
  · have power : (10 : ℚ) ^ step = 10 ^ step.natAbs := by
      rw [← zpow_natCast]
      congr 1
      omega
    refine ⟨Nat.mul_pos pos (Nat.pow_pos (by decide)), ?_⟩
    rw [power, Nat.pow_eq, div_div]
    push_cast
    rfl

/-- On the grid of some digits a fraction lies between two points of as many digits, or at the end of
them. -/
theorem inSteps_bounds (pos : 0 < num) (pos' : 0 < den) (count : Nat) (some' : 0 < count) :
    let scaled := inSteps num den (decimalExponent num den - count + 1)
    10 ^ (count - 1) ≤ scaled.1 / scaled.2 ∧ scaled.1 / scaled.2 < 10 ^ count := by
  obtain ⟨low, high⟩ := decimalExponent_spec pos pos'
  obtain ⟨steps, value⟩ := inSteps_spec num pos' (decimalExponent num den - count + 1)
  generalize decimalExponent num den = e at *
  generalize inSteps num den (e - count + 1) = scaled at *
  obtain ⟨a, b⟩ := scaled
  dsimp only at *
  have b0 : (0 : ℚ) < b := by exact_mod_cast steps
  have grid : (0 : ℚ) < 10 ^ (e - count + 1) := by positivity
  constructor
  · rw [Nat.le_div_iff_mul_le steps]
    have bound : ((10 ^ (count - 1) : Nat) : ℚ) ≤ a / b := by
      rw [value, le_div_iff₀ grid]
      refine le_trans (le_of_eq ?_) low
      push_cast
      rw [← zpow_natCast, ← zpow_add₀ (by norm_num)]
      congr 1
      omega
    rw [le_div_iff₀ b0] at bound
    exact_mod_cast bound
  · rw [Nat.div_lt_iff_lt_mul steps]
    have bound : (a : ℚ) / b < ((10 ^ count : Nat) : ℚ) := by
      rw [value, div_lt_iff₀ grid]
      refine lt_of_lt_of_eq high ?_
      push_cast
      rw [← zpow_natCast, ← zpow_add₀ (by norm_num)]
      congr 1
      omega
    rw [div_lt_iff₀ b0] at bound
    exact_mod_cast bound

end

/-! ## Decimals that read back -/

/-- The power of ten of the last digit of a decimal. -/
def Scientific.step (d : Scientific) : Int := d.exponent - (wholeDigits d.digits).length + 1

/-- A decimal that reads back as a number of units. -/
def Scientific.Denotes (d : Scientific) (units : Nat) : Prop :=
  0 < d.digits ∧ ∃ fits, ofDecimal false d.digits d.step = .finite false units fits

/-- A point of the grid of some digits; past the last one the first of the next grid. -/
def gridPoint (count : Nat) (exponent : Int) (digits : Nat) : Scientific :=
  if digits = Nat.pow 10 count then ⟨Nat.pow 10 (count - 1), exponent + 1⟩ else ⟨digits, exponent⟩

section

variable {units digits count : Nat} {exponent : Int}

theorem exists_of_readsBack {step : Int} (h : readsBack units digits step = true) :
    ∃ fits, ofDecimal false digits step = .finite false units fits := by
  obtain ⟨num, den, -, rounds, -⟩ := ofDecimal_eq_round false digits step
  rw [readsBack, rounds, round] at h
  rw [rounds, round]
  by_cases fits : Fits (roundUnits num den)
  · rw [dif_pos fits] at h ⊢
    obtain rfl := beq_iff_eq.mp h
    exact ⟨fits, rfl⟩
  · rw [dif_neg fits] at h
    cases h

/-- A point of the grid is the decimal that it is taken for. -/
theorem gridPoint_spec (exponent : Int) (some' : 0 < count) (least : 10 ^ (count - 1) ≤ digits)
    (most : digits ≤ 10 ^ count) :
    0 < (gridPoint count exponent digits).digits ∧
      ofDecimal false (gridPoint count exponent digits).digits (gridPoint count exponent digits).step =
        ofDecimal false digits (exponent - count + 1) := by
  unfold gridPoint
  split
  · rename_i past
    have length : (wholeDigits (Nat.pow 10 (count - 1))).length = count := by
      apply length_wholeDigits (Nat.le_refl _)
      exact Nat.pow_lt_pow_right (by decide) (by omega)
    refine ⟨Nat.pow_pos (by decide), ofDecimal_congr ?_ false⟩
    rw [Scientific.step, length, past, Nat.pow_eq, Nat.pow_eq]
    push_cast
    rw [← zpow_natCast, ← zpow_natCast, ← zpow_add₀ (by norm_num), ← zpow_add₀ (by norm_num)]
    congr 1
    omega
  · rename_i within
    have length : (wholeDigits digits).length = count :=
      length_wholeDigits least (Nat.lt_of_le_of_ne most within)
    refine ⟨Nat.lt_of_lt_of_le (Nat.pow_pos (by decide)) least, ?_⟩
    rw [Scientific.step, length]

theorem gridPoint_exponent (count : Nat) (exponent : Int) (digits : Nat) :
    exponent ≤ (gridPoint count exponent digits).exponent ∧
      (gridPoint count exponent digits).exponent ≤ exponent + 1 := by
  unfold gridPoint
  split <;> constructor <;> dsimp only <;> omega

/-- A decimal found on a grid reads back. -/
theorem onGrid?_denotes (pos : 0 < units) (some' : 0 < count) {d : Scientific}
    (h : onGrid? units count = some d) :
    d.Denotes units ∧ ∃ n, d = gridPoint count (decimalExponent units unitsPerOne) n := by
  obtain ⟨least, most⟩ := inSteps_bounds pos unitsPerOne_pos count some'
  unfold onGrid? at h
  dsimp only at h least most
  generalize decimalExponent units unitsPerOne = e at *
  generalize inSteps units unitsPerOne (e - count + 1) = scaled at *
  have up := roundDiv_le_succ scaled.1 scaled.2
  have down := div_le_roundDiv scaled.1 scaled.2
  have taken {n : Nat} (low : scaled.1 / scaled.2 ≤ n) (high : n ≤ scaled.1 / scaled.2 + 1)
      (reads : readsBack units n (e - count + 1) = true) : (gridPoint count e n).Denotes units := by
    obtain ⟨filled, same⟩ := gridPoint_spec e some' (Nat.le_trans least low) (by omega : n ≤ 10 ^ count)
    obtain ⟨fits, back⟩ := exists_of_readsBack reads
    exact ⟨filled, fits, same.trans back⟩
  have far : ∃ n, (if roundDiv scaled.1 scaled.2 = scaled.1 / scaled.2 then scaled.1 / scaled.2 + 1
      else scaled.1 / scaled.2) = n ∧ scaled.1 / scaled.2 ≤ n ∧ n ≤ scaled.1 / scaled.2 + 1 := by
    split
    · exact ⟨_, rfl, Nat.le_succ _, Nat.le_refl _⟩
    · exact ⟨_, rfl, Nat.le_refl _, Nat.le_succ _⟩
  obtain ⟨n, eq, low, high⟩ := far
  rw [eq] at h
  by_cases near : readsBack units (roundDiv scaled.1 scaled.2) (e - count + 1) = true
  · rw [if_pos near] at h
    cases h
    exact ⟨taken down up near, _, rfl⟩
  · rw [if_neg near] at h
    by_cases other : readsBack units n (e - count + 1) = true
    · rw [if_pos other] at h
      cases h
      exact ⟨taken low high other, _, rfl⟩
    · rw [if_neg other] at h
      cases h

theorem roundDiv_bounds (num : Nat) {den : Nat} (pos : 0 < den) :
    2 * (roundDiv num den * den) ≤ 2 * num + den ∧ 2 * num ≤ 2 * (roundDiv num den * den) + den := by
  have split : num / den * den + num % den = num := Nat.div_add_mod' num den
  have rest : num % den < den := Nat.mod_lt num pos
  unfold roundDiv
  dsimp only
  generalize num / den = q at *
  generalize num % den = r at *
  split
  · constructor <;> omega
  · split
    · rw [Nat.add_mul, Nat.one_mul]
      constructor <;> omega
    · obtain even | odd := Nat.mod_two_eq_zero_or_one q
      · rw [even, Nat.add_zero]
        constructor <;> omega
      · rw [odd, Nat.add_mul, Nat.one_mul]
        constructor <;> omega

/-- A quotient that was rounded is off by at most half a step, in units as on the grid. -/
theorem roundDiv_steps {a b units : Nat} {g : ℚ} (steps : 0 < b) (pos : 0 < g)
    (scale : (units : ℚ) * b = a * g) :
    2 * (roundDiv a b * g) ≤ 2 * units + g ∧ 2 * (units : ℚ) ≤ 2 * (roundDiv a b * g) + g := by
  obtain ⟨low, high⟩ := roundDiv_bounds a steps
  have b0 : (0 : ℚ) < b := by exact_mod_cast steps
  constructor
  · have whole : (2 : ℚ) * (roundDiv a b * b) ≤ 2 * a + b := by exact_mod_cast low
    apply le_of_mul_le_mul_right _ b0
    calc 2 * (roundDiv a b * g) * b = 2 * (roundDiv a b * b) * g := by ring
      _ ≤ (2 * a + b) * g := mul_le_mul_of_nonneg_right whole pos.le
      _ = 2 * (a * g) + g * b := by ring
      _ = (2 * units + g) * b := by rw [← scale]; ring
  · have whole : (2 : ℚ) * a ≤ 2 * (roundDiv a b * b) + b := by exact_mod_cast high
    apply le_of_mul_le_mul_right _ b0
    calc 2 * (units : ℚ) * b = 2 * a * g := by rw [mul_assoc, scale]; ring
      _ ≤ (2 * (roundDiv a b * b) + b) * g := mul_le_mul_of_nonneg_right whole pos.le
      _ = (2 * (roundDiv a b * g) + g) * b := by ring

/-- If there are seventeen digits, half a step is less than one part in `2 · 10 ^ 16`. -/
theorem roundDiv_near {a b units num den : Nat} {g : ℚ} (steps : 0 < b) (least : 10 ^ 16 ≤ a / b)
    (pos : 0 < g) (scale : (units : ℚ) * b = a * g) (decimal : (num : ℚ) = roundDiv a b * g * den) :
    (2 * 10 ^ 16 - 1) * (units * den) ≤ 2 * 10 ^ 16 * num ∧
      2 * 10 ^ 16 * num ≤ (2 * 10 ^ 16 + 1) * (units * den) := by
  obtain ⟨low, high⟩ := roundDiv_steps steps pos scale
  have b0 : (0 : ℚ) < b := by exact_mod_cast steps
  have den0 : (0 : ℚ) ≤ den := Nat.cast_nonneg den
  have coarse : 10 ^ 16 * g ≤ units := by
    have whole : (10 : ℚ) ^ 16 * b ≤ a := by exact_mod_cast (Nat.le_div_iff_mul_le steps).mp least
    apply le_of_mul_le_mul_right _ b0
    calc 10 ^ 16 * g * b = 10 ^ 16 * b * g := by ring
      _ ≤ a * g := mul_le_mul_of_nonneg_right whole pos.le
      _ = units * b := scale.symm
  constructor
  · have bound : ((2 * 10 ^ 16 - 1 : Nat) : ℚ) * (units * den) ≤ 2 * 10 ^ 16 * num := by
      rw [decimal]
      calc ((2 * 10 ^ 16 - 1 : Nat) : ℚ) * (units * den) = (2 * 10 ^ 16 * units - units) * den := by
            norm_num
            ring
        _ ≤ 2 * 10 ^ 16 * (roundDiv a b * g) * den := mul_le_mul_of_nonneg_right (by linarith) den0
        _ = 2 * 10 ^ 16 * (roundDiv a b * g * den) := by ring
    exact_mod_cast bound
  · have bound : (2 : ℚ) * 10 ^ 16 * num ≤ (2 * 10 ^ 16 + 1) * (units * den) := by
      rw [decimal]
      calc (2 : ℚ) * 10 ^ 16 * (roundDiv a b * g * den) = 2 * 10 ^ 16 * (roundDiv a b * g) * den := by
            ring
        _ ≤ (2 * 10 ^ 16 + 1) * (units : ℚ) * den := mul_le_mul_of_nonneg_right (by linarith) den0
        _ = (2 * 10 ^ 16 + 1) * ((units : ℚ) * den) := by ring
    exact_mod_cast bound

/-- Rounded to seventeen digits a number reads back: half a step of them is less than half the distance
to the next number. -/
theorem significant_denotes (fits : Fits units) (pos : 0 < units) :
    (significant 17 units unitsPerOne).Denotes units ∧
      ∃ n, significant 17 units unitsPerOne = gridPoint 17 (decimalExponent units unitsPerOne) n := by
  obtain ⟨least, most⟩ := inSteps_bounds pos unitsPerOne_pos 17 (by decide)
  obtain ⟨steps, value⟩ :=
    inSteps_spec units unitsPerOne_pos (decimalExponent units unitsPerOne - (17 : Nat) + 1)
  have unit : (0 : ℚ) < unitsPerOne := by exact_mod_cast unitsPerOne_pos
  unfold significant
  dsimp only at *
  generalize decimalExponent units unitsPerOne = e at *
  generalize inSteps units unitsPerOne (e - (17 : Nat) + 1) = scaled at *
  obtain ⟨a, b⟩ := scaled
  dsimp only at *
  have up := roundDiv_le_succ a b
  have down := div_le_roundDiv a b
  obtain ⟨filled, same⟩ := gridPoint_spec e (by decide : 0 < 17) (Nat.le_trans least down)
    (by omega : roundDiv a b ≤ 10 ^ 17)
  refine ⟨⟨filled, ?_⟩, _, rfl⟩
  obtain ⟨num, den, pos', rounds, quotient⟩ :=
    ofDecimal_eq_round false (roundDiv a b) (e - (17 : Nat) + 1)
  have b0 : (0 : ℚ) < b := by exact_mod_cast steps
  have den0 : (0 : ℚ) < den := by exact_mod_cast pos'
  -- A step of the grid and the decimal on it, in units.
  obtain ⟨g, hg⟩ : ∃ g : ℚ, g = 10 ^ (e - (17 : Nat) + 1) * unitsPerOne := ⟨_, rfl⟩
  have g0 : 0 < g := hg ▸ mul_pos (by positivity) unit
  have scale : (units : ℚ) * b = a * g := by
    rw [div_div, mul_comm (unitsPerOne : ℚ), ← hg, div_eq_div_iff b0.ne' g0.ne'] at value
    exact value.symm
  have decimal : (num : ℚ) = roundDiv a b * g * den := by
    rw [mul_assoc, ← hg, div_eq_iff den0.ne'] at quotient
    exact quotient
  obtain ⟨below, above⟩ := roundDiv_near steps least g0 scale decimal
  have units' := roundUnits_near fits pos pos' below above
  have fits' : Fits (roundUnits num den) := by rwa [units']
  refine ⟨fits, same.trans ?_⟩
  rw [rounds, round, dif_pos fits']
  simp only [units']

theorem two_pow_le_ten_pow {n k : Nat} (h : n ≤ 3 * k) : 2 ^ n ≤ 10 ^ k :=
  calc 2 ^ n ≤ 2 ^ (3 * k) := Nat.pow_le_pow_right (by decide) h
    _ = 8 ^ k := Nat.pow_mul 2 3 k
    _ ≤ 10 ^ k := Nat.pow_le_pow_left (by decide) k

theorem unitsPerOne_le {k : Nat} (h : 1074 ≤ 3 * k) : unitsPerOne ≤ 10 ^ k := by
  unfold unitsPerOne
  generalize 1074 = n at *
  exact two_pow_le_ten_pow h

theorem unitLimit_le {k : Nat} (h : 1024 ≤ 3 * k) : unitLimit ≤ 10 ^ k * unitsPerOne := by
  obtain ⟨m, size⟩ : ∃ m, m = 1024 := ⟨1024, rfl⟩
  have limit : unitLimit = 2 ^ m * unitsPerOne := by
    unfold unitLimit unitsPerOne
    have sum : 2098 = m + 1074 := by omega
    generalize 1074 = n at *
    rw [sum]
    exact Nat.pow_add 2 m n
  rw [limit]
  exact Nat.mul_le_mul_right _ (two_pow_le_ten_pow (by omega))

/-- No number is further than 400 powers of ten from one. -/
theorem decimalExponent_bounds (fits : Fits units) (pos : 0 < units) :
    -400 ≤ decimalExponent units unitsPerOne ∧ decimalExponent units unitsPerOne < 400 := by
  obtain ⟨low, high⟩ := decimalExponent_spec pos unitsPerOne_pos
  have unit : (0 : ℚ) < unitsPerOne := by exact_mod_cast unitsPerOne_pos
  have one : (1 : ℚ) < 10 := by norm_num
  obtain ⟨k, bound⟩ : ∃ k : Nat, k = 400 := ⟨400, rfl⟩
  have power : (10 : ℚ) ^ (k : Int) = ((10 ^ k : Nat) : ℚ) := by
    rw [zpow_natCast]
    push_cast
    rfl
  generalize decimalExponent units unitsPerOne = e at *
  constructor
  · have least : (unitsPerOne : ℚ) ≤ 10 ^ (k : Int) := by
      rw [power]
      exact_mod_cast unitsPerOne_le (by omega)
    have some' : (1 : ℚ) ≤ units := by exact_mod_cast pos
    have less : (10 : ℚ) ^ (-(k : Int)) < 10 ^ (e + 1) := by
      refine lt_of_le_of_lt ?_ high
      have quotient : (0 : ℚ) < units / unitsPerOne := div_pos (lt_of_lt_of_le one_pos some') unit
      rw [zpow_neg, inv_le_comm₀ (by positivity) quotient, inv_div]
      exact (div_le_self unit.le some').trans least
    have apart := (zpow_lt_zpow_iff_right₀ one).mp less
    omega
  · have most : (units : ℚ) / unitsPerOne < 10 ^ (k : Int) := by
      rw [power, div_lt_iff₀ unit]
      exact_mod_cast Nat.lt_of_lt_of_le fits.1 (unitLimit_le (by omega))
    have apart := (zpow_lt_zpow_iff_right₀ one).mp (lt_of_le_of_lt low most)
    omega

/-- The shortest decimal of a number reads back as the number. -/
theorem shortest_denotes (fits : Fits units) (pos : 0 < units) :
    (shortest units).Denotes units ∧ -400 ≤ (shortest units).exponent ∧
    (shortest units).exponent ≤ 400 := by
  have choice : (shortest units).Denotes units ∧ ∃ count n,
      shortest units = gridPoint count (decimalExponent units unitsPerOne) n := by
    unfold shortest
    cases found : (List.range 16).findSome? fun i => onGrid? units (i + 1) with
    | none =>
        obtain ⟨denotes, n, grid⟩ := significant_denotes fits pos
        rw [Option.getD_none]
        exact ⟨denotes, 17, n, grid⟩
    | some d =>
        obtain ⟨i, -, onGrid⟩ := List.exists_of_findSome?_eq_some found
        obtain ⟨denotes, n, grid⟩ := onGrid?_denotes pos (Nat.succ_pos i) onGrid
        rw [Option.getD_some]
        exact ⟨denotes, i + 1, n, grid⟩
  obtain ⟨denotes, count, n, grid⟩ := choice
  obtain ⟨least, most⟩ := decimalExponent_bounds fits pos
  obtain ⟨low, high⟩ := gridPoint_exponent count (decimalExponent units unitsPerOne) n
  rw [← grid] at low high
  exact ⟨denotes, by omega, by omega⟩

end

end Splice.Binary64
