import Splice.Proofs.Binary64.Rounding

/-! # The order of binary64 numbers

Rounding never passes a number, so that a quotient with a number above it is rounded to a number: whole
numbers and decimals of usual size are. A difference of two numbers is rounded too, and yet its sign is
theirs; whole parts fail at infinities only.
-/

namespace Splice

theorem roundDiv_le {num den n : Nat} (pos : 0 < den) (h : num ≤ n * den) : roundDiv num den ≤ n := by
  have split : num / den * den + num % den = num := Nat.div_add_mod' num den
  have below : num / den ≤ n := Nat.div_le_of_le_mul (by rwa [Nat.mul_comm])
  rcases Nat.lt_or_eq_of_le below with less | rfl
  · exact (roundDiv_le_succ num den).trans less
  · have rest : num % den = 0 := by omega
    simp [roundDiv, rest, pos]

/-- Rounding keeps the order of quotients. -/
theorem roundDiv_mono {num num' den : Nat} (h : num ≤ num') : roundDiv num den ≤ roundDiv num' den := by
  have quotients : num / den ≤ num' / den := Nat.div_le_div_right h
  rcases Nat.lt_or_eq_of_le quotients with less | same
  · calc roundDiv num den ≤ num / den + 1 := roundDiv_le_succ num den
      _ ≤ num' / den := less
      _ ≤ roundDiv num' den := div_le_roundDiv num' den
  · have rests : num % den ≤ num' % den := by
      have split := Nat.div_add_mod num den
      have split' := Nat.div_add_mod num' den
      rw [same] at split
      omega
    unfold roundDiv
    dsimp only
    rw [same]
    split
    · split
      · exact Nat.le_refl _
      · split <;> omega
    · split
      · rw [if_neg (by omega), if_pos (by omega)]
      · rw [if_neg (by omega)]
        split <;> omega

theorem roundDivInt_mono {num num' : Int} (den : Nat) (h : num ≤ num') :
    roundDivInt num den ≤ roundDivInt num' den := by
  unfold roundDivInt
  split
  · split
    · exact Int.neg_le_neg (Int.ofNat_le.mpr (roundDiv_mono (by omega)))
    · exact (Int.neg_nonpos_of_nonneg (Int.natCast_nonneg _)).trans (Int.natCast_nonneg _)
  · rw [if_neg (by omega)]
    exact Int.ofNat_le.mpr (roundDiv_mono (by omega))

namespace Binary64

section Rounding

variable {num den units : Nat}

/-- The grid on which a quotient is rounded. -/
theorem roundUnits_eq (num den : Nat) : roundUnits num den =
    roundDiv num (den * 2 ^ ((num / den).log2 - 52)) * 2 ^ ((num / den).log2 - 52) := rfl

/-- Rounding does not pass a count of at most 53 significant bits. -/
theorem roundUnits_le (short : units % 2 ^ (units.log2 - 52) = 0) (pos : 0 < den)
    (h : num ≤ units * den) : roundUnits num den ≤ units := by
  have below : num / den ≤ units := Nat.div_le_of_le_mul (by rwa [Nat.mul_comm])
  have grid : 2 ^ ((num / den).log2 - 52) ∣ units := by
    refine Nat.dvd_trans (Nat.pow_dvd_pow 2 ?_) (Nat.dvd_of_mod_eq_zero short)
    rw [Nat.log2_eq_log_two, Nat.log2_eq_log_two]
    exact Nat.sub_le_sub_right (Nat.log_mono_right below) 52
  obtain ⟨n, split⟩ := grid
  have place : n * (den * 2 ^ ((num / den).log2 - 52)) = units * den := by
    conv_rhs => rw [split]
    ring
  have steps := roundDiv_le (Nat.mul_pos pos (Nat.two_pow_pos _)) (h.trans_eq place.symm)
  rw [roundUnits_eq]
  exact (Nat.mul_le_mul_right _ steps).trans_eq (by rw [Nat.mul_comm, ← split])

/-- A count of at most `2 ^ 53` steps of a power of two has at most 53 significant bits. -/
theorem steps_mod {n : Nat} (few : n ≤ 2 ^ 53) (s : Nat) :
    (n * 2 ^ s) % 2 ^ ((n * 2 ^ s).log2 - 52) = 0 := by
  apply Nat.mod_eq_zero_of_dvd
  rcases Nat.lt_or_eq_of_le few with less | rfl
  · refine Nat.dvd_trans (Nat.pow_dvd_pow 2 ?_) (Nat.dvd_mul_left (2 ^ s) n)
    have low : n * 2 ^ s < 2 ^ (53 + s) := by
      rw [Nat.pow_add]
      exact Nat.mul_lt_mul_of_pos_right less (Nat.two_pow_pos s)
    by_cases zero : n * 2 ^ s = 0
    · rw [zero]
      exact Nat.zero_le s
    · have bits := (Nat.log2_lt zero).mpr low
      omega
  · rw [← Nat.pow_add, Nat.log2_two_pow]
    exact Nat.pow_dvd_pow 2 (by omega)

/-- What rounding makes is a number, if it is below the limit. -/
theorem fits_roundUnits (pos : 0 < den) (h : roundUnits num den < unitLimit) :
    Fits (roundUnits num den) := by
  refine ⟨h, ?_⟩
  rw [roundUnits_eq, Nat.pow_eq]
  refine steps_mod (roundDiv_le (Nat.mul_pos pos (Nat.two_pow_pos _)) ?_) _
  have quotient : num / den < 2 ^ ((num / den).log2 + 1) := Nat.lt_log2_self
  have bits : 2 ^ ((num / den).log2 + 1) ≤ 2 ^ 53 * 2 ^ ((num / den).log2 - 52) := by
    rw [← Nat.pow_add]
    exact Nat.pow_le_pow_right (by decide) (by omega)
  have below := (Nat.div_lt_iff_lt_mul pos).mp (Nat.lt_of_lt_of_le quotient bits)
  rw [Nat.mul_comm den, ← Nat.mul_assoc]
  exact below.le

/-- A quotient with a number above it is rounded to a number that is not above either. -/
theorem round_eq_finite (fits : Fits units) (pos : 0 < den) (h : num ≤ units * den) (negative : Bool) :
    ∃ rounded fits', round negative num den = .finite negative rounded fits' ∧ rounded ≤ units := by
  have below := roundUnits_le fits.2 pos h
  have rounded := fits_roundUnits pos (below.trans_lt fits.1)
  exact ⟨_, rounded, dif_pos rounded, below⟩

/-- A quotient that is not below one unit is not rounded to zero. -/
theorem roundUnits_pos (pos : 0 < den) (h : den ≤ num) : 0 < roundUnits num den := by
  have quotient : num / den ≠ 0 := Nat.pos_iff_ne_zero.mp (Nat.div_pos h pos)
  have least : 2 ^ ((num / den).log2 - 52) ≤ num / den :=
    (Nat.pow_le_pow_right (by decide) (Nat.sub_le _ _)).trans (Nat.log2_self_le quotient)
  have steps : 0 < num / (den * 2 ^ ((num / den).log2 - 52)) := by
    rw [← Nat.div_div_eq_div_mul]
    exact Nat.div_pos least (Nat.two_pow_pos _)
  rw [roundUnits_eq]
  exact Nat.mul_pos (steps.trans_le (div_le_roundDiv _ _)) (Nat.two_pow_pos _)

end Rounding

/-! ## Whole numbers and decimals -/

theorem exists_unitsPerOne_eq : ∃ k, k = 1074 ∧ unitsPerOne = 2 ^ k := by
  unfold unitsPerOne
  generalize 1074 = k
  exact ⟨k, rfl, rfl⟩

theorem le_unitsPerOne {n : Nat} (small : n ≤ 2 ^ 53) : n ≤ unitsPerOne := by
  obtain ⟨k, place, units⟩ := exists_unitsPerOne_eq
  rw [units]
  exact small.trans (Nat.pow_le_pow_right Nat.two_pos (by omega))

/-- A whole number of at most 53 bits is a number. -/
theorem fits_whole {n : Nat} (small : n ≤ 2 ^ 53) : Fits (n * unitsPerOne) := by
  obtain ⟨k, place, units⟩ := exists_unitsPerOne_eq
  have bits : 2 ^ 53 * 2 ^ k < unitLimit := by
    have room : 53 + k < 2098 := by omega
    unfold unitLimit
    generalize 2098 = limit at room
    rw [← Nat.pow_add]
    exact Nat.pow_lt_pow_right (by decide) room
  rw [units]
  exact ⟨(Nat.mul_le_mul_right _ small).trans_lt bits, steps_mod small k⟩

/-- A number is rounded to itself. -/
theorem round_one {units : Nat} (fits : Fits units) (negative : Bool) :
    round negative units 1 = .finite negative units fits := by
  have same : roundUnits units 1 = units := by
    rcases Nat.eq_zero_or_pos units with rfl | pos
    · rfl
    · exact roundUnits_near fits pos Nat.one_pos (by omega) (by omega)
  unfold round
  simp only [same]
  exact dif_pos fits

theorem ofNat_eq_finite {n : Nat} (small : n ≤ 2 ^ 53) :
    (OfNat.ofNat n : Binary64) = .finite false (n * unitsPerOne) (fits_whole small) := by
  change ofInt n = _
  rw [ofInt, ofRatio, decide_eq_false (by omega), Int.natAbs_natCast]
  exact round_one (fits_whole small) false

theorem isFinite_ofNat {n : Nat} (small : n ≤ 2 ^ 53) : (OfNat.ofNat n : Binary64).isFinite = true := by
  rw [ofNat_eq_finite small]
  rfl

theorem zero_eq : (0 : Binary64) = .finite false 0 fits_zero := by
  refine (ofNat_eq_finite (Nat.zero_le _)).trans ?_
  simp only [Nat.zero_mul]

/-- A whole number with a number above it is a number. -/
theorem ofInt_eq_finite {n : Int} {units : Nat} (fits : Fits units)
    (below : n.natAbs * unitsPerOne ≤ units) :
    ∃ rounded fits', ofInt n = .finite (decide (n < 0)) rounded fits' := by
  obtain ⟨rounded, fits', made, -⟩ :=
    round_eq_finite fits Nat.one_pos (below.trans_eq (Nat.mul_one _).symm) (decide (n < 0))
  exact ⟨rounded, fits', made⟩

section Decimals

variable {count places : Nat}

/-- A decimal with places is a rounded quotient. -/
theorem ofDecimal_places (some_places : 0 < places) (negative : Bool) (count : Nat) :
    ofDecimal negative count (-places) = round negative (count * unitsPerOne) (10 ^ places) := by
  rw [ofDecimal, if_pos (by omega), Int.natAbs_neg, Int.natAbs_natCast]
  rfl

/-- A decimal that is at most one is a number that is at most one. -/
theorem ofDecimal_eq_finite (some_places : 0 < places) (negative : Bool) (h : count ≤ 10 ^ places) :
    ∃ units fits, ofDecimal negative count (-places) = .finite negative units fits ∧
      units ≤ unitsPerOne := by
  have one : Fits unitsPerOne := by simpa using fits_whole (n := 1) (by decide)
  have below : count * unitsPerOne ≤ unitsPerOne * 10 ^ places := by
    rw [Nat.mul_comm unitsPerOne]
    exact Nat.mul_le_mul_right _ h
  rw [ofDecimal_places some_places]
  exact round_eq_finite one (Nat.pow_pos (by decide)) below negative

theorem isFinite_ofDecimal (some_places : 0 < places) (negative : Bool) (h : count ≤ 10 ^ places) :
    (ofDecimal negative count (-places)).isFinite = true := by
  obtain ⟨units, fits, made, -⟩ := ofDecimal_eq_finite some_places negative h
  rw [made]
  rfl

end Decimals

/-! ## Order -/

theorem ne_nan_of_isFinite {x : Binary64} (h : x.isFinite = true) : x ≠ .nan := by
  rintro rfl
  cases h

theorem exists_of_isFinite {x : Binary64} (h : x.isFinite = true) :
    ∃ s units fits, x = .finite s units fits := by
  cases x with
  | finite s units fits => exact ⟨s, units, fits, rfl⟩
  | nan | infinite => cases h

theorem finite_le_iff {s t : Bool} {m n : Nat} {fits : Fits m} {fits' : Fits n} :
    Binary64.finite s m fits ≤ .finite t n fits' ↔ signedUnits s m ≤ signedUnits t n :=
  decide_eq_true_iff

theorem finite_lt_iff {s t : Bool} {m n : Nat} {fits : Fits m} {fits' : Fits n} :
    Binary64.finite s m fits < .finite t n fits' ↔ signedUnits s m < signedUnits t n :=
  decide_eq_true_iff

theorem le_self {x : Binary64} (finite : x.isFinite = true) : x ≤ x := by
  obtain ⟨s, units, fits, rfl⟩ := exists_of_isFinite finite
  exact finite_le_iff.mpr (Int.le_refl _)

theorem infinite_le_finite_iff {s t : Bool} {n : Nat} {fits : Fits n} :
    Binary64.infinite s ≤ .finite t n fits ↔ s = true := Iff.rfl

theorem lt_iff_not_le {a b : Binary64} (ha : a ≠ .nan) (hb : b ≠ .nan) : a < b ↔ ¬ b ≤ a := by
  change lt a b = true ↔ ¬ le b a = true
  cases a with
  | nan => exact absurd rfl ha
  | infinite s =>
      cases b with
      | nan => exact absurd rfl hb
      | infinite t => cases s <;> cases t <;> simp [lt, le]
      | finite t n fits => cases s <;> simp [lt, le]
  | finite s m fits =>
      cases b with
      | nan => exact absurd rfl hb
      | infinite t => cases t <;> simp [lt, le]
      | finite t n fits' => simp [lt, le]

theorem not_lt_iff_le {a b : Binary64} (ha : a ≠ .nan) (hb : b ≠ .nan) : ¬ a < b ↔ b ≤ a := by
  rw [lt_iff_not_le ha hb, not_not]

theorem not_le_of_lt {a b : Binary64} (h : a < b) : ¬ b ≤ a := by
  have number : a ≠ .nan ∧ b ≠ .nan := by
    constructor
    · rintro rfl
      cases h
    · rintro rfl
      cases a <;> cases h
  exact (lt_iff_not_le number.1 number.2).mp h

theorem zero_ne_nan : (0 : Binary64) ≠ .nan := by
  rw [zero_eq]
  simp

theorem zero_lt_iff {x : Binary64} (number : x ≠ .nan) : 0 < x ↔ ¬ x ≤ 0 :=
  lt_iff_not_le zero_ne_nan number

theorem ofNat_pos {n : Nat} (pos : 0 < n) (small : n ≤ 2 ^ 53) :
    (0 : Binary64) < OfNat.ofNat n := by
  have units : 0 < n * unitsPerOne := Nat.mul_pos pos unitsPerOne_pos
  rw [ofNat_eq_finite small, zero_eq, finite_lt_iff]
  simp only [signedUnits, Bool.false_eq_true, if_false]
  omega

/-! ## Differences, products and quotients -/

/-- Whether a rounded quotient is above zero is a matter of its sign, if it is at least one unit. -/
theorem round_le_zero_iff {num den : Nat} (pos : 0 < den) (h : den ≤ num) (negative : Bool) :
    round negative num den ≤ 0 ↔ negative = true := by
  have some_units := roundUnits_pos pos h
  rw [zero_eq]
  by_cases fits : Fits (roundUnits num den)
  · rw [round, dif_pos fits, finite_le_iff]
    generalize roundUnits num den = units at *
    cases negative
    · simp only [signedUnits, Bool.false_eq_true, if_false, iff_false]
      omega
    · simp only [signedUnits, Bool.false_eq_true, if_false, if_true, iff_true]
      omega
  · rw [round, dif_neg fits, infinite_le_finite_iff]

/-- A difference of numbers is that of their unit counts, rounded; none is a zero with a sign. -/
theorem finite_sub_finite (s t : Bool) {m n : Nat} (fits : Fits m) (fits' : Fits n) :
    Binary64.finite t n fits' - Binary64.finite s m fits =
      if signedUnits t n - signedUnits s m = 0 then .finite (t && !s) 0 fits_zero
      else round (decide (signedUnits t n - signedUnits s m < 0))
        (signedUnits t n - signedUnits s m).natAbs 1 := by
  have negated : signedUnits (!s) m = -signedUnits s m := by cases s <;> simp [signedUnits]
  rw [Int.sub_eq_add_neg, ← negated]
  rfl

/-- The difference of two numbers is rounded, but its sign is that of the exact difference. -/
theorem sub_le_zero_iff {a b : Binary64} (ha : a.isFinite = true) (hb : b.isFinite = true) :
    b - a ≤ 0 ↔ b ≤ a := by
  obtain ⟨s, m, fits, rfl⟩ := exists_of_isFinite ha
  obtain ⟨t, n, fits', rfl⟩ := exists_of_isFinite hb
  rw [finite_sub_finite, finite_le_iff]
  split
  · rename_i same
    rw [zero_eq, finite_le_iff]
    have zero (negative : Bool) : signedUnits negative 0 = 0 := by cases negative <;> rfl
    rw [zero, zero]
    omega
  · rename_i apart
    rw [round_le_zero_iff Nat.one_pos (by omega), decide_eq_true_iff]
    omega

theorem round_ne_nan (negative : Bool) (num den : Nat) : round negative num den ≠ .nan := by
  unfold round
  split <;> simp

theorem sub_ne_nan {a b : Binary64} (ha : a.isFinite = true) (hb : b.isFinite = true) :
    b - a ≠ .nan := by
  obtain ⟨s, m, fits, rfl⟩ := exists_of_isFinite ha
  obtain ⟨t, n, fits', rfl⟩ := exists_of_isFinite hb
  rw [finite_sub_finite]
  split
  · simp
  · exact round_ne_nan _ _ _

theorem finite_mul_finite (s t : Bool) {m n : Nat} (fits : Fits m) (fits' : Fits n) :
    Binary64.finite s m fits * .finite t n fits' = round (s != t) (m * n) unitsPerOne := by
  change mul (.finite s m fits) (.finite t n fits') = _
  rw [mul]

section Operands

variable {x y : Binary64}

/-- A sum is finite only if both terms are. -/
theorem isFinite_of_add (h : (x + y).isFinite = true) : x.isFinite = true ∧ y.isFinite = true := by
  change (add x y).isFinite = true at h
  cases x with
  | nan => cases h
  | infinite s =>
      cases y with
      | infinite t =>
          rw [add] at h
          split at h <;> cases h
      | nan | finite => cases h
  | finite s m fits =>
      cases y with
      | finite t n fits' => exact ⟨rfl, rfl⟩
      | nan | infinite => cases h

/-- A product is finite only if both factors are. -/
theorem isFinite_of_mul (h : (x * y).isFinite = true) : x.isFinite = true ∧ y.isFinite = true := by
  change (mul x y).isFinite = true at h
  cases x with
  | nan => cases h
  | infinite s =>
      cases y with
      | finite t n fits' =>
          rw [mul] at h
          split at h <;> cases h
      | nan | infinite => cases h
  | finite s m fits =>
      cases y with
      | finite t n fits' => exact ⟨rfl, rfl⟩
      | nan => cases h
      | infinite t =>
          rw [mul] at h
          split at h <;> cases h

/-- A quotient is finite only if the dividend is. -/
theorem isFinite_of_div (h : (x / y).isFinite = true) : x.isFinite = true := by
  change (div x y).isFinite = true at h
  cases x with
  | finite => rfl
  | nan => cases h
  | infinite s =>
      cases y with
      | nan | infinite | finite => cases h

end Operands

section Factors

variable {x : Binary64} {n : Nat}

theorem infinite_mul_ofNat (pos : 0 < n) (small : n ≤ 2 ^ 53) (s : Bool) :
    Binary64.infinite s * OfNat.ofNat n = .infinite s := by
  rw [ofNat_eq_finite small]
  change mul (.infinite s) (.finite false (n * unitsPerOne) _) = _
  rw [mul, if_neg (Nat.mul_pos pos unitsPerOne_pos).ne', Bool.bne_false]

/-- A product with a whole number other than zero is not undefined. -/
theorem mul_ofNat_ne_nan (pos : 0 < n) (small : n ≤ 2 ^ 53) (number : x ≠ .nan) :
    x * OfNat.ofNat n ≠ .nan := by
  cases x with
  | nan => exact absurd rfl number
  | infinite s =>
      rw [infinite_mul_ofNat pos small]
      simp
  | finite s m fits =>
      rw [ofNat_eq_finite small, finite_mul_finite]
      exact round_ne_nan _ _ _

theorem isFinite_of_mul_ofNat (pos : 0 < n) (small : n ≤ 2 ^ 53)
    (h : (x * OfNat.ofNat n).isFinite = true) : x.isFinite = true := by
  cases x with
  | nan => cases h
  | infinite s =>
      rw [infinite_mul_ofNat pos small] at h
      cases h
  | finite s m fits => rfl

/-- A number over a whole number other than zero is a number. -/
theorem isFinite_div_ofNat (pos : 0 < n) (small : n ≤ 2 ^ 53) (finite : x.isFinite = true) :
    (x / OfNat.ofNat n).isFinite = true := by
  obtain ⟨s, m, fits, rfl⟩ := exists_of_isFinite finite
  have large : unitsPerOne ≤ n * unitsPerOne := Nat.le_mul_of_pos_left _ pos
  have some_units : 0 < n * unitsPerOne := unitsPerOne_pos.trans_le large
  obtain ⟨units, fits', made, -⟩ :=
    round_eq_finite fits some_units (Nat.mul_le_mul_left m large) (s != false)
  have quotient : Binary64.finite s m fits / .finite false (n * unitsPerOne) (fits_whole small) =
      round (s != false) (m * unitsPerOne) (n * unitsPerOne) := by
    change div (.finite s m fits) (.finite false (n * unitsPerOne) _) = _
    rw [div, if_neg some_units.ne']
  rw [ofNat_eq_finite small, quotient, made]
  rfl

end Factors

/-! ## Whole parts -/

def IsInfinite (x : Binary64) : Prop := ∃ negative, x = .infinite negative

/-- A number has a whole part, an infinity has none. -/
theorem toWhole_cases {x : Binary64} (number : x ≠ .nan) (rounding : Int → Int) :
    x.IsInfinite ∧ toWhole rounding x = .error .ofInfinity ∨
      ¬ x.IsInfinite ∧ ∃ s m fits, x = .finite s m fits ∧
        toWhole rounding x = .ok (rounding (signedUnits s m)) := by
  cases x with
  | nan => exact absurd rfl number
  | infinite negative => exact .inl ⟨⟨negative, rfl⟩, rfl⟩
  | finite s m fits => exact .inr ⟨nofun, s, m, fits, rfl, rfl⟩

theorem isFinite_of_toWhole {rounding : Int → Int} {x : Binary64} {n : Int}
    (h : toWhole rounding x = .ok n) : x.isFinite = true := by
  cases x with
  | finite => rfl
  | nan | infinite => cases h

theorem exists_toWhole (rounding : Int → Int) {x : Binary64} (finite : x.isFinite = true) :
    ∃ n, toWhole rounding x = .ok n := by
  obtain ⟨s, m, fits, rfl⟩ := exists_of_isFinite finite
  exact ⟨_, rfl⟩

theorem nearest_mono {x y : Binary64} {m n : Int} (hx : x.nearest = .ok m) (hy : y.nearest = .ok n)
    (h : x ≤ y) : m ≤ n := by
  obtain ⟨s, a, fits, rfl⟩ := exists_of_isFinite (isFinite_of_toWhole hx)
  obtain ⟨t, b, fits', rfl⟩ := exists_of_isFinite (isFinite_of_toWhole hy)
  obtain rfl := Except.ok.inj hx
  obtain rfl := Except.ok.inj hy
  exact roundDivInt_mono unitsPerOne (finite_le_iff.mp h)

end Binary64
end Splice
