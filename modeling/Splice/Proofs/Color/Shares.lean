import Splice.Color.Basic
import Splice.Proofs.Binary64.Accuracy

/-! # Shares of colours

A hue with shares of saturation and lightness, or of value, from zero to one gives components of one byte:
their shares are from zero to one but for the errors of a few operations, and what is added for rounding
leaves more room than that on either side.
-/

namespace Splice.Color

open Binary64

/-- A component of a colour that is one byte. -/
def IsByte (n : Int) : Prop := 0 ≤ n ∧ n ≤ 255

/-- A share that is from zero to one, but for a small error. -/
def IsShare (x : Binary64) : Prop := Within (-(1 / 1024)) (1 + 1 / 1024) x

variable {x y low high hue l s v : Binary64}

theorem isShare_of_within (h : Within 0 1 x) : IsShare x :=
  ⟨h.finite, le_trans (by norm_num) h.least, le_trans h.most (by norm_num)⟩

/-! ## The numbers of the formulas -/

theorem one_spec : (1 : Binary64).isFinite = true ∧ (1 : Binary64).value = 1 :=
  ⟨isFinite_ofNat (by decide), (value_ofNat (by decide)).trans Nat.cast_one⟩

theorem two_spec : (2 : Binary64).isFinite = true ∧ (2 : Binary64).value = 2 :=
  ⟨isFinite_ofNat (by decide), value_ofNat (by decide)⟩

theorem six_spec : (6 : Binary64).isFinite = true ∧ (6 : Binary64).value = 6 :=
  ⟨isFinite_ofNat (by decide), value_ofNat (by decide)⟩

theorem hundred_spec : (100 : Binary64).isFinite = true ∧ (100 : Binary64).value = 100 :=
  ⟨isFinite_ofNat (by decide), value_ofNat (by decide)⟩

theorem half_spec : (0.5 : Binary64).isFinite = true ∧ (0.5 : Binary64).value = 1 / 2 := by decide +kernel

theorem sixth_spec : sixth.isFinite = true ∧ sixth.value ≤ 1 / 6 := by decide +kernel

theorem twoThirds_spec : twoThirds.isFinite = true ∧ twoThirds.value ≤ 2 / 3 := by decide +kernel

theorem isNumber_zero : IsNumber 0 := by exact_mod_cast isNumber_whole (k := 0) (by decide)

theorem isNumber_one : IsNumber 1 := by exact_mod_cast isNumber_whole (k := 1) (by decide)

/-! ## Whole parts -/

/-- The whole part of a number that is not negative. -/
theorem wholePart_spec (finite : x.isFinite = true) (positive : 0 ≤ x.value) :
    ∃ k : ℕ, wholePart x = k ∧ (k : ℚ) ≤ x.value ∧ x.value < k + 1 ∧ Fits (k * unitsPerOne) := by
  obtain ⟨negative, m, fits, rfl⟩ := exists_of_isFinite finite
  have units := unitsPerOne_cast_pos
  have size : signedUnits negative m = m := by
    rw [value_eq, le_div_iff₀ units, zero_mul, Int.cast_nonneg_iff] at positive
    cases negative with
    | false => rfl
    | true =>
        rw [signedUnits, if_pos rfl] at positive ⊢
        omega
  refine ⟨m / unitsPerOne, ?_, ?_, ?_, fits_wholePart fits⟩
  · show Int.tdiv (signedUnits negative m) unitsPerOne = _
    rw [size, Int.tdiv_eq_ediv_of_nonneg (Int.natCast_nonneg m), Int.natCast_ediv]
  · rw [value_eq, size, le_div_iff₀ units, Int.cast_natCast]
    exact_mod_cast Nat.div_mul_le_self m unitsPerOne
  · rw [value_eq, size, div_lt_iff₀ units, Int.cast_natCast]
    have rest := Nat.lt_div_mul_add unitsPerOne_pos (a := m)
    rw [add_mul, one_mul]
    exact_mod_cast rest

/-- A number near those up to 255 is rounded to one of them by adding a half. -/
theorem isByte_raised (finite : x.isFinite = true) (low : -(1 / 4) ≤ x.value) (high : x.value ≤ 255 + 1 / 4) :
    IsByte (wholePart (x + 0.5)) := by
  have raised := rounds_add finite half_spec.1
  rw [half_spec.2] at raised
  obtain ⟨finite, least, most⟩ := raised.near (by linarith) (by linarith)
  obtain ⟨k, whole, below, -, -⟩ := wholePart_spec finite (by linarith)
  have small : (k : ℚ) < 256 := by linarith
  have bound : k < 256 := by exact_mod_cast small
  rw [whole]
  exact ⟨Int.natCast_nonneg k, by omega⟩

theorem isByte_ofShare (h : IsShare x) : IsByte (ofShare x) := by
  have scale : (255 : Binary64).isFinite = true ∧ (255 : Binary64).value = 255 :=
    ⟨isFinite_ofNat (by decide), value_ofNat (by decide)⟩
  have scaled := rounds_mul h.finite scale.1
  rw [scale.2] at scaled
  have least := h.least
  have most := h.most
  obtain ⟨finite, low, high⟩ := scaled.near (by linarith) (by linarith)
  exact isByte_raised finite (by linarith) (by linarith)

/-- A whole number that fits is a number of its own value. -/
theorem ofInt_spec {k : ℕ} (fits : Fits (k * unitsPerOne)) :
    (ofInt k).isFinite = true ∧ (ofInt k).value = k := by
  have exact' := ofInt_eq_whole (n := k) (by rwa [Int.natAbs_natCast])
  refine ⟨by rw [exact']; rfl, ?_⟩
  rw [exact', value_eq, decide_eq_false (by omega), signedUnits, if_neg Bool.false_ne_true,
    Int.natAbs_natCast, Int.cast_natCast, Nat.cast_mul]
  exact mul_div_cancel_right₀ _ unitsPerOne_cast_pos.ne'

theorem isByte_ofPercent {n : Nat} (h : n ≤ 100) : IsByte (ofPercent n) := by
  have bytes : n * 255 ≤ 2 ^ 53 := by omega
  obtain ⟨finite, value⟩ := ofInt_spec (fits_whole bytes)
  have share := rounds_div finite hundred_spec.1 (by rw [hundred_spec.2]; norm_num)
  rw [value, hundred_spec.2, Nat.cast_mul] at share
  have least : (0 : ℚ) ≤ n := Nat.cast_nonneg n
  have most : (n : ℚ) ≤ 100 := by exact_mod_cast h
  have scale : ((255 : ℕ) : ℚ) = 255 := rfl
  rw [scale] at share
  obtain ⟨finite, low, high⟩ := share.near (by linarith) (by linarith)
  exact isByte_raised finite (by linarith) (by linarith)

/-! ## Hues -/

/-- What is left of a hue after its whole turns. -/
theorem turn_cases (hue : Binary64) : turn hue = .nan ∨ Within 0 1 (turn hue) := by
  cases hue with
  | nan => exact .inl rfl
  | infinite => exact .inl rfl
  | finite negative m fits =>
      right
      have rest : m % unitsPerOne < unitsPerOne := Nat.mod_lt m unitsPerOne_pos
      have share : ((m % unitsPerOne : ℕ) : ℚ) / unitsPerOne ≤ 1 := by
        rw [div_le_one unitsPerOne_cast_pos]
        exact Nat.cast_le.mpr rest.le
      have positive : 0 ≤ ((m % unitsPerOne : ℕ) : ℚ) / unitsPerOne :=
        div_nonneg (Nat.cast_nonneg _) (Nat.cast_nonneg _)
      have rounds := rounds_round (m % unitsPerOne) Nat.one_pos negative
      rw [Nat.cast_one, div_one] at rounds
      show Within 0 1 (if m % unitsPerOne = 0 then 0 else if negative then
        round negative (m % unitsPerOne) 1 + 1 else round negative (m % unitsPerOne) 1)
      split
      · exact ⟨zero_spec.1, zero_spec.2.ge, zero_spec.2.le.trans zero_le_one⟩
      · cases negative with
        | false =>
            rw [if_neg Bool.false_ne_true]
            rw [signedUnits, if_neg Bool.false_ne_true, Int.cast_natCast] at rounds
            exact rounds.within isNumber_zero isNumber_one positive share
        | true =>
            rw [if_pos rfl]
            rw [signedUnits, if_pos rfl, Int.cast_neg, Int.cast_natCast, neg_div] at rounds
            have below : IsNumber (-1) := by exact_mod_cast isNumber_whole (k := -1) (by decide)
            obtain ⟨finite, least, most⟩ := rounds.within below isNumber_zero (neg_le_neg share)
              (neg_nonpos.mpr positive)
            have sum := rounds_add finite one_spec.1
            rw [one_spec.2] at sum
            exact sum.within isNumber_zero isNumber_one (by linarith only [least]) (by linarith only [most])

/-- A place between two levels, or a little behind the second one. -/
theorem mix_bounds {a d low high t : ℚ} (hlow : -a ≤ low ∧ low ≤ 1 + a) (hhigh : -a ≤ high ∧ high ≤ 1 + a)
    (first : 0 ≤ t) (last : t ≤ 1 + d) (some_room : 0 ≤ d) (small : a ≤ 1 / 2) :
    -a - 2 * d ≤ low + t * (high - low) ∧ low + t * (high - low) ≤ 1 + a + 2 * d := by
  rcases le_total t 1 with within | behind
  · constructor
    · nlinarith [mul_nonneg first (sub_nonneg.mpr hhigh.1),
        mul_nonneg (sub_nonneg.mpr within) (sub_nonneg.mpr hlow.1)]
    · nlinarith [mul_nonneg first (sub_nonneg.mpr hhigh.2),
        mul_nonneg (sub_nonneg.mpr within) (sub_nonneg.mpr hlow.2)]
  · have beyond : 0 ≤ t - 1 := sub_nonneg.mpr behind
    have down : 0 ≤ (t - 1) * (2 + (high - low)) := mul_nonneg beyond (by linarith)
    have up : 0 ≤ (t - 1) * (2 - (high - low)) := mul_nonneg beyond (by linarith)
    constructor
    · linarith
    · linarith

/-- Levels between which the shares of a hue are. -/
def IsLevel (x : Binary64) : Prop := Within (-(5 / 1048576)) (1 + 5 / 1048576) x

theorem IsLevel.isShare (h : IsLevel x) : IsShare x :=
  ⟨h.finite, le_trans (by norm_num) h.least, le_trans h.most (by norm_num)⟩

/-- A share between two levels, at six times a sixth of a turn. -/
theorem isShare_between {g : Binary64} (hlow : IsLevel low) (hhigh : IsLevel high)
    (sixth : Within 0 (1 / 6 + 1 / 1048576) g) : IsShare (low + (high - low) * g * 6) := by
  obtain ⟨lowFinite, lowLeast, lowMost⟩ := hlow
  obtain ⟨highFinite, highLeast, highMost⟩ := hhigh
  obtain ⟨gFinite, gLeast, gMost⟩ := sixth
  have mixed := mix_bounds (t := 6 * g.value) (d := 6 / 1048576) ⟨lowLeast, lowMost⟩ ⟨highLeast, highMost⟩
    (by linarith) (by linarith) (by norm_num) (by norm_num)
  have gap := (rounds_sub highFinite lowFinite).near (by linarith) (by linarith)
  generalize high - low = gap at *
  obtain ⟨gapFinite, gapLeast, gapMost⟩ := gap
  have least := mul_le_mul_of_nonneg_right gapLeast gLeast
  have most := mul_le_mul_of_nonneg_right gapMost gLeast
  have part := (rounds_mul gapFinite gFinite).near (by linarith) (by linarith)
  generalize gap * g = part at *
  obtain ⟨partFinite, partLeast, partMost⟩ := part
  have way := rounds_mul partFinite six_spec.1
  rw [six_spec.2] at way
  have way := way.near (by linarith) (by linarith)
  generalize part * 6 = way at *
  obtain ⟨wayFinite, wayLeast, wayMost⟩ := way
  obtain ⟨finite, sumLeast, sumMost⟩ := (rounds_add lowFinite wayFinite).near (by linarith) (by linarith)
  exact ⟨finite, by linarith, by linarith⟩

theorem hueShare_isShare (hlow : IsLevel low) (hhigh : IsLevel high) : IsShare (hueShare low high hue) := by
  unfold hueShare
  dsimp only
  rcases turn_cases hue with none | ⟨finite, least, most⟩
  · rw [none]
    exact hlow.isShare
  · generalize turn hue = h at *
    split
    · rename_i early
      have early := (lt_iff_value_lt finite sixth_spec.1).mp early
      have bound := sixth_spec.2
      exact isShare_between hlow hhigh ⟨finite, least, by linarith⟩
    split
    · exact hhigh.isShare
    split
    · rename_i late before
      have late := (not_lt_iff_le (ne_nan_of_isFinite finite) (ne_nan_of_isFinite half_spec.1)).mp late
      have late := (le_iff_value_le half_spec.1 finite).mp late
      have before := (lt_iff_value_lt finite twoThirds_spec.1).mp before
      have bound := twoThirds_spec.2
      rw [half_spec.2] at late
      have rest := rounds_sub twoThirds_spec.1 finite
      obtain ⟨restFinite, -, restMost⟩ := rest.near (by linarith) (by linarith)
      obtain ⟨-, restLeast, -⟩ := rest.within isNumber_zero isNumber_one (by linarith) (by linarith)
      exact isShare_between hlow hhigh ⟨restFinite, restLeast, by linarith⟩
    · exact hlow.isShare

/-- A level near an exact one, and the level that is as far on the other side of a lightness. -/
theorem isLevel_mirrored {double : Binary64} {lightness : ℚ} (level : ℚ)
    (twice : Within (2 * lightness - 1 / 1048576) (2 * lightness + 1 / 1048576) double)
    (near : Within (level - 3 / 1048576) (level + 3 / 1048576) high)
    (first : 0 ≤ level ∧ level ≤ 1) (second : 0 ≤ 2 * lightness - level ∧ 2 * lightness - level ≤ 1) :
    IsLevel high ∧ IsLevel (double - high) := by
  obtain ⟨doubleFinite, doubleLeast, doubleMost⟩ := twice
  obtain ⟨highFinite, highLeast, highMost⟩ := near
  obtain ⟨lowFinite, lowLeast, lowMost⟩ :=
    (rounds_sub doubleFinite highFinite).near (by linarith) (by linarith)
  exact ⟨⟨highFinite, by linarith, by linarith⟩, ⟨lowFinite, by linarith, by linarith⟩⟩

/-- The upper level of a lightness and a saturation, and the lower one, which is as far below the lightness
as the upper one is above it. -/
theorem isLevel_levels (hl : Within 0 1 l) (hs : Within 0 1 s)
    (made : high = if l ≤ 0.5 then l * (1 + s) else l + s - l * s) : IsLevel high ∧ IsLevel (2 * l - high) := by
  obtain ⟨lFinite, lLeast, lMost⟩ := hl
  obtain ⟨sFinite, sLeast, sMost⟩ := hs
  have both := mul_nonneg lLeast sLeast
  have less := mul_nonneg lLeast (sub_nonneg.mpr sMost)
  have more := mul_nonneg sLeast (sub_nonneg.mpr lMost)
  have rest := mul_nonneg (sub_nonneg.mpr lMost) (sub_nonneg.mpr sMost)
  have double := rounds_mul two_spec.1 lFinite
  rw [two_spec.2] at double
  obtain ⟨doubleFinite, doubleLeast, doubleMost⟩ := double.near (by linarith) (by linarith)
  have twice : Within _ _ (2 * l) := ⟨doubleFinite, doubleLeast, doubleMost⟩
  split at made
  · rename_i dark
    have dark := (le_iff_value_le lFinite half_spec.1).mp dark
    rw [half_spec.2] at dark
    have factor := rounds_add one_spec.1 sFinite
    rw [one_spec.2] at factor
    have factor := factor.near (by linarith) (by linarith)
    generalize 1 + s = factor at *
    obtain ⟨factorFinite, factorLeast, factorMost⟩ := factor
    have least := mul_le_mul_of_nonneg_left factorLeast lLeast
    have most := mul_le_mul_of_nonneg_left factorMost lLeast
    obtain ⟨highFinite, highLeast, highMost⟩ :=
      (rounds_mul lFinite factorFinite).near (by linarith) (by linarith)
    rw [made]
    exact isLevel_mirrored (l.value * (1 + s.value)) twice
      ⟨highFinite, by linarith, by linarith⟩ ⟨by linarith, by linarith⟩ ⟨by linarith, by linarith⟩
  · rename_i light
    rw [le_iff_value_le lFinite half_spec.1, half_spec.2, not_le] at light
    have sum := (rounds_add lFinite sFinite).near (by linarith) (by linarith)
    have product := (rounds_mul lFinite sFinite).near (by linarith) (by linarith)
    generalize l + s = sum at *
    generalize l * s = product at *
    obtain ⟨sumFinite, sumLeast, sumMost⟩ := sum
    obtain ⟨productFinite, productLeast, productMost⟩ := product
    obtain ⟨highFinite, highLeast, highMost⟩ :=
      (rounds_sub sumFinite productFinite).near (by linarith) (by linarith)
    rw [made]
    exact isLevel_mirrored (l.value + s.value - l.value * s.value) twice
      ⟨highFinite, by linarith, by linarith⟩ ⟨by linarith, by linarith⟩ ⟨by linarith, by linarith⟩

/-- All three shares of a colour. -/
def AreShares (x : Binary64 × Binary64 × Binary64) : Prop := IsShare x.1 ∧ IsShare x.2.1 ∧ IsShare x.2.2

theorem areShares_ofHueLightness (hl : Within 0 1 l) (hs : Within 0 1 s) :
    AreShares (ofHueLightness hue l s) := by
  unfold ofHueLightness
  split
  · have share := isShare_of_within hl
    exact ⟨share, share, share⟩
  · dsimp only
    generalize made : (if l ≤ 0.5 then l * (1 + s) else l + s - l * s) = high
    obtain ⟨upper, lower⟩ := isLevel_levels hl hs made.symm
    exact ⟨hueShare_isShare lower upper, hueShare_isShare lower upper, hueShare_isShare lower upper⟩

/-! ## Products of shares -/

/-- A product of shares is a share, without any error. -/
theorem within_mul (hx : Within 0 1 x) (hy : Within 0 1 y) : Within 0 1 (x * y) :=
  (rounds_mul hx.finite hy.finite).within isNumber_zero isNumber_one (mul_nonneg hx.least hy.least)
    (mul_le_one₀ hx.most hy.least hy.most)

/-- So is what is left of one. -/
theorem within_rest (hx : Within 0 1 x) : Within 0 1 (1 - x) := by
  have rest := rounds_sub one_spec.1 hx.finite
  rw [one_spec.2] at rest
  exact rest.within isNumber_zero isNumber_one (sub_nonneg.mpr hx.most) (sub_le_self 1 hx.least)

/-- The part of a sector that a hue has gone through. -/
theorem within_sector (finite : x.isFinite = true) (positive : 0 ≤ x.value) :
    Within 0 1 (x - .ofInt (wholePart x)) := by
  obtain ⟨k, whole, below, above, fits⟩ := wholePart_spec finite positive
  obtain ⟨counted, value⟩ := ofInt_spec fits
  have rest := rounds_sub finite counted
  rw [value] at rest
  rw [whole]
  exact rest.within isNumber_zero isNumber_one (by linarith) (by linarith)

theorem areShares_ofHueValue (finite : (hue * 6).isFinite = true) (positive : 0 ≤ (hue * 6).value)
    (hs : Within 0 1 s) (hv : Within 0 1 v) : AreShares (ofHueValue hue s v) := by
  have whole := isShare_of_within hv
  unfold ofHueValue
  split
  · exact ⟨whole, whole, whole⟩
  · dsimp only
    have f := within_sector finite positive
    generalize hue * 6 - .ofInt (wholePart (hue * 6)) = f at *
    have p := isShare_of_within (within_mul hv (within_rest hs))
    have q := isShare_of_within (within_mul hv (within_rest (within_mul hs f)))
    have t := isShare_of_within (within_mul hv (within_rest (within_mul hs (within_rest f))))
    split
    · exact ⟨whole, t, p⟩
    · exact ⟨q, whole, p⟩
    · exact ⟨p, whole, t⟩
    · exact ⟨p, q, whole⟩
    · exact ⟨t, p, whole⟩
    · exact ⟨whole, p, q⟩

end Splice.Color
