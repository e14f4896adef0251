import Splice.Proofs.Binary64.Shortest
import Splice.Proofs.Text.Numeral

/-! # Numbers read back from their texts

The shortest text of a number, if it has a point, is read as the number. Without a point it has a single
digit and an exponent.
-/

namespace Splice.Binary64

/-- A numeral with a point: digits on either side of it, and maybe an exponent after them. -/
structure PointForm (cs whole fraction tail : List Char) (e : Int) : Prop where
  text : cs = whole ++ '.' :: (fraction ++ tail)
  filled : whole ≠ []
  left : ∀ c ∈ whole, c.isDigit = true
  right : ∀ c ∈ fraction, c.isDigit = true
  ending : tail = [] ∧ e = 0 ∨ tail = 'e' :: exponentText e

theorem isDigit_wholeDigits (n : Nat) : ∀ c ∈ wholeDigits n, c.isDigit = true :=
  fun _ mem => Nat.isDigit_of_mem_toDigits (by decide) (by decide) mem

theorem ofDigitChars_zeros (k : Nat) (ds : List Char) :
    Nat.ofDigitChars 10 (List.replicate k '0' ++ ds) 0 = Nat.ofDigitChars 10 ds 0 := by
  rw [Nat.ofDigitChars_append, Nat.ofDigitChars_replicate_zero, Nat.mul_zero]

theorem ofDigitChars_append_zeros (ds : List Char) (k : Nat) :
    Nat.ofDigitChars 10 (ds ++ List.replicate k '0') 0 = Nat.ofDigitChars 10 ds 0 * 10 ^ k := by
  rw [Nat.ofDigitChars_append, Nat.ofDigitChars_replicate_zero, Nat.mul_comm]

theorem isDigit_exponent (n : Nat) :
    ∀ c ∈ List.replicate (2 - (wholeDigits n).length) '0' ++ wholeDigits n, c.isDigit = true := by
  intro c mem
  cases List.mem_append.mp mem with
  | inl mem =>
      rw [List.eq_of_mem_replicate mem]
      rfl
  | inr mem => exact isDigit_wholeDigits n c mem

theorem isNumeral_exponentText (e : Int) : ∀ c ∈ exponentText e, isNumeral c = true := by
  intro c mem
  cases mem with
  | head => split <;> rfl
  | tail _ mem => exact isNumeral_of_isDigit (isDigit_exponent _ c mem)

theorem not_point_exponentText (e : Int) : '.' ∉ exponentText e := by
  intro mem
  unfold exponentText at mem
  rw [List.mem_cons] at mem
  cases mem with
  | inl same => split at same <;> cases same
  | inr mem => exact absurd (isDigit_exponent _ '.' mem) (by decide)

theorem exponent?_exponentText (e : Int) : Text.exponent? ('e' :: exponentText e) = some e := by
  have value : Nat.ofDigitChars 10 (List.replicate (2 - (wholeDigits e.natAbs).length) '0' ++
      wholeDigits e.natAbs) 0 = e.natAbs := by
    rw [ofDigitChars_zeros]
    exact Nat.ofDigitChars_ten_toDigits
  have split := Text.splitDigits_append (isDigit_exponent e.natAbs) Text.not_isDigit_head_nil
  rw [List.append_nil] at split
  have sign : Text.splitSign (exponentText e) =
    (decide (e < 0), List.replicate (2 - (wholeDigits e.natAbs).length) '0' ++
      wholeDigits e.natAbs) := by
    unfold exponentText
    by_cases negative : e < 0 <;> simp [negative, Text.splitSign]
  rw [Text.exponent?, if_pos (.inl rfl), sign]
  dsimp only
  rw [split]
  cases body : List.replicate (2 - (wholeDigits e.natAbs).length) '0' ++ wholeDigits e.natAbs with
  | nil => exact absurd (List.append_eq_nil_iff.mp body).2 Nat.toDigits_ne_nil
  | cons d ds =>
      rw [body, ← Text.digitsValue_digitValues] at value
      show some (if decide (e < 0) = true then -(Text.digitsValue (Text.digitValues (d :: ds)) : Int)
        else Text.digitsValue (Text.digitValues (d :: ds))) = some e
      rw [value]
      by_cases negative : e < 0
      · rw [if_pos (decide_eq_true negative)]
        congr 1
        omega
      · rw [if_neg (by simpa using negative)]
        congr 1
        omega

/-- The numeral is read, with its sign, as its digits over a power of ten. -/
theorem PointForm.number? {cs whole fraction tail : List Char} {e : Int}
    (h : PointForm cs whole fraction tail e)
    (negative : Bool) : Text.number? (String.ofList (signText negative ++ cs)) =
      some (ofDecimal negative (Nat.ofDigitChars 10 (whole ++ fraction) 0)
        (Text.boundExponent (whole ++ fraction).length e - fraction.length)) := by
  obtain ⟨text, filled, left, right, ending⟩ := h
  have numeral : ∀ c ∈ tail, isNumeral c = true := by
    intro c mem
    cases ending with
    | inl none =>
        rw [none.1] at mem
        cases mem
    | inr exponent =>
        subst exponent
        cases mem with
        | head => rfl
        | tail _ mem => exact isNumeral_exponentText e c mem
  have decimal :
    Text.decimal? negative cs = some (ofDecimal negative (Nat.ofDigitChars 10 (whole ++ fraction) 0)
      (Text.boundExponent (whole ++ fraction).length e - fraction.length)) := by
    rw [text]
    cases ending with
    | inl none =>
        obtain ⟨rfl, rfl⟩ := none
        exact Text.decimal?_point negative filled left right rfl Text.not_isDigit_head_nil
    | inr exponent =>
        subst exponent
        apply Text.decimal?_point negative filled left right (exponent?_exponentText e)
        intro c first
        cases first
        decide
  cases whole with
  | nil => exact absurd rfl filled
  | cons d whole =>
      rw [text, List.cons_append] at decimal ⊢
      apply Text.number?_decimal (left d List.mem_cons_self) _ decimal
      intro c mem
      rw [List.mem_append, List.mem_cons, List.mem_append] at mem
      obtain mem | rfl | mem | mem := mem
      · exact isNumeral_of_isDigit (left c (List.mem_cons_of_mem _ mem))
      · rfl
      · exact isNumeral_of_isDigit (right c mem)
      · exact numeral c mem

/-! ## How digits are laid out -/

/-- A numeral with a point that has the value of digits of which the first has a power of ten. -/
def Writes (cs ds : List Char) (e : Int) : Prop :=
  ∃ whole fraction tail e', PointForm cs whole fraction tail e' ∧ (e' = 0 ∨ e' = e) ∧
    (Nat.ofDigitChars 10 (whole ++ fraction) 0 : ℚ) * 10 ^ (e' - fraction.length) =
      Nat.ofDigitChars 10 ds 0 * 10 ^ (e - ds.length + 1)

section

variable {ds : List Char} {e : Int}

/-- Below one the digits stand after the point and some zeros. -/
theorem writes_below (digits : ∀ c ∈ ds, c.isDigit = true) (least : -4 ≤ e) (negative : e < 0) :
    Writes (layout shortestStyle ds e) ds e := by
  have text : layout shortestStyle ds e =
    ['0'] ++ '.' :: (List.replicate (e.natAbs - 1) '0' ++ ds ++ []) := by
    have positional : -4 ≤ e ∧ e < 16 := ⟨least, by omega⟩
    simp [layout, shortestStyle, positional, negative]
  refine ⟨_, _, _, 0, ⟨text, by simp, by simp, ?_, .inl ⟨rfl, rfl⟩⟩, .inl rfl, ?_⟩
  · intro c mem
    cases List.mem_append.mp mem with
    | inl mem =>
        rw [List.eq_of_mem_replicate mem]
        rfl
    | inr mem => exact digits c mem
  · have value : Nat.ofDigitChars 10 (['0'] ++ (List.replicate (e.natAbs - 1) '0' ++ ds)) 0 =
        Nat.ofDigitChars 10 ds 0 := by
      rw [← ofDigitChars_zeros (e.natAbs - 1) ds]
      rfl
    rw [value, List.length_append, List.length_replicate]
    congr 2
    omega

/-- A whole number has a zero after the point. -/
theorem writes_whole (filled : ds ≠ []) (digits : ∀ c ∈ ds, c.isDigit = true) (least : 0 ≤ e)
    (most : e < 16)
    (short : ds.length ≤ e.toNat + 1) : Writes (layout shortestStyle ds e) ds e := by
  have text : layout shortestStyle ds e =
      (ds ++ List.replicate (e.toNat + 1 - ds.length) '0') ++ '.' :: (['0'] ++ []) := by
    have positional : -4 ≤ e ∧ e < 16 := ⟨by omega, most⟩
    have negative : ¬ e < 0 := Int.not_lt.mpr least
    simp [layout, shortestStyle, positional, negative, short]
  refine ⟨_, _, _, 0, ⟨text, by simp [filled], ?_, by simp, .inl ⟨rfl, rfl⟩⟩, .inl rfl, ?_⟩
  · intro c mem
    cases List.mem_append.mp mem with
    | inl mem => exact digits c mem
    | inr mem =>
        rw [List.eq_of_mem_replicate mem]
        rfl
  · have value : Nat.ofDigitChars 10 (ds ++ List.replicate (e.toNat + 1 - ds.length) '0' ++ ['0']) 0 =
        Nat.ofDigitChars 10 ds 0 * 10 ^ (e.toNat + 1 - ds.length + 1) := by
      rw [← ofDigitChars_append_zeros, List.append_assoc, ← List.replicate_succ']
    rw [value]
    push_cast
    rw [mul_assoc, ← zpow_natCast, ← zpow_add₀ (by norm_num)]
    congr 2
    simp
    omega

/-- Digits that are more than the whole part has go on after the point. -/
theorem writes_between (digits : ∀ c ∈ ds, c.isDigit = true) (least : 0 ≤ e) (most : e < 16)
    (long : e.toNat + 1 < ds.length) : Writes (layout shortestStyle ds e) ds e := by
  have text : layout shortestStyle ds e =
    ds.take (e.toNat + 1) ++ '.' :: (ds.drop (e.toNat + 1) ++ []) := by
    have positional : -4 ≤ e ∧ e < 16 := ⟨by omega, most⟩
    have negative : ¬ e < 0 := Int.not_lt.mpr least
    simp [layout, shortestStyle, positional, negative, Nat.not_le.mpr long]
  refine ⟨_, _, _, 0, ⟨text, ?_, ?_, ?_, .inl ⟨rfl, rfl⟩⟩, .inl rfl, ?_⟩
  · intro none
    have length := congrArg List.length none
    rw [List.length_take, List.length_nil] at length
    omega
  · exact fun c mem => digits c (List.mem_of_mem_take mem)
  · exact fun c mem => digits c (List.mem_of_mem_drop mem)
  · rw [List.take_append_drop, List.length_drop]
    congr 2
    omega

/-- With an exponent the point stands after the first digit. -/
theorem writes_exponent (digits : ∀ c ∈ ds, c.isDigit = true) (far : ¬ (-4 ≤ e ∧ e < 16))
    (long : 2 ≤ ds.length) :
    Writes (layout shortestStyle ds e) ds e := by
  cases ds with
  | nil => cases long
  | cons d ds =>
      cases ds with
      | nil => exact absurd long (Nat.not_succ_le_self 1)
      | cons d' ds =>
          have text : layout shortestStyle (d :: d' :: ds) e =
              [d] ++ '.' :: (d' :: ds ++ 'e' :: exponentText e) := by
            simp [layout, shortestStyle, far]
          refine ⟨_, _, _, e, ⟨text, by simp, ?_, ?_, .inr rfl⟩, .inr rfl, ?_⟩
          · intro c mem
            exact digits c (List.mem_singleton.mp mem ▸ List.mem_cons_self)
          · exact fun c mem => digits c (List.mem_cons_of_mem _ mem)
          · rw [List.singleton_append]
            congr 2
            simp
            omega

/-- Digits in the shortest style are a numeral of their value with a point, or a single digit with an
exponent. -/
theorem layout_cases (filled : ds ≠ []) (digits : ∀ c ∈ ds, c.isDigit = true) :
    Writes (layout shortestStyle ds e) ds e ∨
      ∃ d, ds = [d] ∧ layout shortestStyle ds e = d :: 'e' :: exponentText e := by
  by_cases positional : -4 ≤ e ∧ e < 16
  · left
    by_cases negative : e < 0
    · exact writes_below digits positional.1 negative
    · by_cases short : ds.length ≤ e.toNat + 1
      · exact writes_whole filled digits (Int.not_lt.mp negative) positional.2 short
      · exact writes_between digits (Int.not_lt.mp negative) positional.2 (Nat.lt_of_not_le short)
  · cases ds with
    | nil => exact absurd rfl filled
    | cons d ds =>
        cases ds with
        | nil => exact .inr ⟨d, rfl, by simp [layout, shortestStyle, positional]⟩
        | cons d' ds => exact .inl (writes_exponent digits positional (Nat.le_add_left 2 ds.length))

end

/-! ## Reading the shortest text -/

/-- Digits are those that stay and some zeros. -/
theorem exists_zeros (n : Nat) :
    ∃ k, wholeDigits n = dropTrailingZeros (wholeDigits n) ++ List.replicate k '0' := by
  have split : ∃ k, wholeDigits n =
      ((wholeDigits n).reverse.dropWhile (· == '0')).reverse ++ List.replicate k '0' := by
    refine ⟨((wholeDigits n).reverse.takeWhile (· == '0')).length, ?_⟩
    have zeros : (wholeDigits n).reverse.takeWhile (· == '0') =
        List.replicate ((wholeDigits n).reverse.takeWhile (· == '0')).length '0' :=
      List.eq_replicate_of_mem fun c mem => by
        have same := List.mem_takeWhile_imp mem
        exact beq_iff_eq.mp same
    have whole := congrArg List.reverse
      (List.takeWhile_append_dropWhile (p := (· == '0')) (l := (wholeDigits n).reverse))
    rw [List.reverse_append, List.reverse_reverse, zeros, List.reverse_replicate] at whole
    exact whole.symm
  obtain ⟨k, split⟩ := split
  unfold dropTrailingZeros
  cases kept : ((wholeDigits n).reverse.dropWhile (· == '0')).reverse with
  | cons c cs =>
      rw [kept] at split
      exact ⟨k, split⟩
  | nil =>
      -- Only zero has no digit that stays.
      rw [kept, List.nil_append] at split
      have value : Nat.ofDigitChars 10 (wholeDigits n) 0 = n := Nat.ofDigitChars_ten_toDigits
      rw [split, Nat.ofDigitChars_replicate_zero, Nat.mul_zero] at value
      subst value
      exact ⟨0, rfl⟩

theorem dropTrailingZeros_ne_nil (cs : List Char) : dropTrailingZeros cs ≠ [] := by
  unfold dropTrailingZeros
  split
  · exact List.cons_ne_nil _ _
  · assumption

/-- The digits that stay have the value of all, from the power of ten of the first one. -/
theorem dropTrailingZeros_value (d : Scientific) :
    (Nat.ofDigitChars 10 (dropTrailingZeros (wholeDigits d.digits)) 0 : ℚ) *
      10 ^ (d.exponent - (dropTrailingZeros (wholeDigits d.digits)).length + 1) =
      d.digits * 10 ^ d.step := by
  obtain ⟨k, split⟩ := exists_zeros d.digits
  have value : Nat.ofDigitChars 10 (wholeDigits d.digits) 0 = d.digits := Nat.ofDigitChars_ten_toDigits
  have length := congrArg List.length split
  rw [split, ofDigitChars_append_zeros] at value
  rw [List.length_append, List.length_replicate] at length
  rw [Scientific.step, length]
  generalize dropTrailingZeros (wholeDigits d.digits) = ds at *
  conv_rhs => rw [← value]
  push_cast
  rw [mul_assoc, ← zpow_natCast, ← zpow_add₀ (by norm_num)]
  congr 2
  omega

theorem ofDecimal_zero (fits : Fits 0) (exponent : Int) :
    ofDecimal false 0 exponent = .finite false 0 fits := by
  obtain ⟨num, den, pos, rounds, value⟩ := ofDecimal_eq_round false 0 exponent
  have den0 : (den : ℚ) ≠ 0 := Nat.cast_ne_zero.mpr pos.ne'
  have zero : num = 0 := by
    rw [Nat.cast_zero, zero_mul, zero_mul, div_eq_zero_iff, or_iff_left den0] at value
    exact_mod_cast value
  have units : roundUnits 0 den = 0 := by
    simp [roundUnits, roundDiv]
  rw [rounds, zero, round]
  simp only [units, fits, dite_true]

/-- The decimal that a number of units is written with. -/
def written (units : Nat) : Scientific := if units = 0 then ⟨0, 0⟩ else shortest units

theorem written_denotes {units : Nat} (fits : Fits units) :
    ofDecimal false (written units).digits (written units).step = .finite false units fits ∧
      -400 ≤ (written units).exponent ∧ (written units).exponent ≤ 400 := by
  unfold written
  split
  · rename_i zero
    subst zero
    exact ⟨ofDecimal_zero fits _, by decide, by decide⟩
  · rename_i some'
    obtain ⟨⟨-, fits', denotes⟩, bounds⟩ := shortest_denotes fits (Nat.pos_of_ne_zero some')
    exact ⟨denotes, bounds⟩

/-- The text of a number without its sign. -/
def unsignedChars (units : Nat) : List Char :=
  layout shortestStyle (dropTrailingZeros (wholeDigits (written units).digits)) (written units).exponent

theorem toList_text (negative : Bool) {units : Nat} (fits : Fits units) :
    (text (.finite negative units fits)).toList = signText negative ++ unsignedChars units := by
  rw [text, String.toList_ofList]
  rfl

theorem boundExponent_eq {n : Nat} {e : Int} (least : -400 ≤ e) (most : e ≤ 400) :
    Text.boundExponent n e = e := by
  unfold Text.boundExponent
  dsimp only
  rw [if_neg (by omega), if_neg (by omega)]

theorem isDigit_dropTrailingZeros (n : Nat) :
    ∀ c ∈ dropTrailingZeros (wholeDigits n), c.isDigit = true := by
  intro c mem
  obtain ⟨k, split⟩ := exists_zeros n
  apply isDigit_wholeDigits n
  rw [split]
  exact List.mem_append_left _ mem

/-- A sign does not matter to how a decimal is rounded. -/
theorem ofDecimal_signed {digits units : Nat} {exponent : Int} {fits : Fits units}
    (h : ofDecimal false digits exponent = .finite false units fits) (negative : Bool) :
    ofDecimal negative digits exponent = .finite negative units fits := by
  have signed {num den : Nat} (h : round false num den = .finite false units fits) :
      round negative num den = .finite negative units fits := by
    unfold round at h ⊢
    split at h
    · rename_i fits'
      cases h
      exact dif_pos fits'
    · cases h
  unfold ofDecimal ofRatio at h ⊢
  split at h
  · rename_i below
    rw [if_pos below]
    exact signed h
  · rename_i above
    rw [if_neg above]
    exact signed h

/-- How the digits of a number are written: with a point, or as a single digit with an exponent. -/
theorem unsignedChars_cases (units : Nat) :
    (∃ whole fraction tail e, PointForm (unsignedChars units) whole fraction tail e) ∨
      ∃ d e, d.isDigit = true ∧ unsignedChars units = d :: 'e' :: exponentText e := by
  have digits := isDigit_dropTrailingZeros (written units).digits
  cases layout_cases (e := (written units).exponent) (dropTrailingZeros_ne_nil _) digits with
  | inl writes =>
      obtain ⟨whole, fraction, tail, e, form, -⟩ := writes
      exact .inl ⟨whole, fraction, tail, e, form⟩
  | inr single =>
      obtain ⟨d, only, text⟩ := single
      exact .inr ⟨d, _, digits d (only ▸ List.mem_singleton_self d), text⟩

/-- A number is read back from its text. -/
theorem number?_text {x : Binary64} (finite : x.isFinite = true) : Text.number? x.text = some x := by
  cases x with
  | nan => cases finite
  | infinite => cases finite
  | finite negative units fits =>
      obtain ⟨denotes, least, most⟩ := written_denotes fits
      have signed := ofDecimal_signed denotes negative
      have value := dropTrailingZeros_value (written units)
      have text : (Binary64.finite negative units fits).text =
        String.ofList (signText negative ++ unsignedChars units) := by
        rw [← toList_text negative fits, String.ofList_toList]
      have digits := isDigit_dropTrailingZeros (written units).digits
      rw [text, ← signed]
      cases layout_cases (e := (written units).exponent) (dropTrailingZeros_ne_nil _) digits with
      | inl writes =>
          obtain ⟨whole, fraction, tail, e, form, exponent, same⟩ := writes
          rw [unsignedChars, form.number?, boundExponent_eq (by omega) (by omega)]
          congr 1
          apply ofDecimal_congr
          rw [same, value]
      | inr single =>
          obtain ⟨d, only, layout⟩ := single
          rw [only] at digits value
          have digit := digits d (List.mem_singleton_self d)
          have decimal :=
            Text.decimal?_exponent negative digit (exponent?_exponentText (written units).exponent)
          rw [boundExponent_eq (by omega) (by omega)] at decimal
          have numeral : ∀ c ∈ 'e' :: exponentText (written units).exponent, isNumeral c = true := by
            intro c mem
            cases mem with
            | head => rfl
            | tail _ mem => exact isNumeral_exponentText _ c mem
          rw [unsignedChars, layout, Text.number?_decimal digit numeral decimal]
          congr 1
          apply ofDecimal_congr
          rw [← value, List.length_singleton]
          congr 2
          omega

end Splice.Binary64
