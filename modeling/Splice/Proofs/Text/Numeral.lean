import Mathlib.Data.List.TakeWhile
import Splice.Binary64.Printer
import Splice.Proofs.Marks
import Splice.Proofs.Text.Trimming
import Splice.Proofs.Yaml.Items
import Splice.Text.Numeral

/-! # Numerals read back

The digits of a number are read as the number, and a decimal with a point as its digits over a power of
ten.
-/

namespace Splice.Text

section

variable {c : Char} {cs ds rest : List Char}

/-- The values of digits. -/
def digitValues (ds : List Char) : List Nat := ds.map fun c => c.toNat - '0'.toNat

theorem digitValue?_isDigit (h : c.isDigit = true) : digitValue? c = some (c.toNat - '0'.toNat) := by
  have bounds : 48 ≤ c.toNat ∧ c.toNat ≤ 57 := by
    simp only [Char.isDigit, Bool.and_eq_true, decide_eq_true_eq, ge_iff_le, UInt32.le_iff_toNat_le] at h
    exact h
  have first : (decide (0x30 ≤ c.toNat) && decide (c.toNat < 0x30 + 10)) = true := by
    simp only [Bool.and_eq_true, decide_eq_true_eq]
    omega
  have table : digitZeros = 0x30 :: digitZeros.tail := rfl
  rw [digitValue?, table, List.find?_cons, first]
  rfl

theorem isDigit_of_isDigit (h : c.isDigit = true) : isDigit c = true := by
  rw [isDigit, digitValue?_isDigit h]
  rfl

/-- Digits are split off up to a character that is none. -/
theorem splitDigits_append (h : ∀ c ∈ ds, c.isDigit = true)
    (stop : ∀ c, rest.head? = some c → isDigit c = false) :
    splitDigits (ds ++ rest) = (digitValues ds, rest) := by
  have none : rest.takeWhile isDigit = [] ∧ rest.dropWhile isDigit = rest := by
    cases rest with
    | nil => exact ⟨rfl, rfl⟩
    | cons c rest =>
        have plain := stop c rfl
        exact ⟨List.takeWhile_cons_of_neg (by simp [plain]),
          List.dropWhile_cons_of_neg (by simp [plain])⟩
  have all : ∀ c ∈ ds, isDigit c = true := fun c mem => isDigit_of_isDigit (h c mem)
  have values : ds.filterMap digitValue? = digitValues ds := by
    rw [digitValues, ← List.filterMap_eq_map]
    exact List.filterMap_congr fun c mem => digitValue?_isDigit (h c mem)
  rw [splitDigits, List.takeWhile_append_of_pos all, List.dropWhile_append_of_pos all, none.1, none.2,
    List.append_nil, values]

theorem digitsValue_digitValues (ds : List Char) :
    digitsValue (digitValues ds) = Nat.ofDigitChars 10 ds 0 := by
  rw [digitsValue, digitsValueFrom, digitValues, List.foldl_map]
  rfl

theorem isBlank_of_isNumeral (h : isNumeral c = true) : isBlank c = false := by
  have ascii := Yaml.isAscii_of_isNumeral h
  have space : c ≠ ' ' := Yaml.ne_of_isNumeral h (by decide)
  have number : c.toNat ≠ 32 := fun same => space (Char.toNat_inj.mp same)
  unfold Yaml.IsAscii at ascii
  simp only [isBlank, Bool.or_eq_false_iff, Bool.and_eq_false_iff, decide_eq_false_iff_not,
    beq_eq_false_iff_ne]
  omega

theorem joinDigits?_plain (h : '_' ∉ cs) (afterDigit : Bool) : joinDigits? afterDigit cs = some cs := by
  induction cs generalizing afterDigit with
  | nil => rfl
  | cons c cs ih =>
      rw [List.mem_cons, not_or] at h
      rw [joinDigits?, if_neg (Ne.symm h.1), ih h.2]
      rfl

/-- A text of the characters of numbers is read as it stands. -/
theorem joined_numeral (h : ∀ c ∈ cs, isNumeral c = true) :
    joinDigits? false (trimList isNumeralBlank cs) = some cs := by
  have plain : ∀ c ∈ cs, isNumeralBlank c = false := by
    intro c mem
    rw [isNumeralBlank, isBlank_of_isNumeral (h c mem)]
    rfl
  rw [trimList_plain plain]
  apply joinDigits?_plain
  intro mem
  have := h _ mem
  revert this
  decide

theorem splitSign_isDigit (h : c.isDigit = true) (cs : List Char) :
    splitSign (c :: cs) = (false, c :: cs) := by
  unfold splitSign
  split
  · rename_i found
    cases found
    exact absurd h (by decide)
  · rename_i found
    cases found
    exact absurd h (by decide)
  · rfl

theorem not_isDigit_head_nil : ∀ c, ([] : List Char).head? = some c → isDigit c = false := nofun

/-- Digits are read as the whole number that they write. -/
theorem whole?_digits (filled : ds ≠ []) (h : ∀ c ∈ ds, c.isDigit = true)
    (short : ds.length ≤ wholeDigitLimit) :
    whole? (String.ofList ds) = some (Nat.ofDigitChars 10 ds 0 : Int) := by
  have joined := joined_numeral fun c mem => isNumeral_of_isDigit (h c mem)
  have digits := splitDigits_append h not_isDigit_head_nil
  rw [List.append_nil] at digits
  rw [whole?, String.toList_ofList, joined, ← digitsValue_digitValues]
  cases ds with
  | nil => exact absurd rfl filled
  | cons d ds =>
      have length : (digitValues (d :: ds)).length ≤ wholeDigitLimit := by
        rwa [digitValues, List.length_map]
      simp only [Option.bind_eq_bind, Option.bind_some, splitSign_isDigit (h d List.mem_cons_self),
        digits]
      exact if_pos length

theorem wholeDigitCount_digits (filled : ds ≠ []) (h : ∀ c ∈ ds, c.isDigit = true) :
    wholeDigitCount (String.ofList ds) = ds.length := by
  have plain : ∀ c ∈ ds, isNumeralBlank c = false := by
    intro c mem
    rw [isNumeralBlank, isBlank_of_isNumeral (isNumeral_of_isDigit (h c mem))]
    rfl
  rw [wholeDigitCount, String.toList_ofList, trimList_plain plain]
  cases ds with
  | nil => exact absurd rfl filled
  | cons d ds =>
      rw [splitSign_isDigit (h d List.mem_cons_self),
        List.takeWhile_eq_self_iff.mpr fun c mem => isDigit_of_isDigit (h c mem)]

/-- A decimal with a point and maybe an exponent is its digits over a power of ten. -/
theorem decimal?_point (negative : Bool) {whole fraction tail : List Char} {e : Int}
    (filled : whole ≠ [])
    (left : ∀ c ∈ whole, c.isDigit = true) (right : ∀ c ∈ fraction, c.isDigit = true)
    (exponent : exponent? tail = some e) (stop : ∀ c, tail.head? = some c → isDigit c = false) :
    decimal? negative (whole ++ '.' :: (fraction ++ tail)) =
      some (.ofDecimal negative (Nat.ofDigitChars 10 (whole ++ fraction) 0)
        (boundExponent (whole ++ fraction).length e - fraction.length)) := by
  have first : splitDigits (whole ++ '.' :: (fraction ++ tail)) =
    (digitValues whole, '.' :: (fraction ++ tail)) :=
    splitDigits_append left (by intro c same; cases same; decide)
  have second : splitDigits (fraction ++ tail) = (digitValues fraction, tail) :=
    splitDigits_append right stop
  have values : digitValues whole ++ digitValues fraction = digitValues (whole ++ fraction) :=
    List.map_append.symm
  have some' : (digitValues whole).isEmpty = false := by
    rw [digitValues, List.isEmpty_map]
    exact List.isEmpty_eq_false_iff.mpr filled
  rw [decimal?, first]
  simp only [second, some', Bool.false_and, Bool.false_eq_true, if_false, exponent,
    Option.map_some, values,
    digitsValue_digitValues]
  simp only [digitValues, List.length_map]

/-- A digit with an exponent. -/
theorem decimal?_exponent (negative : Bool) {d : Char} {rest : List Char} {e : Int}
    (digit : d.isDigit = true)
    (exponent : exponent? ('e' :: rest) = some e) : decimal? negative (d :: 'e' :: rest) =
      some (.ofDecimal negative (Nat.ofDigitChars 10 [d] 0) (boundExponent 1 e)) := by
  have alone : ∀ c ∈ [d], c.isDigit = true := by simpa using digit
  have stop : ∀ c, ('e' :: rest).head? = some c → isDigit c = false := by
    intro c same
    cases same
    decide
  have first := splitDigits_append alone stop
  rw [List.singleton_append] at first
  have value := digitsValue_digitValues [d]
  rw [decimal?, first]
  show (exponent? ('e' :: rest)).map (fun e => Binary64.ofDecimal negative (digitsValue (digitValues [d]))
    (boundExponent 1 e - (0 : Nat))) = _
  rw [exponent, value, Option.map_some, Int.natCast_zero, Int.sub_zero]

theorem splitSign_signText (negative : Bool) (h : c.isDigit = true) (cs : List Char) :
    splitSign (Binary64.signText negative ++ c :: cs) = (negative, c :: cs) := by
  cases negative with
  | true => rfl
  | false => exact splitSign_isDigit h cs

/-- A decimal that starts with a digit is read with its sign. -/
theorem number?_decimal {negative : Bool} {x : Binary64} (digit : c.isDigit = true)
    (numeral : ∀ d ∈ cs, isNumeral d = true) (decimal : decimal? negative (c :: cs) = some x) :
    number? (String.ofList (Binary64.signText negative ++ c :: cs)) = some x := by
  have numerals : ∀ d ∈ Binary64.signText negative ++ c :: cs, isNumeral d = true := by
    intro d mem
    rw [List.mem_append, List.mem_cons] at mem
    obtain mem | rfl | mem := mem
    · exact Binary64.isNumeral_signText mem
    · exact isNumeral_of_isDigit digit
    · exact numeral d mem
  have small : c.toLower = c := by
    apply dif_neg
    simp only [Char.isDigit, Bool.and_eq_true, decide_eq_true_eq, ge_iff_le,
      UInt32.le_iff_toNat_le] at digit ⊢
    have bound : c.val.toNat ≤ 57 := digit.2
    intro capital
    have least : 65 ≤ c.val.toNat := capital.1
    omega
  have other {d : Char} {word : List Char} (plain : d.isDigit = false) :
    (c :: cs).map Char.toLower ≠ d :: word := by
    intro same
    rw [List.map_cons, small] at same
    cases same
    rw [digit] at plain
    cases plain
  rw [number?, String.toList_ofList, joined_numeral numerals]
  simp only [Option.bind_eq_bind, Option.bind_some, splitSign_signText negative digit]
  rw [if_neg (not_or.mpr ⟨other (by decide), other (by decide)⟩), if_neg (other (by decide)), decimal]

end

end Splice.Text
