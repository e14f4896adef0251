import Mathlib.Data.List.Basic
import Splice.Proofs.Color.Forms

/-! # Colours as the engine reads them

A colour is written as a mark with two hexadecimal digits for each component, and with its opacity unless
that is full. The writer pads a component but does not clamp it, so it keeps to this form just for colours in
range: a component past a byte has a third digit, a negative one has a sign, and an opacity past 256 is
written as more than one.
-/

namespace Splice

namespace Color

/-! ## Hexadecimal digits -/

/-- The digits of a component. -/
def upperDigits : List Char := "0123456789ABCDEF".toList

theorem upperDigits_toDigits (n : Nat) : ∀ d ∈ (Nat.toDigits 16 n).map Char.toUpper, d ∈ upperDigits := by
  have each : ∀ d < 16, (Nat.digitChar d).toUpper ∈ upperDigits := by decide
  induction n using Nat.strongRecOn with
  | ind n ih =>
      rw [Nat.toDigits_eq_if (by decide)]
      split
      · exact List.forall_mem_singleton.mpr (each n ‹n < 16›)
      · rw [List.map_append, List.forall_mem_append]
        exact ⟨ih (n / 16) (by omega), List.forall_mem_singleton.mpr (each _ (Nat.mod_lt n (by decide)))⟩

variable {n a : Int}

theorem toList_hexComponent (n : Int) : (hexComponent n).toList = (if n < 0 then ['-'] else []) ++
    List.replicate (2 - (if n < 0 then ['-'] else []).length - (Nat.toDigits 16 n.natAbs).length) '0' ++
      (Nat.toDigits 16 n.natAbs).map Char.toUpper := by
  rw [hexComponent, String.toList_ofList, List.length_map]

/-- A component takes two characters at least. -/
theorem two_le_hexComponent (n : Int) : 2 ≤ (hexComponent n).toList.length := by
  rw [toList_hexComponent]
  simp only [List.length_append, List.length_replicate, List.length_map]
  omega

/-- The components of one byte are those written with two digits. -/
theorem hexComponent_iff :
    ((hexComponent n).toList.length = 2 ∧ ∀ d ∈ (hexComponent n).toList, d ∈ upperDigits) ↔ IsByte n := by
  have two_iff : (Nat.toDigits 16 n.natAbs).length ≤ 2 ↔ n.natAbs < 16 ^ 2 :=
    Nat.length_toDigits_le_iff (by decide) (by decide)
  constructor
  · rintro ⟨two, digits⟩
    have positive : ¬ n < 0 := by
      intro negative
      rw [toList_hexComponent, if_pos negative] at digits
      exact absurd (digits '-' List.mem_cons_self) (by decide)
    rw [toList_hexComponent, if_neg positive] at two
    simp only [List.length_append, List.length_replicate, List.length_map, List.length_nil] at two
    have small := two_iff.mp (by omega)
    exact ⟨by omega, by omega⟩
  · rintro ⟨least, most⟩
    have small := two_iff.mpr (by omega)
    constructor
    · rw [toList_hexComponent, if_neg (by omega)]
      simp only [List.length_append, List.length_replicate, List.length_map, List.length_nil]
      omega
    · rw [toList_hexComponent, if_neg (by omega)]
      intro d mem
      rcases List.mem_append.mp mem with zero | digit
      · obtain rfl := List.eq_of_mem_replicate zero
        decide
      · exact upperDigits_toDigits _ d digit

/-! ## Opacity -/

/-- A decimal with two places, from 0.00 to 1.00. -/
def IsShareText (cs : List Char) : Prop :=
  ∃ w t h, cs = [w, '.', t, h] ∧ (∀ d ∈ [w, t, h], d.isDigit = true) ∧ Nat.ofDigitChars 10 [w, t, h] 0 ≤ 100

theorem IsShareText.not_at {cs : List Char} (h : IsShareText cs) : '@' ∉ cs := by
  obtain ⟨w, t, h, rfl, digits, -⟩ := h
  simp only [List.forall_mem_cons] at digits
  obtain ⟨left, first, second, -⟩ := digits
  intro mem
  simp only [List.mem_cons, List.not_mem_nil, or_false] at mem
  rcases mem with rfl | point | rfl | rfl
  · cases left
  · exact absurd point (by decide)
  · cases first
  · cases second

open Binary64

/-- Hundredths are written as a share if there are at most a hundred of them. -/
theorem isShareText_iff (count : Nat) : IsShareText (placesText 2 count) ↔ count ≤ 100 := by
  have some_places : 0 < 2 := Nat.two_pos
  have form := (placesText_form some_places count).text
  rw [List.append_nil] at form
  have value := ofDigitChars_places some_places count
  have two := length_fractionDigits some_places (Nat.mod_lt count (Nat.pow_pos (by decide)))
  constructor
  · rintro ⟨w, t, h, text, -, few⟩
    have split : wholeDigits (count / 10 ^ 2) ++ '.' :: fractionDigits 2 (count % 10 ^ 2) =
        [w] ++ ['.', t, h] := form.symm.trans text
    obtain ⟨whole, fraction⟩ := List.append_inj' split (by rw [List.length_cons, two]; rfl)
    rw [whole, (List.cons.inj fraction).2] at value
    exact value.symm.le.trans few
  · intro few
    have one : (wholeDigits (count / 10 ^ 2)).length ≤ 1 :=
      (Nat.length_toDigits_le_iff (by decide) (by decide)).mpr (by omega)
    have filled : wholeDigits (count / 10 ^ 2) ≠ [] := Nat.toDigits_ne_nil
    obtain ⟨w, whole⟩ : ∃ w, wholeDigits (count / 10 ^ 2) = [w] :=
      List.length_eq_one_iff.mp (by have := List.length_pos_iff.mpr filled; omega)
    obtain ⟨t, h, fraction⟩ := List.length_eq_two.mp two
    have left := isDigit_wholeDigits (count / 10 ^ 2)
    have right := isDigit_fractionDigits 2 (count % 10 ^ 2)
    rw [whole] at form value left
    rw [fraction] at form value right
    refine ⟨w, t, h, form, ?_, ?_⟩
    · exact List.forall_mem_append.mpr ⟨left, right⟩
    · exact value.le.trans few

theorem hundredths_le {units : Nat} (h : (units : ℚ) / unitsPerOne ≤ 1029 / 1024) :
    roundDiv (units * 10 ^ 2) unitsPerOne ≤ 100 := by
  rw [div_le_div_iff₀ unitsPerOne_cast_pos (by norm_num)] at h
  have bound : units * 1024 ≤ 1029 * unitsPerOne := by exact_mod_cast h
  have below := (roundDiv_bounds (units * 10 ^ 2) unitsPerOne_pos).1
  have pos := unitsPerOne_pos
  generalize unitsPerOne = one at *
  by_contra more
  have least : 101 * one ≤ roundDiv (units * 10 ^ 2) one * one := Nat.mul_le_mul_right one (by omega)
  omega

theorem lt_hundredths {units : Nat} (h : 1031 / 1024 ≤ (units : ℚ) / unitsPerOne) :
    100 < roundDiv (units * 10 ^ 2) unitsPerOne := by
  rw [div_le_div_iff₀ (by norm_num) unitsPerOne_cast_pos] at h
  have bound : 1031 * unitsPerOne ≤ units * 1024 := by exact_mod_cast h
  have above := (roundDiv_bounds (units * 10 ^ 2) unitsPerOne_pos).2
  have pos := unitsPerOne_pos
  generalize unitsPerOne = one at *
  by_contra fewer
  have most : roundDiv (units * 10 ^ 2) one * one ≤ 100 * one := Nat.mul_le_mul_right one (by omega)
  omega

theorem round_cases (negative : Bool) (num den : Nat) :
    (∃ units fits, round negative num den = .finite negative units fits) ∨
      round negative num den = .infinite negative := by
  unfold Binary64.round
  split
  · rename_i fits
    exact .inl ⟨_, fits, rfl⟩
  · exact .inr rfl

/-- A negative number is written with a sign. -/
theorem not_isShareText_negative (num den : Nat) : ¬ IsShareText ((ofRatio true num den).fixed 2).toList := by
  have signed : ∃ rest, ((ofRatio true num den).fixed 2).toList = '-' :: rest := by
    rw [fixed, String.toList_ofList, ofRatio]
    rcases round_cases true (num * unitsPerOne) den with ⟨units, fits, finite⟩ | infinite
    · exact ⟨_, congrArg (fixedChars 2) finite⟩
    · exact ⟨_, congrArg (fixedChars 2) infinite⟩
  obtain ⟨rest, text⟩ := signed
  rintro ⟨w, t, h, form, digits, -⟩
  rw [text] at form
  rw [← (List.cons.inj form).1] at digits
  exact absurd (digits '-' List.mem_cons_self) (by decide)

theorem isShareText_ofRatio_iff (n : Nat) :
    IsShareText ((ofRatio false n 255).fixed 2).toList ↔ n ≤ 256 := by
  have rounds := rounds_ratio (n * unitsPerOne) (show 0 < 255 by decide)
  have share : ((n * unitsPerOne : ℕ) : ℚ) / (255 : ℕ) / unitsPerOne = n / 255 := by
    rw [div_right_comm, Nat.cast_mul, mul_div_cancel_right₀ _ unitsPerOne_cast_pos.ne']
    rfl
  rw [share] at rounds
  rw [ofRatio, fixed, String.toList_ofList]
  generalize made : Binary64.round false (n * unitsPerOne) 255 = x at *
  -- between 256 and 257 bytes are 1029 and 1031 parts of 1024, and between these is a hundred and a half
  have inside (few : n ≤ 256) : Within 0 (1029 / 1024) x := by
    have near : IsNumber (1029 / 1024) := by
      have steps := isNumber_steps (k := 1029) (p := 10) (by decide) (by decide)
      norm_num at steps
      exact steps
    have few : (n : ℚ) ≤ 256 := by exact_mod_cast few
    exact rounds.within isNumber_zero near (by positivity) (by linarith)
  have outside (many : 257 ≤ n) (finite : x.isFinite = true) : 1031 / 1024 ≤ x.value := by
    obtain ⟨u, ufinite, value⟩ : IsNumber (1031 / 1024) := by
      have steps := isNumber_steps (k := 1031) (p := 10) (by decide) (by decide)
      norm_num at steps
      exact steps
    have many : (257 : ℚ) ≤ n := by exact_mod_cast many
    have below := rounds.above u ufinite (by rw [value]; linarith)
    exact value.ge.trans ((le_iff_value_le ufinite finite).mp below)
  rcases round_cases false (n * unitsPerOne) 255 with ⟨units, fits, finite⟩ | infinite
  · obtain rfl := made.symm.trans finite
    have written : fixedChars 2 (.finite false units fits) =
      placesText 2 (roundDiv (units * 10 ^ 2) unitsPerOne) := rfl
    rw [written, isShareText_iff]
    constructor
    · intro few
      by_contra many
      exact absurd few (Nat.not_le.mpr (lt_hundredths (outside (by omega) rfl)))
    · intro few
      exact hundredths_le (inside few).most
  · obtain rfl := made.symm.trans infinite
    constructor
    · rintro ⟨w, t, h, form, -⟩
      cases form
    · intro few
      cases (inside few).finite

/-- An opacity, in bytes, is written as a share if it is not negative and at most 256. -/
theorem isShareText_fixed_iff :
    IsShareText ((ofRatio (decide (a < 0)) a.natAbs 255).fixed 2).toList ↔ 0 ≤ a ∧ a ≤ 256 := by
  rcases lt_or_ge a 0 with negative | positive
  · rw [decide_eq_true negative]
    exact iff_of_false (not_isShareText_negative _ _) (by omega)
  · rw [decide_eq_false (by omega), isShareText_ofRatio_iff]
    omega

/-! ## Colours -/

/-- What stands after the digits of a colour. -/
def IsSuffix (alpha : Option Int) (cs : List Char) : Prop :=
  if alpha = none ∨ alpha = some 255 then cs = [] else ∃ share, cs = '@' :: share ∧ IsShareText share

/-- The form in which the engine reads a colour: a mark, six digits, and an opacity that is not full. -/
def EngineForm (alpha : Option Int) (text : String) : Prop :=
  ∃ digits suffix, text.toList = '0' :: 'x' :: (digits ++ suffix) ∧ digits.length = 6 ∧
    (∀ d ∈ digits, d ∈ upperDigits) ∧ IsSuffix alpha suffix

variable {c : Color} {s : String}

/-- The digits of a colour, one component after the other. -/
def digits (c : Color) : List Char :=
  (hexComponent c.red).toList ++ (hexComponent c.green).toList ++ (hexComponent c.blue).toList

/-- What is written after the digits. -/
def opacityText : Option Int → List Char
  | none => []
  | some a => if a = 255 then [] else '@' :: ((ofRatio (decide (a < 0)) a.natAbs 255).fixed 2).toList

theorem toList_engineText (c : Color) :
    (engineText c).toList = '0' :: 'x' :: (c.digits ++ opacityText c.alpha) := by
  obtain ⟨r, g, b, alpha⟩ := c
  cases alpha with
  | none => simp [engineText, digits, opacityText]
  | some a =>
      by_cases full : a = 255
      · simp [engineText, digits, opacityText, full]
      · simp [engineText, digits, opacityText, full]

/-- The digits of a colour are six if each component is one byte. -/
theorem digits_iff : (c.digits.length = 6 ∧ ∀ d ∈ c.digits, d ∈ upperDigits) ↔
    IsByte c.red ∧ IsByte c.green ∧ IsByte c.blue := by
  have red := two_le_hexComponent c.red
  have green := two_le_hexComponent c.green
  have blue := two_le_hexComponent c.blue
  rw [← hexComponent_iff, ← hexComponent_iff, ← hexComponent_iff]
  simp only [digits, List.length_append, List.forall_mem_append]
  constructor
  · rintro ⟨six, ⟨hr, hg⟩, hb⟩
    exact ⟨⟨by omega, hr⟩, ⟨by omega, hg⟩, ⟨by omega, hb⟩⟩
  · rintro ⟨⟨r, hr⟩, ⟨g, hg⟩, ⟨b, hb⟩⟩
    exact ⟨by omega, ⟨hr, hg⟩, hb⟩

/-- What follows the digits keeps to the form if the opacity is in range. -/
theorem isSuffix_iff (alpha : Option Int) :
    IsSuffix alpha (opacityText alpha) ↔ ∀ a ∈ alpha, 0 ≤ a ∧ a ≤ 256 := by
  cases alpha with
  | none => simp [IsSuffix, opacityText]
  | some a =>
      by_cases full : a = 255
      · simp [IsSuffix, opacityText, full]
      · simp [IsSuffix, opacityText, full, isShareText_fixed_iff]

theorem opacityText_cases (alpha : Option Int) :
    (alpha = none ∨ alpha = some 255) ∧ opacityText alpha = [] ∨
      ¬ (alpha = none ∨ alpha = some 255) ∧ ∃ share, opacityText alpha = '@' :: share := by
  cases alpha with
  | none => exact .inl ⟨.inl rfl, rfl⟩
  | some a =>
      by_cases full : a = 255
      · exact .inl ⟨.inr (congrArg some full), if_pos full⟩
      · refine .inr ⟨?_, _, if_neg full⟩
        rintro (none | same)
        · cases none
        · exact full (Option.some.inj same)

/-- There is no other way to take a text apart: the digits end where the opacity begins. -/
theorem engineForm_iff_parts : EngineForm c.alpha (engineText c) ↔
    (c.digits.length = 6 ∧ ∀ d ∈ c.digits, d ∈ upperDigits) ∧ IsSuffix c.alpha (opacityText c.alpha) := by
  constructor
  · rintro ⟨front, suffix, text, six, upper, form⟩
    rw [toList_engineText] at text
    have parts : c.digits ++ opacityText c.alpha = front ++ suffix := (List.cons.inj (List.cons.inj text).2).2
    suffices same : c.digits = front ∧ opacityText c.alpha = suffix by
      rw [same.1, same.2]
      exact ⟨⟨six, upper⟩, form⟩
    have apart := form
    unfold IsSuffix at apart
    rcases opacityText_cases c.alpha with ⟨full, written⟩ | ⟨other, written, opacity⟩
    · rw [if_pos full] at apart
      rw [apart, written, List.append_nil, List.append_nil] at parts
      exact ⟨parts, written.trans apart.symm⟩
    · rw [if_neg other] at apart
      obtain ⟨share, rfl, decimal⟩ := apart
      rw [opacity] at parts ⊢
      have plain : '@' ∉ front := fun mem => absurd (upper _ mem) (by decide)
      obtain ⟨digits, -, shares⟩ := (List.append_cons_inj_of_notMem plain decimal.not_at).mp parts.symm
      exact ⟨digits.symm, congrArg _ shares.symm⟩
  · rintro ⟨⟨six, upper⟩, suffix⟩
    exact ⟨_, _, toList_engineText c, six, upper, suffix⟩

/-- A colour keeps to the form if it is in range. -/
theorem engineForm_iff : EngineForm c.alpha (engineText c) ↔ c.InRange := by
  rw [engineForm_iff_parts, digits_iff, isSuffix_iff]
  exact ⟨fun ⟨⟨r, g, b⟩, a⟩ => ⟨r, g, b, a⟩, fun h => ⟨⟨h.red, h.green, h.blue⟩, h.alpha⟩⟩

theorem mapM_hexComponent {b : Nat} (h : b < 256) :
    ((hexComponent b).toList.map Char.toLower).mapM hexDigit? = some [b / 16, b % 16] := by
  have each : ∀ b < 256, ((hexComponent (b : Nat)).toList.map Char.toLower).mapM hexDigit? =
      some [b / 16, b % 16] := by
    decide +kernel
  exact each b h

/-- The digits of a colour in range are read as its components. -/
theorem hex?_digits (h : c.InRange) :
    hex? (c.digits.map Char.toLower) = some ⟨c.red, c.green, c.blue, none⟩ := by
  obtain ⟨red, green, blue, alpha⟩ := c
  obtain ⟨⟨r, rfl⟩, ⟨g, rfl⟩, ⟨b, rfl⟩⟩ : (∃ r : ℕ, red = r) ∧ (∃ g : ℕ, green = g) ∧ ∃ b : ℕ, blue = b :=
    ⟨Int.eq_ofNat_of_zero_le h.red.1, Int.eq_ofNat_of_zero_le h.green.1, Int.eq_ofNat_of_zero_le h.blue.1⟩
  have small {n : ℕ} (byte : IsByte n) : n < 256 := by
    have := byte.2
    omega
  have back (n : ℕ) : 16 * (n / 16) + n % 16 = n := Nat.div_add_mod n 16
  rw [hex?, digits, List.map_append, List.map_append, List.mapM_append, List.mapM_append,
    mapM_hexComponent (small h.red), mapM_hexComponent (small h.green), mapM_hexComponent (small h.blue)]
  show some (Color.mk _ _ _ none) = _
  rw [back, back, back]

/-- The reading of a text: it has something but blanks, is not too long, and has a form. -/
theorem ofText_eq_ok_iff : ofText s = .ok c ↔ Text.isBlankText s = false ∧
    (Text.trim s).length ≤ textLimit ∧ ofLower? (Text.lower (Text.trim s)) = some c := by
  unfold ofText
  dsimp only
  split
  · rename_i blank
    exact iff_of_false nofun fun h => absurd (blank.symm.trans h.1) (by decide)
  · rename_i some_text
    rw [eq_false_of_ne_true some_text]
    split
    · rename_i long
      exact iff_of_false nofun fun h => absurd h.2.1 (Nat.not_le.mpr long)
    · rename_i short
      cases ofLower? (Text.lower (Text.trim s)) with
      | none => exact iff_of_false nofun fun h => nomatch h.2.2
      | some d =>
          rw [Except.ok.injEq, Option.some.injEq]
          exact ⟨fun same => ⟨rfl, Nat.le_of_not_lt short, same⟩, fun h => h.2.2⟩

theorem length_lower_le (s : String) : (Text.lower s).toList.length ≤ 2 * s.length := by
  rw [Text.lower, String.toList_ofList]
  exact Text.length_lowerFrom_le [] s.toList

/-- A colour that is read is written in the form of the engine just if it is in range; and it is, unless a
component of a function is beyond its bound. In range, the digits that are written are read as the
components again. -/
theorem engineText_form (read : ofText s = .ok c) :
    (EngineForm c.alpha (engineText c) ↔ c.InRange) ∧
      (InBounds (Text.lower (Text.trim s)).toList → EngineForm c.alpha (engineText c)) ∧
      (c.InRange → ∃ front rest, (engineText c).toList = '0' :: 'x' :: (front ++ rest) ∧
        front.length = 6 ∧ hex? (front.map Char.toLower) = some ⟨c.red, c.green, c.blue, none⟩) := by
  obtain ⟨-, short, known⟩ := ofText_eq_ok_iff.mp read
  refine ⟨engineForm_iff, fun bounds => engineForm_iff.mpr ?_, fun within => ?_⟩
  · exact inRange_ofLower? ((length_lower_le _).trans (Nat.mul_le_mul_left 2 short)) bounds known
  · have six := (digits_iff.mpr ⟨within.red, within.green, within.blue⟩).1
    exact ⟨_, _, toList_engineText c, six, hex?_digits within⟩

theorem engineText_form_hue : ofText " HSL(30, 100%, 50%)" = .ok ⟨255, 128, 0, none⟩ ∧
    EngineForm none (engineText ⟨255, 128, 0, none⟩) := by
  have read : ofText " HSL(30, 100%, 50%)" = .ok ⟨255, 128, 0, none⟩ :=
    ofText_eq_ok_iff.mpr (by decide +kernel)
  have text : (Text.lower (Text.trim " HSL(30, 100%, 50%)")).toList = "hsl(30, 100%, 50%)".toList := by
    decide +kernel
  have components : function? "hsl" angleForms "hsl(30, 100%, 50%)".toList =
      some [⟨[3, 0], []⟩, ⟨[1, 0, 0], []⟩, ⟨[5, 0], []⟩] := rfl
  refine ⟨read, (engineText_form read).2.1 ?_⟩
  rw [text]
  refine ⟨nofun, nofun, ?_, nofun, nofun, nofun⟩
  intro found same
  obtain rfl := Option.some.inj (components.symm.trans same)
  refine .cons nofun (.cons (Component.atMost_some.mpr ?_) (.cons (Component.atMost_some.mpr ?_) .nil))
  · norm_num [Component.value, Text.digitsValue, Text.digitsValueFrom]
  · norm_num [Component.value, Text.digitsValue, Text.digitsValueFrom]

/-- A text that is read as a colour, and the text that is written for it, in a form of its own. -/
def StraysTo (s text : String) : Prop :=
  ∃ c, ofText s = .ok c ∧ engineText c = text ∧ ¬ EngineForm c.alpha text

theorem straysTo_of_read {text : String} (read : Text.isBlankText s = false ∧
    (Text.trim s).length ≤ textLimit ∧ ofLower? (Text.lower (Text.trim s)) = some c)
    (written : engineText c = text) (out : ¬ c.InRange) : StraysTo s text :=
  ⟨c, ofText_eq_ok_iff.mpr read, written, fun form => out (engineForm_iff.mp (written ▸ form))⟩

/-- Components beyond their bounds. -/
theorem engineText_form_strays : StraysTo "rgb(300,0,0)" "0x12C0000" ∧
    StraysTo "rgba(0,0,0,300)" "0x000000@1.18" ∧ StraysTo "hsl(0,200%,50%)" "0x17F-7F-7F" ∧
      StraysTo "hsl(0,0%,200%)" "0x1FE1FE1FE" := by
  refine ⟨straysTo_of_read (c := ⟨300, 0, 0, none⟩) ?_ ?_ ?_,
    straysTo_of_read (c := ⟨0, 0, 0, some 300⟩) ?_ ?_ ?_,
    straysTo_of_read (c := ⟨383, -127, -127, none⟩) ?_ ?_ ?_,
    straysTo_of_read (c := ⟨510, 510, 510, none⟩) ?_ ?_ ?_⟩
  · decide +kernel
  · decide +kernel
  · exact fun h => absurd h.red.2 (by decide)
  · decide +kernel
  · decide +kernel
  · exact fun h => absurd (h.alpha 300 rfl).2 (by decide)
  · decide +kernel
  · decide +kernel
  · exact fun h => absurd h.red.2 (by decide)
  · decide +kernel
  · decide +kernel
  · exact fun h => absurd h.red.2 (by decide)

end Color
end Splice
