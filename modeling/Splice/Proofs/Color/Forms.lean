import Splice.Proofs.Color.Shares

/-! # The components of colours

Names and hexadecimal digits give components of one byte. A function form does so if none of its components
is beyond its bound: whole numbers go up to 255, percents up to 100, and a hue has no bound.
-/

namespace Splice

namespace Text

theorem digitValue?_lt {c : Char} {d : Nat} (h : digitValue? c = some d) : d < 10 := by
  obtain ⟨first, found, rfl⟩ := Option.map_eq_some_iff.mp h
  have within := List.find?_some found
  simp only [Bool.and_eq_true, decide_eq_true_iff] at within
  omega

/-- Digits denote less than the power of ten of their count. -/
theorem digitsValueFrom_lt {ds : List Nat} (digits : ∀ d ∈ ds, d < 10) (v : Nat) :
    digitsValueFrom v ds < (v + 1) * 10 ^ ds.length := by
  induction ds generalizing v with
  | nil => simp [digitsValueFrom]
  | cons d rest ih =>
      rw [List.forall_mem_cons] at digits
      have later := ih digits.2 (10 * v + d)
      have room : (10 * v + d + 1) * 10 ^ rest.length ≤ (v + 1) * 10 ^ (rest.length + 1) := by
        rw [Nat.pow_succ, Nat.mul_comm (10 ^ rest.length) 10, ← Nat.mul_assoc]
        exact Nat.mul_le_mul_right _ (by omega)
      exact later.trans_le room

theorem digitsValue_lt {ds : List Nat} (digits : ∀ d ∈ ds, d < 10) : digitsValue ds < 10 ^ ds.length := by
  simpa [digitsValue] using digitsValueFrom_lt digits 0

theorem digitsValueFrom_eq (v : Nat) (ds : List Nat) :
    digitsValueFrom v ds = v * 10 ^ ds.length + digitsValue ds := by
  induction ds generalizing v with
  | nil => simp [digitsValueFrom, digitsValue]
  | cons d rest ih =>
      have first : digitsValue (d :: rest) = digitsValueFrom d rest := by simp [digitsValue, digitsValueFrom]
      show digitsValueFrom (10 * v + d) rest = _
      rw [first, ih, ih d, List.length_cons, Nat.pow_succ]
      ring

theorem digitsValue_append (xs ys : List Nat) :
    digitsValue (xs ++ ys) = digitsValue xs * 10 ^ ys.length + digitsValue ys := by
  rw [← digitsValueFrom_eq]
  exact List.foldl_append

theorem splitDigits_spec {cs rest : List Char} {ds : List Nat} (h : splitDigits cs = (ds, rest)) :
    (∀ d ∈ ds, d < 10) ∧ ds.length + rest.length ≤ cs.length := by
  obtain ⟨rfl, rfl⟩ := Prod.mk.inj h
  constructor
  · intro d mem
    obtain ⟨c, -, value⟩ := List.mem_filterMap.mp mem
    exact digitValue?_lt value
  · have parts := congrArg List.length (List.takeWhile_append_dropWhile (p := isDigit) (l := cs))
    rw [List.length_append] at parts
    have fewer := List.length_filterMap_le digitValue? (cs.takeWhile isDigit)
    omega

theorem length_lowerFrom_le (before cs : List Char) : (lowerFrom before cs).length ≤ 2 * cs.length := by
  induction cs generalizing before with
  | nil => simp [lowerFrom]
  | cons c rest ih =>
      have few : (lowerIn before c rest).length ≤ 2 := by
        unfold lowerIn
        split
        · exact Nat.le_refl 2
        · split
          · exact Nat.le_succ 1
          · exact Nat.le_succ 1
      have later := ih (c :: before)
      rw [lowerFrom, List.length_append, List.length_cons]
      omega

end Text

namespace Color

open Binary64

namespace Component

variable {c : Component} {n : Nat}

/-- The number that a component denotes. -/
def value (c : Component) : ℚ := Text.digitsValue (c.whole ++ c.fraction) / 10 ^ c.fraction.length

/-- A component of a few digits. -/
structure Short (n : Nat) (c : Component) : Prop where
  digits : ∀ d ∈ c.whole ++ c.fraction, d < 10
  few : (c.whole ++ c.fraction).length ≤ n

theorem toNat_le_value (c : Component) : (c.toNat : ℚ) ≤ c.value := by
  rw [value, le_div_iff₀ (by positivity), toNat, Text.digitsValue_append]
  push_cast
  exact le_add_of_nonneg_right (Nat.cast_nonneg _)

theorem rounds_toBinary64 (c : Component) : Rounds c.value c.toBinary64 := by
  have rounds := rounds_ofDecimal (Text.digitsValue (c.whole ++ c.fraction)) (-(c.fraction.length : Int))
  rwa [zpow_neg, zpow_natCast, ← div_eq_mul_inv] at rounds

theorem value_nonneg (c : Component) : 0 ≤ c.value := by
  unfold value
  positivity

/-- A percent of at most a hundred is a share. -/
theorem within_percent (h : c.value ≤ 100) : Within 0 1 (c.toBinary64 / 100) := by
  have most : IsNumber 100 := ⟨100, hundred_spec⟩
  obtain ⟨finite, least, most⟩ := c.rounds_toBinary64.within isNumber_zero most c.value_nonneg h
  have share := rounds_div finite hundred_spec.1 (by rw [hundred_spec.2]; norm_num)
  rw [hundred_spec.2] at share
  exact share.within isNumber_zero isNumber_one (by positivity) (by linarith)

theorem value_lt (digits : ∀ d ∈ c.whole ++ c.fraction, d < 10) :
    c.value < 10 ^ (c.whole ++ c.fraction).length := by
  have places : (1 : ℚ) ≤ 10 ^ c.fraction.length := one_le_pow₀ (by norm_num)
  have below : (Text.digitsValue (c.whole ++ c.fraction) : ℚ) < 10 ^ (c.whole ++ c.fraction).length := by
    exact_mod_cast Text.digitsValue_lt digits
  exact (div_le_self (Nat.cast_nonneg _) places).trans_lt below

/-- A hue of a few digits is a number of sectors. -/
theorem sectors_spec (short : c.Short 200) :
    (c.toBinary64 / 360 * 6).isFinite = true ∧ 0 ≤ (c.toBinary64 / 360 * 6).value := by
  have whole : (360 : Binary64).isFinite = true ∧ (360 : Binary64).value = 360 :=
    ⟨isFinite_ofNat (by decide), value_ofNat (by decide)⟩
  have large : c.value ≤ 2 ^ 800 := by
    have digits : (10 : ℚ) ^ (c.whole ++ c.fraction).length ≤ 10 ^ 200 :=
      pow_le_pow_right₀ (by norm_num) short.few
    have bits : (10 : ℚ) ^ 200 ≤ (2 ^ 4) ^ 200 := pow_le_pow_left₀ (by norm_num) (by norm_num) 200
    rw [← pow_mul] at bits
    exact (value_lt short.digits).le.trans (digits.trans bits)
  obtain ⟨finite, least, most⟩ := c.rounds_toBinary64.within isNumber_zero (isNumber_two_pow (by decide))
    c.value_nonneg large
  have turns := rounds_div finite whole.1 (by rw [whole.2]; norm_num)
  rw [whole.2] at turns
  obtain ⟨finite, least, most⟩ := turns.within isNumber_zero (isNumber_two_pow (k := 800) (by decide))
    (by positivity) (le_trans (div_le_self least (by norm_num)) most)
  have sectors := rounds_mul finite six_spec.1
  rw [six_spec.2] at sectors
  have room : (c.toBinary64 / 360).value * 6 ≤ 2 ^ 803 := by
    rw [pow_add 2 800 3]
    exact mul_le_mul most (by norm_num) (by norm_num) (by positivity)
  obtain ⟨finite, least, -⟩ := sectors.within isNumber_zero (isNumber_two_pow (by decide))
    (by positivity) room
  exact ⟨finite, least⟩

end Component

/-! ## What is read -/

section Reading

variable {form : ComponentForm} {forms : List ComponentForm} {cs rest : List Char} {c : Component}
  {components : List Component}

theorem splitFraction_spec {fraction : List Nat} (h : form.splitFraction cs = (fraction, rest)) :
    (∀ d ∈ fraction, d < 10) ∧ fraction.length + rest.length ≤ cs.length := by
  unfold ComponentForm.splitFraction at h
  split at h
  · obtain ⟨digits, few⟩ := Text.splitDigits_spec h
    exact ⟨digits, few.trans (Nat.le_succ _)⟩
  · obtain ⟨rfl, rfl⟩ := Prod.mk.inj h
    exact ⟨List.forall_mem_nil _, (Nat.zero_add _).le⟩

theorem length_afterSign?_le (h : form.afterSign? cs = some rest) : rest.length ≤ cs.length := by
  unfold ComponentForm.afterSign? at h
  split at h
  · obtain rfl := Option.some.inj h
    exact Nat.le_succ _
  · cases h
  · obtain rfl := Option.some.inj h
    exact Nat.le_refl _

theorem component?_spec (h : component? form cs = some (c, rest)) :
    c.Short cs.length ∧ rest.length ≤ cs.length := by
  unfold component? at h
  rcases first : Text.splitDigits (cs.dropWhile Text.isBlank) with ⟨whole, afterWhole⟩
  rcases second : form.splitFraction afterWhole with ⟨fraction, afterFraction⟩
  simp only [first, second] at h
  split at h
  · cases h
  · obtain ⟨afterSign, sign, made⟩ := Option.map_eq_some_iff.mp h
    obtain ⟨rfl, rfl⟩ := Prod.mk.inj made
    obtain ⟨wholeDigits, wholeFew⟩ := Text.splitDigits_spec first
    obtain ⟨fractionDigits, fractionFew⟩ := splitFraction_spec second
    have signFew := length_afterSign?_le sign
    have blanksBefore := (List.dropWhile_sublist (l := cs) Text.isBlank).length_le
    have blanksAfter := (List.dropWhile_sublist (l := afterSign) Text.isBlank).length_le
    refine ⟨⟨List.forall_mem_append.mpr ⟨wholeDigits, fractionDigits⟩, ?_⟩, by omega⟩
    show (whole ++ fraction).length ≤ _
    rw [List.length_append]
    omega

theorem Component.Short.mono {m n : Nat} (h : c.Short m) (le : m ≤ n) : c.Short n :=
  ⟨h.digits, h.few.trans le⟩

theorem components?_short (h : components? forms cs = some components) :
    ∀ c ∈ components, c.Short cs.length := by
  fun_induction components? forms cs generalizing components with
  | case1 => cases h
  | case2 cs form c read =>
      obtain rfl := Option.some.inj h
      exact List.forall_mem_singleton.mpr (component?_spec read).1
  | case3 => cases h
  | case4 cs form forms more c rest read ih =>
      obtain ⟨later, others, rfl⟩ := Option.map_eq_some_iff.mp h
      obtain ⟨first, shorter⟩ := component?_spec read
      refine List.forall_mem_cons.mpr ⟨first, fun d mem => ?_⟩
      exact (ih others d mem).mono ((Nat.le_succ _).trans shorter)
  | case5 => cases h

theorem length_afterStart?_le {start : List Char} (h : afterStart? start cs = some rest) :
    rest.length ≤ cs.length := by
  fun_induction afterStart? start cs with
  | case1 =>
      obtain rfl := Option.some.inj h
      exact Nat.le_refl _
  | case2 => cases h
  | case3 p ps cs ih => exact (ih h).trans (Nat.le_succ _)
  | case4 => cases h

/-- The components of a function form have no more digits than its text has characters. -/
theorem function?_short {name : String} (h : function? name forms cs = some components) :
    ∀ c ∈ components, c.Short cs.length := by
  obtain ⟨rest, start, read⟩ := Option.bind_eq_some_iff.mp h
  exact fun c mem => (components?_short read c mem).mono (length_afterStart?_le start)

end Reading

/-! ## Colours -/

/-- The components of a colour are bytes, and its opacity is full at most: 256 is written as full, too. -/
structure InRange (c : Color) : Prop where
  red : IsByte c.red
  green : IsByte c.green
  blue : IsByte c.blue
  alpha : ∀ a ∈ c.alpha, 0 ≤ a ∧ a ≤ 256

/-- A component that is not beyond its bound, if it has one. -/
def Component.AtMost (c : Component) (bound : Option Nat) : Prop := ∀ n ∈ bound, c.value ≤ n

/-- If a text is a function of the name and the forms, no component is beyond its bound. -/
def Respects (name : String) (forms : List ComponentForm) (bounds : List (Option Nat))
    (cs : List Char) : Prop :=
  ∀ components, function? name forms cs = some components → List.Forall₂ Component.AtMost components bounds

/-- The bounds of the function forms: a byte for a whole number, and a hundred for a percent. -/
structure InBounds (cs : List Char) : Prop where
  rgb : Respects "rgb" [wholeForm, wholeForm, wholeForm] [some 255, some 255, some 255] cs
  percent : Respects "rgb" [percentForm, percentForm, percentForm] [some 100, some 100, some 100] cs
  hsl : Respects "hsl" angleForms [none, some 100, some 100] cs
  hsv : Respects "hsv" angleForms [none, some 100, some 100] cs
  hsb : Respects "hsb" angleForms [none, some 100, some 100] cs
  rgba : Respects "rgba" [wholeForm, wholeForm, wholeForm, wholeForm]
    [some 255, some 255, some 255, some 255] cs

section Ranges

variable {cs : List Char} {c : Color} {x : Component} {n : Nat}

theorem Component.atMost_some : x.AtMost (some n) ↔ x.value ≤ n :=
  ⟨fun h => h n rfl, fun h _ same => Option.some.inj same ▸ h⟩

theorem Component.toNat_le (h : x.value ≤ n) : x.toNat ≤ n := by exact_mod_cast x.toNat_le_value.trans h

theorem isByte_toNat (h : x.value ≤ (255 : ℕ)) : IsByte x.toNat :=
  ⟨Int.natCast_nonneg _, Int.ofNat_le.mpr (x.toNat_le h)⟩

theorem inRange_opaque {r g b : Int} (hr : IsByte r) (hg : IsByte g) (hb : IsByte b) :
    InRange ⟨r, g, b, none⟩ :=
  ⟨hr, hg, hb, nofun⟩

theorem inRange_alpha {r g b a : Int} (hr : IsByte r) (hg : IsByte g) (hb : IsByte b) (ha : IsByte a) :
    InRange ⟨r, g, b, some a⟩ := by
  refine ⟨hr, hg, hb, fun n same => ?_⟩
  obtain rfl := Option.some.inj same
  exact ⟨ha.1, le_trans ha.2 (by decide)⟩

theorem inRange_rgb? (bounds : InBounds cs) (h : rgb? cs = some c) : c.InRange := by
  unfold rgb? at h
  split at h
  · rename_i r g b read
    obtain rfl := Option.some.inj h
    have respected := bounds.rgb _ read
    simp only [List.forall₂_cons, Component.atMost_some] at respected
    obtain ⟨red, green, blue, -⟩ := respected
    exact inRange_opaque (isByte_toNat red) (isByte_toNat green) (isByte_toNat blue)
  · cases h

theorem inRange_rgbPercent? (bounds : InBounds cs) (h : rgbPercent? cs = some c) : c.InRange := by
  unfold rgbPercent? at h
  split at h
  · rename_i r g b read
    obtain rfl := Option.some.inj h
    have respected := bounds.percent _ read
    simp only [List.forall₂_cons, Component.atMost_some] at respected
    obtain ⟨red, green, blue, -⟩ := respected
    exact inRange_opaque (isByte_ofPercent (r.toNat_le red)) (isByte_ofPercent (g.toNat_le green))
      (isByte_ofPercent (b.toNat_le blue))
  · cases h

theorem inRange_rgba? (bounds : InBounds cs) (h : rgba? cs = some c) : c.InRange := by
  unfold rgba? at h
  split at h
  · rename_i r g b a read
    obtain rfl := Option.some.inj h
    have respected := bounds.rgba _ read
    simp only [List.forall₂_cons, Component.atMost_some] at respected
    obtain ⟨red, green, blue, alpha, -⟩ := respected
    exact inRange_alpha (isByte_toNat red) (isByte_toNat green) (isByte_toNat blue) (isByte_toNat alpha)
  · cases h

theorem inRange_ofShares {x : Binary64 × Binary64 × Binary64} (h : AreShares x) : (ofShares x).InRange :=
  inRange_opaque (isByte_ofShare h.1) (isByte_ofShare h.2.1) (isByte_ofShare h.2.2)

theorem inRange_hsl? (bounds : InBounds cs) (h : hsl? cs = some c) : c.InRange := by
  unfold hsl? at h
  split at h
  · rename_i hue s l read
    obtain rfl := Option.some.inj h
    have respected := bounds.hsl _ read
    simp only [List.forall₂_cons, Component.atMost_some] at respected
    obtain ⟨-, saturation, lightness, -⟩ := respected
    exact inRange_ofShares (areShares_ofHueLightness (l.within_percent lightness)
      (s.within_percent saturation))
  · cases h

/-- A hue is read as a number of sectors, so it must not be too long for one. -/
theorem inRange_hsv? (bounds : InBounds cs) (few : cs.length ≤ 200) (h : hsv? cs = some c) : c.InRange := by
  unfold hsv? at h
  split at h
  · rename_i hue s v read
    obtain rfl := Option.some.inj h
    have short : ∀ c ∈ [hue, s, v], c.Short cs.length := by
      rcases Option.or_eq_some_iff.mp read with first | ⟨-, second⟩
      · exact function?_short first
      · exact function?_short second
    have respected : List.Forall₂ Component.AtMost [hue, s, v] [none, some 100, some 100] := by
      rcases Option.or_eq_some_iff.mp read with first | ⟨-, second⟩
      · exact bounds.hsv _ first
      · exact bounds.hsb _ second
    simp only [List.forall₂_cons, Component.atMost_some] at respected
    obtain ⟨-, saturation, value, -⟩ := respected
    obtain ⟨finite, positive⟩ := Component.sectors_spec ((short hue List.mem_cons_self).mono few)
    exact inRange_ofShares (areShares_ofHueValue finite positive
      (s.within_percent saturation) (v.within_percent value))
  · cases h

theorem isByte_cast (small : n < 256) : IsByte n :=
  ⟨Int.natCast_nonneg n, Int.ofNat_le.mpr (Nat.le_of_lt_succ small)⟩

theorem inRange_ofNumber (small : n < 0x1000000) : (ofNumber n).InRange :=
  inRange_opaque (isByte_cast (by omega)) (isByte_cast (by omega)) (isByte_cast (by omega))

theorem hexDigit?_lt {d : Char} (h : hexDigit? d = some n) : n < 16 := by
  unfold hexDigit? at h
  dsimp only at h
  split at h
  · obtain rfl := Option.some.inj h
    omega
  split at h
  · obtain rfl := Option.some.inj h
    omega
  · cases h

theorem inRange_ofHexDigits? {ds : List Nat} (digits : ∀ d ∈ ds, d < 16) (h : ofHexDigits? ds = some c) :
    c.InRange := by
  unfold ofHexDigits? at h
  split at h
  · obtain rfl := Option.some.inj h
    simp only [List.forall_mem_cons] at digits
    obtain ⟨r, g, b, -⟩ := digits
    exact inRange_opaque (isByte_cast (by omega)) (isByte_cast (by omega)) (isByte_cast (by omega))
  · obtain rfl := Option.some.inj h
    simp only [List.forall_mem_cons] at digits
    obtain ⟨r, g, b, a, -⟩ := digits
    exact inRange_alpha (isByte_cast (by omega)) (isByte_cast (by omega)) (isByte_cast (by omega))
      (isByte_cast (by omega))
  · obtain rfl := Option.some.inj h
    simp only [List.forall_mem_cons] at digits
    obtain ⟨r, r', g, g', b, b', -⟩ := digits
    exact inRange_opaque (isByte_cast (by omega)) (isByte_cast (by omega)) (isByte_cast (by omega))
  · obtain rfl := Option.some.inj h
    simp only [List.forall_mem_cons] at digits
    obtain ⟨r, r', g, g', b, b', a, a', -⟩ := digits
    exact inRange_alpha (isByte_cast (by omega)) (isByte_cast (by omega)) (isByte_cast (by omega))
      (isByte_cast (by omega))
  · cases h

theorem inRange_hex? (h : hex? cs = some c) : c.InRange := by
  obtain ⟨ds, digits, made⟩ := Option.bind_eq_some_iff.mp h
  refine inRange_ofHexDigits? ?_ made
  clear made h
  induction cs generalizing ds with
  | nil =>
      obtain rfl := Option.some.inj digits
      exact List.forall_mem_nil _
  | cons d rest ih =>
      rw [List.mapM_cons] at digits
      obtain ⟨v, first, digits⟩ := Option.bind_eq_some_iff.mp digits
      obtain ⟨later, others, digits⟩ := Option.bind_eq_some_iff.mp digits
      obtain rfl := Option.some.inj digits
      exact List.forall_mem_cons.mpr ⟨hexDigit?_lt first, ih later others⟩

theorem names_small : ∀ p ∈ names, p.2 < 0x1000000 := by decide +kernel

/-- A colour is in range unless a component of a function form is beyond its bound. -/
theorem inRange_ofLower? {s : String} (few : s.toList.length ≤ 200) (bounds : InBounds s.toList)
    (h : ofLower? s = some c) : c.InRange := by
  unfold ofLower? at h
  split at h
  · rename_i n known
    obtain rfl := Option.some.inj h
    obtain ⟨before, after, split, -⟩ := List.lookup_eq_some_iff.mp known
    exact inRange_ofNumber (names_small (s, n) (split ▸ List.mem_append_right before List.mem_cons_self))
  · split at h
    · exact inRange_hex? h
    · rename_i cs _
      simp only [Option.or_eq_some_iff] at h
      rcases h with rgb | ⟨-, percent | ⟨-, hsl | ⟨-, hsv | ⟨-, rgba⟩⟩⟩⟩
      · exact inRange_rgb? bounds rgb
      · exact inRange_rgbPercent? bounds percent
      · exact inRange_hsl? bounds hsl
      · exact inRange_hsv? bounds few hsv
      · exact inRange_rgba? bounds rgba

end Ranges

end Color
end Splice
