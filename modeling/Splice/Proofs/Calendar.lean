import Mathlib.Algebra.Group.Nat.Defs
import Mathlib.Order.Monotone.Basic
import Splice.Calendar

/-! # The order of written moments

The stored forms of instants of the years 1 to 9999 are in the order of the instants. They have two
lengths: of the moments of one second, the whole second is written without a fraction. It comes first,
because the sign of the distance to universal time comes before the point.
-/

namespace Splice

/-! ## Numbers of a width -/

/-- Texts that start with as many characters are in the order of their starts, and then of what
follows. -/
theorem append_lt_append {a b x y : List Char} (width : a.length = b.length)
    (h : a < b ∨ a = b ∧ x < y) : a ++ x < b ++ y := by
  induction a generalizing b with
  | nil =>
      obtain rfl := List.length_eq_zero_iff.mp width.symm
      rcases h with h | ⟨-, h⟩
      · exact absurd h (List.lt_irrefl _)
      · exact h
  | cons c a ih =>
      cases b with
      | nil => cases width
      | cons d b =>
          replace width : a.length = b.length := Nat.succ.inj width
          rw [List.cons_append, List.cons_append, List.cons_lt_cons_iff]
          rcases h with h | ⟨same, h⟩
          · rcases List.cons_lt_cons_iff.mp h with less | ⟨rfl, less⟩
            · exact .inl less
            · exact .inr ⟨rfl, ih width (.inl less)⟩
          · obtain ⟨first, rest⟩ := List.cons.inj same
            exact .inr ⟨first, ih width (.inr ⟨rest, h⟩)⟩

theorem padded_one {n : Nat} (digit : n < 10) : padded 1 n = [Nat.digitChar n] := by
  rw [padded, Binary64.wholeDigits, Nat.toDigits_of_lt_base digit]
  rfl

/-- A number of more than one digit ends in the digit of its ones. -/
theorem padded_succ (width n : Nat) :
    padded (width + 2) n = padded (width + 1) (n / 10) ++ [Nat.digitChar (n % 10)] := by
  by_cases digit : n < 10
  · rw [Nat.div_eq_of_lt digit, Nat.mod_eq_of_lt digit]
    simp only [padded, Binary64.wholeDigits, Nat.toDigits_of_lt_base digit, Nat.toDigits_zero,
      List.length_singleton,
      Nat.add_sub_cancel, List.append_assoc]
    rw [show width + 2 - 1 = width + 1 from rfl, List.replicate_succ', List.append_assoc]
  · have split : Nat.toDigits 10 n = Nat.toDigits 10 (n / 10) ++ [Nat.digitChar (n % 10)] := by
      rw [Nat.toDigits_of_base_le (by decide) (by omega)]
    simp only [padded, Binary64.wholeDigits, split, List.length_append, List.length_singleton,
      List.append_assoc]
    rw [show width + 2 = width + 1 + 1 from rfl, Nat.add_sub_add_right]

theorem length_padded {width n : Nat} (fits : n < 10 ^ (width + 1)) :
    (padded (width + 1) n).length = width + 1 := by
  induction width generalizing n with
  | zero => rw [padded_one (by simpa using fits), List.length_singleton]
  | succ width ih =>
      rw [padded_succ, List.length_append, List.length_singleton, ih]
      rw [Nat.pow_succ] at fits
      omega

theorem digitChar_lt {m n : Nat} (less : m < n) (digit : n < 10) :
    Nat.digitChar m < Nat.digitChar n := by
  have all : ∀ n < 10, ∀ m < n, Nat.digitChar m < Nat.digitChar n := by decide
  exact all n digit m less

/-- Numbers of one width are in their order. -/
theorem padded_lt {width m n : Nat} (less : m < n) (fits : n < 10 ^ (width + 1)) :
    padded (width + 1) m < padded (width + 1) n := by
  induction width generalizing m n with
  | zero =>
      have digit : n < 10 := by simpa using fits
      rw [padded_one digit, padded_one (by omega)]
      exact List.cons_lt_cons_iff.mpr (.inl (digitChar_lt less digit))
  | succ width ih =>
      rw [Nat.pow_succ] at fits
      have tens : n / 10 < 10 ^ (width + 1) := by omega
      have tens' : m / 10 < 10 ^ (width + 1) := by omega
      rw [padded_succ, padded_succ]
      apply append_lt_append
      · rw [length_padded tens, length_padded tens']
      · by_cases same : m / 10 = n / 10
        · have ones : m % 10 < n % 10 := by omega
          exact .inr ⟨by rw [same], List.cons_lt_cons_iff.mpr (.inl (digitChar_lt ones (by omega)))⟩
        · exact .inl (ih (by omega) tens)

theorem padded_append_lt {width m n : Nat} {x y : List Char} (fits : m < 10 ^ (width + 1))
    (fits' : n < 10 ^ (width + 1)) (h : m < n ∨ m = n ∧ x < y) :
    padded (width + 1) m ++ x < padded (width + 1) n ++ y := by
  apply append_lt_append
  · rw [length_padded fits, length_padded fits']
  · rcases h with less | ⟨rfl, less⟩
    · exact .inl (padded_lt less fits')
    · exact .inr ⟨rfl, less⟩

/-! ## Dates -/

namespace Date

theorem daysBeforeYear_succ (year : Nat) : daysBeforeYear year ≤ daysBeforeYear (year + 1) := by
  unfold daysBeforeYear
  dsimp only
  omega

theorem daysBeforeYear_mono {y z : Nat} (h : y ≤ z) : daysBeforeYear y ≤ daysBeforeYear z :=
  monotone_nat_of_le_succ daysBeforeYear_succ h

/-- The days before a year, from the cycles of 400, 100, 4 years and one year that it follows. -/
theorem daysBeforeYear_cycles {q c f y : Nat} (hc : c < 4) (hf : f < 25) (hy : y < 4) :
    daysBeforeYear (400 * q + 100 * c + 4 * f + y + 1) =
    146097 * q + 36524 * c + 1461 * f + 365 * y := by
  have fours : (400 * q + 100 * c + 4 * f + y) / 4 = 100 * q + 25 * c + f := by omega
  have hundreds : (400 * q + 100 * c + 4 * f + y) / 100 = 4 * q + c := by omega
  have cycles : (400 * q + 100 * c + 4 * f + y) / 400 = q := by omega
  simp only [daysBeforeYear, Nat.add_sub_cancel, fours, hundreds, cycles]
  omega

/-- A day is in the year that it is said to be in. -/
theorem yearOfDays_spec (days : Nat) :
    daysBeforeYear (yearOfDays days) ≤ days ∧ days < daysBeforeYear (yearOfDays days + 1) := by
  unfold yearOfDays
  dsimp only
  generalize cycle : days / 146097 = q
  have inCycle : days = 146097 * q + days % 146097 := by omega
  have short : days % 146097 < 146097 := by omega
  generalize days % 146097 = r at inCycle short ⊢
  generalize century : min 3 (r / 36524) = c
  generalize four : (r - 36524 * c) / 1461 = f
  generalize single : min 3 ((r - 36524 * c) % 1461 / 365) = y
  have hc : c < 4 := by omega
  have hf : f < 25 := by omega
  have hy : y < 4 := by omega
  rw [daysBeforeYear_cycles hc hf hy]
  refine ⟨by omega, ?_⟩
  -- the next year is the next one of its four, or else starts another cycle
  by_cases last : y < 3
  · have next := daysBeforeYear_cycles (q := q) hc hf (by omega : y + 1 < 4)
    rw [show 400 * q + 100 * c + 4 * f + y + 1 + 1 = 400 * q + 100 * c + 4 * f + (y + 1) + 1 by omega, next]
    omega
  by_cases last' : f < 24
  · have next := daysBeforeYear_cycles (q := q) hc (by omega : f + 1 < 25) (by decide : 0 < 4)
    rw [show 400 * q + 100 * c + 4 * f + y + 1 + 1 = 400 * q + 100 * c + 4 * (f + 1) + 0 + 1 by omega, next]
    omega
  by_cases last'' : c < 3
  · have next := daysBeforeYear_cycles (q := q) (by omega : c + 1 < 4) (by decide : 0 < 25)
      (by decide : 0 < 4)
    rw [show 400 * q + 100 * c + 4 * f + y + 1 + 1 = 400 * q + 100 * (c + 1) + 4 * 0 + 0 + 1 by omega, next]
    omega
  · have next := daysBeforeYear_cycles (q := q + 1) (by decide : 0 < 4) (by decide : 0 < 25)
      (by decide : 0 < 4)
    rw [show 400 * q + 100 * c + 4 * f + y + 1 + 1 = 400 * (q + 1) + 100 * 0 + 4 * 0 + 0 + 1 by omega, next]
    omega

theorem daysBeforeMonth_succ (year month : Nat) :
    daysBeforeMonth year month ≤ daysBeforeMonth year (month + 1) := by
  cases month with
  | zero => exact Nat.le_refl 0
  | succ month => exact Nat.le_add_right _ (monthLength year (month + 1))

theorem daysBeforeMonth_mono (year : Nat) {m n : Nat} (h : m ≤ n) :
    daysBeforeMonth year m ≤ daysBeforeMonth year n :=
  monotone_nat_of_le_succ (daysBeforeMonth_succ year) h

/-- A day is in the month that it is said to be in, or the month is the last one that was looked at. -/
theorem monthOfDay_spec (year dayOfYear count : Nat) :
    monthOfDay year dayOfYear count ≤ count + 1 ∧
      daysBeforeMonth year (monthOfDay year dayOfYear count) ≤ dayOfYear ∧
      (monthOfDay year dayOfYear count = count + 1 ∨
        dayOfYear < daysBeforeMonth year (monthOfDay year dayOfYear count + 1)) := by
  induction count with
  | zero => exact ⟨Nat.le_refl 1, Nat.zero_le _, .inl rfl⟩
  | succ count ih =>
      rw [monthOfDay]
      split
      · rename_i starts
        exact ⟨Nat.le_refl _, starts, .inl rfl⟩
      · rename_i later
        obtain ⟨bound, starts, last⟩ := ih
        refine ⟨by omega, starts, .inr ?_⟩
        rcases last with last | before
        · rw [last]
          exact Nat.lt_of_not_le later
        · exact before

/-- The numbers of a date, the year first, are less than those of another. -/
def Before (d e : Date) : Prop :=
  d.year < e.year ∨ d.year = e.year ∧ (d.month < e.month ∨ d.month = e.month ∧ d.day < e.day)

/-- The numbers of dates are in the order of the days. -/
theorem ofDays_before {m n : Nat} (h : m < n) : (ofDays m).Before (ofDays n) := by
  obtain ⟨starts, ends⟩ := yearOfDays_spec m
  obtain ⟨starts', ends'⟩ := yearOfDays_spec n
  simp only [Before, ofDays]
  by_cases same : yearOfDays m = yearOfDays n
  · rw [same] at starts ⊢
    refine .inr ⟨rfl, ?_⟩
    have less : m - daysBeforeYear (yearOfDays n) < n - daysBeforeYear (yearOfDays n) := by omega
    generalize yearOfDays n = year at *
    generalize m - daysBeforeYear year = d at *
    generalize n - daysBeforeYear year = d' at *
    obtain ⟨-, begins, -⟩ := monthOfDay_spec year d 11
    obtain ⟨bound, begins', last⟩ := monthOfDay_spec year d' 11
    obtain ⟨bound', -, -⟩ := monthOfDay_spec year d 11
    by_cases month : monthOfDay year d 11 = monthOfDay year d' 11
    · rw [month] at begins ⊢
      exact .inr ⟨rfl, by omega⟩
    · left
      by_contra back
      have least :=
        daysBeforeMonth_mono year (by omega : monthOfDay year d' 11 + 1 ≤ monthOfDay year d 11)
      omega
  · left
    by_contra back
    have least := daysBeforeYear_mono (by omega : yearOfDays n + 1 ≤ yearOfDays m)
    omega

theorem year_lt {n : Nat} (h : n < 3652059) : (ofDays n).year < 10000 := by
  by_contra late
  have least := daysBeforeYear_mono (Nat.le_of_not_lt late)
  have start : daysBeforeYear 10000 = 3652059 := rfl
  have starts := (yearOfDays_spec n).1
  simp only [ofDays] at least
  omega

theorem month_lt (n : Nat) : (ofDays n).month < 100 := by
  obtain ⟨bound, -, -⟩ := monthOfDay_spec (yearOfDays n) (n - daysBeforeYear (yearOfDays n)) 11
  exact Nat.lt_of_le_of_lt bound (by decide)

theorem monthLength_bounds (year month : Nat) :
    28 ≤ monthLength year month ∧ monthLength year month ≤ 31 := by
  unfold monthLength
  split
  · split <;> decide
  · split <;> decide

theorem le_daysBeforeMonth (year month : Nat) : 28 * month ≤ daysBeforeMonth year (month + 1) := by
  induction month with
  | zero => exact Nat.le_refl 0
  | succ month ih =>
      have next : daysBeforeMonth year (month + 1 + 1) =
          daysBeforeMonth year (month + 1) + monthLength year (month + 1) := rfl
      have long := (monthLength_bounds year (month + 1)).1
      omega

theorem day_lt (n : Nat) : (ofDays n).day < 100 := by
  obtain ⟨starts, ends⟩ := yearOfDays_spec n
  simp only [ofDays]
  generalize yearOfDays n = year at *
  have short : daysBeforeYear (year + 1) ≤ daysBeforeYear year + 367 := by
    unfold daysBeforeYear
    dsimp only
    omega
  obtain ⟨-, begins, last | before⟩ := monthOfDay_spec year (n - daysBeforeYear year) 11
  · have late := le_daysBeforeMonth year 11
    rw [last]
    omega
  · generalize monthOfDay year (n - daysBeforeYear year) 11 = month at *
    cases month with
    | zero => exact absurd before (Nat.not_lt_zero _)
    | succ month =>
        have length := (monthLength_bounds year (month + 1)).2
        have next : daysBeforeMonth year (month + 1 + 1) =
            daysBeforeMonth year (month + 1) + monthLength year (month + 1) := rfl
        omega

/-- A date whose numbers have their widths. -/
structure Fits (d : Date) : Prop where
  year : d.year < 10000
  month : d.month < 100
  day : d.day < 100

theorem ofDays_fits {n : Nat} (h : n < 3652059) : (ofDays n).Fits := ⟨year_lt h, month_lt n, day_lt n⟩

theorem chars_lt {d e : Date} {x y : List Char} (hd : d.Fits) (he : e.Fits)
    (h : d.Before e ∨ d = e ∧ x < y) :
    d.chars ++ x < e.chars ++ y := by
  simp only [chars, List.append_assoc, List.cons_append]
  apply padded_append_lt hd.year he.year
  rcases h with (year | ⟨year, month | ⟨month, day⟩⟩) | ⟨rfl, less⟩
  · exact .inl year
  · refine .inr ⟨year, List.cons_lt_cons_iff.mpr (.inr ⟨rfl, ?_⟩)⟩
    exact padded_append_lt hd.month he.month (.inl month)
  · refine .inr ⟨year, List.cons_lt_cons_iff.mpr (.inr ⟨rfl, ?_⟩)⟩
    refine padded_append_lt hd.month he.month (.inr ⟨month, List.cons_lt_cons_iff.mpr (.inr ⟨rfl, ?_⟩)⟩)
    exact padded_append_lt hd.day he.day (.inl day)
  · refine .inr ⟨rfl, List.cons_lt_cons_iff.mpr (.inr ⟨rfl, ?_⟩)⟩
    refine padded_append_lt hd.month he.month (.inr ⟨rfl, List.cons_lt_cons_iff.mpr (.inr ⟨rfl, ?_⟩)⟩)
    exact padded_append_lt hd.day he.day (.inr ⟨rfl, less⟩)

end Date

/-! ## Times of day -/

namespace TimeOfDay

/-- The numbers of a time, the hour first, are less than those of another. -/
def Before (t u : TimeOfDay) : Prop :=
  t.hour < u.hour ∨ t.hour = u.hour ∧ (t.minute < u.minute ∨ t.minute = u.minute ∧
    (t.second < u.second ∨ t.second = u.second ∧ t.micro < u.micro))

/-- A time whose numbers have their widths. -/
structure Fits (t : TimeOfDay) : Prop where
  hour : t.hour < 100
  minute : t.minute < 100
  second : t.second < 100
  micro : t.micro < 1000000

theorem timeOfMicros_before {m n : Nat} (h : m < n) :
    (Instant.timeOfMicros m).Before (Instant.timeOfMicros n) := by
  simp only [Before, Instant.timeOfMicros]
  omega

theorem timeOfMicros_fits {n : Nat} (h : n < Instant.microsPerDay) : (Instant.timeOfMicros n).Fits := by
  unfold Instant.microsPerDay at h
  constructor <;> simp only [Instant.timeOfMicros] <;> omega

/-- Of the times of one second the whole second comes first, as a plus comes before a point. -/
theorem fraction_lt {m n : Nat} (less : m < n) (fits : n < 1000000) (rest : List Char) :
    (if m = 0 then [] else '.' :: padded 6 m) ++ '+' :: rest <
      (if n = 0 then [] else '.' :: padded 6 n) ++ '+' :: rest := by
  rw [if_neg (by omega : n ≠ 0)]
  by_cases whole : m = 0
  · rw [if_pos whole]
    exact List.cons_lt_cons_iff.mpr (.inl (by decide))
  · rw [if_neg whole]
    refine List.cons_lt_cons_iff.mpr (.inr ⟨rfl, ?_⟩)
    exact padded_append_lt (by omega) fits (.inl less)

theorem chars_lt {t u : TimeOfDay} (ht : t.Fits) (hu : u.Fits) (h : t.Before u) (rest : List Char) :
    t.chars ++ '+' :: rest < u.chars ++ '+' :: rest := by
  simp only [chars, List.append_assoc, List.cons_append]
  rcases h with hour | ⟨hour, minute | ⟨minute, second | ⟨second, micro⟩⟩⟩
  · exact padded_append_lt ht.hour hu.hour (.inl hour)
  · refine padded_append_lt ht.hour hu.hour (.inr ⟨hour, List.cons_lt_cons_iff.mpr (.inr ⟨rfl, ?_⟩)⟩)
    exact padded_append_lt ht.minute hu.minute (.inl minute)
  · refine padded_append_lt ht.hour hu.hour (.inr ⟨hour, List.cons_lt_cons_iff.mpr (.inr ⟨rfl, ?_⟩)⟩)
    refine padded_append_lt ht.minute hu.minute
      (.inr ⟨minute, List.cons_lt_cons_iff.mpr (.inr ⟨rfl, ?_⟩)⟩)
    exact padded_append_lt ht.second hu.second (.inl second)
  · refine padded_append_lt ht.hour hu.hour (.inr ⟨hour, List.cons_lt_cons_iff.mpr (.inr ⟨rfl, ?_⟩)⟩)
    refine padded_append_lt ht.minute hu.minute
      (.inr ⟨minute, List.cons_lt_cons_iff.mpr (.inr ⟨rfl, ?_⟩)⟩)
    exact padded_append_lt ht.second hu.second (.inr ⟨second, fraction_lt micro hu.micro rest⟩)

end TimeOfDay

/-! ## Instants -/

namespace Instant

/-- A moment of the years 1 to 9999. -/
def InYears (i : Instant) : Prop := i.micros < 3652059 * microsPerDay

variable {i j : Instant}

/-- A moment before another one is written before it. -/
theorem text_lt (less : i.micros < j.micros) (years : j.InYears) : i.text < j.text := by
  have spelled (i : Instant) : i.text.toList = (Date.ofDays (i.micros / microsPerDay)).chars ++
      'T' :: ((timeOfMicros (i.micros % microsPerDay)).chars ++ '+' :: "00:00".toList) := by
    simp only [text, String.toList_ofList, toTimestamp, Timestamp.chars, List.append_assoc,
      List.cons_append]
    rfl
  have days {i : Instant} (years : i.InYears) : (Date.ofDays (i.micros / microsPerDay)).Fits :=
    Date.ofDays_fits (Nat.div_lt_of_lt_mul (Nat.mul_comm _ _ ▸ years))
  have times (i : Instant) : (timeOfMicros (i.micros % microsPerDay)).Fits :=
    TimeOfDay.timeOfMicros_fits (Nat.mod_lt _ (by decide))
  change i.text.toList < j.text.toList
  rw [spelled, spelled]
  apply Date.chars_lt (days (Nat.lt_trans less years)) (days years)
  by_cases day : i.micros / microsPerDay = j.micros / microsPerDay
  · right
    rw [day]
    refine ⟨rfl, List.cons_lt_cons_iff.mpr (.inr ⟨rfl, ?_⟩)⟩
    apply TimeOfDay.chars_lt (times i) (times j)
    apply TimeOfDay.timeOfMicros_before
    have first := Nat.div_add_mod i.micros microsPerDay
    have second := Nat.div_add_mod j.micros microsPerDay
    rw [day] at first
    omega
  · left
    apply Date.ofDays_before
    exact Nat.lt_of_le_of_ne (Nat.div_le_div_right (Nat.le_of_lt less)) day

/-- The stored forms of instants are in the order of the instants. -/
theorem text_lt_iff (hi : i.InYears) (hj : j.InYears) : i.text < j.text ↔ i.micros < j.micros := by
  constructor
  · intro less
    by_contra later
    rcases Nat.lt_or_eq_of_le (Nat.le_of_not_lt later) with more | same
    · exact String.lt_irrefl _ (String.lt_trans less (text_lt more hi))
    · obtain rfl : j = i := congrArg Instant.mk same
      exact String.lt_irrefl _ less
  · intro less
    exact text_lt less hj

theorem text_le_iff (hi : i.InYears) (hj : j.InYears) : i.text ≤ j.text ↔ i.micros ≤ j.micros := by
  rw [← String.not_lt, text_lt_iff hj hi, Nat.not_lt]

theorem eq_of_text_eq (hi : i.InYears) (hj : j.InYears) (h : i.text = j.text) : i.micros = j.micros := by
  have le := (text_le_iff hi hj).mp (h ▸ String.le_refl i.text)
  have ge := (text_le_iff hj hi).mp (h ▸ String.le_refl i.text)
  exact Nat.le_antisymm le ge

/-- A whole second is written before a part of it, though the sign comes where the point does. -/
example : (Instant.mk 5000000).text < (Instant.mk 5000001).text := by decide +kernel

end Instant
end Splice
