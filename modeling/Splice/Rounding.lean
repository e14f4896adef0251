/-! # Rounding a quotient

`roundDiv` gives the whole number nearest to a quotient, a half going to the even neighbour.
Every rounding of the library, binary or decimal, is this one.
-/

namespace Splice

/-- The whole number nearest to `num / den`; of two equally near ones the even one. -/
def roundDiv (num den : Nat) : Nat :=
  let quotient := num / den
  let rest := num % den
  if 2 * rest < den then quotient
  else if den < 2 * rest then quotient + 1
  else quotient + quotient % 2

/-- Rounding moves a quotient up by at most one. -/
theorem roundDiv_le_succ (num den : Nat) : roundDiv num den ≤ num / den + 1 := by
  unfold roundDiv
  dsimp only
  split
  · omega
  · split <;> omega

/-- Rounding never moves a quotient below its whole part. -/
theorem div_le_roundDiv (num den : Nat) : num / den ≤ roundDiv num den := by
  unfold roundDiv
  dsimp only
  split
  · omega
  · split <;> omega

/-- `roundDiv` for a signed numerator: the magnitude is rounded and the sign kept. -/
def roundDivInt (num : Int) (den : Nat) : Int :=
  if num < 0 then -(roundDiv num.natAbs den : Int) else roundDiv num.natAbs den

end Splice
