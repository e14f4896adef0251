import Splice.Rounding

/-! # Binary64 numbers

A finite number is a sign and a count of units, the unit being the least positive number
`2 ^ -1074`. Sums, products and quotients are taken exactly on unit counts and rounded once, so
that each operation is its exact result correctly rounded.
-/

namespace Splice

namespace Binary64

def unitsPerOne : Nat := Nat.pow 2 1074

/-- The first unit count past the finite numbers. -/
def unitLimit : Nat := Nat.pow 2 2098

/-- A unit count with at most 53 significant bits, below the limit. -/
def Fits (units : Nat) : Prop :=
  units < unitLimit ∧ units % Nat.pow 2 (units.log2 - 52) = 0

instance (units : Nat) : Decidable (Fits units) := by
  unfold Fits; infer_instance

theorem unitLimit_pos : 0 < unitLimit := by
  unfold unitLimit
  generalize 2098 = n
  exact Nat.two_pow_pos n

theorem fits_zero : Fits 0 := ⟨unitLimit_pos, Nat.zero_mod _⟩

end Binary64

/-- A binary64 number: not a number, an infinity, or a signed count of units. -/
inductive Binary64 where
  | nan
  /-- An infinity; the flag is its sign. -/
  | infinite (negative : Bool)
  | finite (negative : Bool) (units : Nat) (fits : Binary64.Fits units)
  deriving DecidableEq

namespace Binary64

/-- The unit count nearest to `num / den` that has at most 53 significant bits. -/
def roundUnits (num den : Nat) : Nat :=
  let shift := (num / den).log2 - 52
  roundDiv num (den * Nat.pow 2 shift) * Nat.pow 2 shift

/-- A signed quotient of unit counts, rounded; beyond the largest number it is infinite. -/
def round (negative : Bool) (num den : Nat) : Binary64 :=
  if h : Fits (roundUnits num den) then .finite negative (roundUnits num den) h
  else .infinite negative

def zero : Binary64 := .finite false 0 fits_zero

instance : Inhabited Binary64 := ⟨zero⟩

def signedUnits (negative : Bool) (units : Nat) : Int :=
  if negative then -(units : Int) else units

def ofRatio (negative : Bool) (num den : Nat) : Binary64 :=
  round negative (num * unitsPerOne) den

def ofInt (n : Int) : Binary64 :=
  ofRatio (decide (n < 0)) n.natAbs 1

/-- The number nearest to `digits · 10 ^ exponent`. -/
def ofDecimal (negative : Bool) (digits : Nat) (exponent : Int) : Binary64 :=
  if exponent < 0 then ofRatio negative digits (Nat.pow 10 exponent.natAbs)
  else ofRatio negative (digits * Nat.pow 10 exponent.natAbs) 1

instance (n : Nat) : OfNat Binary64 n := ⟨ofInt n⟩

instance : OfScientific Binary64 where
  ofScientific digits negativeExponent exponent :=
    ofDecimal false digits (if negativeExponent then -(exponent : Int) else exponent)

def neg : Binary64 → Binary64
  | .nan => .nan
  | .infinite s => .infinite (!s)
  | .finite s m h => .finite (!s) m h

instance : Neg Binary64 := ⟨neg⟩

/-- The sum. A sum of zero is positive unless both terms are negative. -/
def add : Binary64 → Binary64 → Binary64
  | .nan, _ => .nan
  | _, .nan => .nan
  | .infinite s, .infinite t => if s = t then .infinite s else .nan
  | .infinite s, .finite .. => .infinite s
  | .finite .., .infinite t => .infinite t
  | .finite s m _, .finite t n _ =>
    let total := signedUnits s m + signedUnits t n
    if total = 0 then .finite (s && t) 0 fits_zero
    else round (decide (total < 0)) total.natAbs 1

instance : Add Binary64 := ⟨add⟩
instance : Sub Binary64 := ⟨fun a b => a + -b⟩

def mul : Binary64 → Binary64 → Binary64
  | .nan, _ => .nan
  | _, .nan => .nan
  | .infinite s, .infinite t => .infinite (s != t)
  | .infinite s, .finite t n _ => if n = 0 then .nan else .infinite (s != t)
  | .finite s m _, .infinite t => if m = 0 then .nan else .infinite (s != t)
  | .finite s m _, .finite t n _ => round (s != t) (m * n) unitsPerOne

instance : Mul Binary64 := ⟨mul⟩

/-- The quotient. A nonzero number over zero is infinite. -/
def div : Binary64 → Binary64 → Binary64
  | .nan, _ => .nan
  | _, .nan => .nan
  | .infinite _, .infinite _ => .nan
  | .infinite s, .finite t _ _ => .infinite (s != t)
  | .finite s _ _, .infinite t => .finite (s != t) 0 fits_zero
  | .finite s m _, .finite t n _ =>
    if n = 0 then if m = 0 then .nan else .infinite (s != t)
    else round (s != t) (m * unitsPerOne) n

instance : Div Binary64 := ⟨div⟩

/-- `a < b`; false as soon as one side is not a number. The two zeros are equal. -/
def lt : Binary64 → Binary64 → Bool
  | .nan, _ => false
  | _, .nan => false
  | .infinite s, .infinite t => s && !t
  | .infinite s, .finite .. => s
  | .finite .., .infinite t => !t
  | .finite s m _, .finite t n _ => decide (signedUnits s m < signedUnits t n)

/-- `a ≤ b`; false as soon as one side is not a number. -/
def le : Binary64 → Binary64 → Bool
  | .nan, _ => false
  | _, .nan => false
  | .infinite s, .infinite t => s || !t
  | .infinite s, .finite .. => s
  | .finite .., .infinite t => !t
  | .finite s m _, .finite t n _ => decide (signedUnits s m ≤ signedUnits t n)

instance : LT Binary64 := ⟨fun a b => lt a b = true⟩
instance : LE Binary64 := ⟨fun a b => le a b = true⟩
instance (a b : Binary64) : Decidable (a < b) := inferInstanceAs (Decidable (lt a b = true))
instance (a b : Binary64) : Decidable (a ≤ b) := inferInstanceAs (Decidable (le a b = true))

/-- The first number unless the second is smaller. -/
def min (a b : Binary64) : Binary64 := if b < a then b else a

/-- The first number unless the second is larger. -/
def max (a b : Binary64) : Binary64 := if a < b then b else a

def isFinite : Binary64 → Bool
  | .finite .. => true
  | _ => false

/-- A number that counts as absent: either zero. -/
def isZero : Binary64 → Bool
  | .finite _ 0 _ => true
  | _ => false

inductive WholeError where
  | ofNaN
  | ofInfinity
  deriving DecidableEq, Repr

def WholeError.message : WholeError → String
  | .ofNaN => "cannot convert float NaN to integer"
  | .ofInfinity => "cannot convert float infinity to integer"

/-- Apply a rounding of unit counts to a finite number. -/
def toWhole (rounding : Int → Int) : Binary64 → Except WholeError Int
  | .nan => .error .ofNaN
  | .infinite _ => .error .ofInfinity
  | .finite s m _ => .ok (rounding (signedUnits s m))

/-- The greatest whole number that is not above. -/
def floor : Binary64 → Except WholeError Int :=
  toWhole (Int.fdiv · unitsPerOne)

/-- The nearest whole number, a half going to the even neighbour. -/
def nearest : Binary64 → Except WholeError Int :=
  toWhole (roundDivInt · unitsPerOne)

/-- The whole part, toward zero. -/
def truncate : Binary64 → Except WholeError Int :=
  toWhole (Int.tdiv · unitsPerOne)

@[simp] theorem min_eq (a b : Binary64) : min a b = if b < a then b else a := rfl
@[simp] theorem max_eq (a b : Binary64) : max a b = if a < b then b else a := rfl

end Binary64
end Splice
