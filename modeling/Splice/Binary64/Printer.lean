import Splice.Binary64.Basic

/-! # Decimal texts of numbers

A number is written with a fixed count of places, with a given count of significant digits, or with
the fewest digits that read back. The exact unit count is rounded each time, a half to the even
digit, so a text never depends on another text.
-/

namespace Splice.Binary64

def wholeDigits (n : Nat) : List Char := Nat.toDigits 10 n

/-- `count · 10 ^ -places` with all its places. -/
def placesText (places count : Nat) : List Char :=
  if places = 0 then wholeDigits count
  else
    let fraction := wholeDigits (count % Nat.pow 10 places)
    wholeDigits (count / Nat.pow 10 places) ++
      '.' :: (List.replicate (places - fraction.length) '0' ++ fraction)

def signText (negative : Bool) : List Char := if negative then ['-'] else []

def fixedChars (places : Nat) : Binary64 → List Char
  | .nan => ['n', 'a', 'n']
  | .infinite s => signText s ++ ['i', 'n', 'f']
  | .finite s m _ => signText s ++ placesText places (roundDiv (m * Nat.pow 10 places) unitsPerOne)

def fixed (places : Nat) (x : Binary64) : String := String.ofList (fixedChars places x)

/-- A positive decimal: its significant digits, and the power of ten of the first one. -/
structure Scientific where
  digits : Nat
  exponent : Int
  deriving Repr, DecidableEq

/-- The power of ten of the first significant digit of `num / den`, both positive. -/
def decimalExponent (num den : Nat) : Int :=
  if den ≤ num then (wholeDigits (num / den)).length - 1
  else -((wholeDigits ((den + num - 1) / num - 1)).length : Int)

/-- The fraction `num / den` in steps of `10 ^ step`, as a numerator and a denominator. -/
def inSteps (num den : Nat) (step : Int) : Nat × Nat :=
  if step < 0 then (num * Nat.pow 10 step.natAbs, den) else (num, den * Nat.pow 10 step.natAbs)

/-- The fraction `num / den` rounded to `count` significant digits. -/
def significant (count num den : Nat) : Scientific :=
  let exponent := decimalExponent num den
  let scaled := inSteps num den (exponent - count + 1)
  let digits := roundDiv scaled.1 scaled.2
  if digits = Nat.pow 10 count then ⟨Nat.pow 10 (count - 1), exponent + 1⟩ else ⟨digits, exponent⟩

/-- Whether `digits · 10 ^ step` reads back as the number of `units` units. -/
def readsBack (units digits : Nat) (step : Int) : Bool :=
  match ofDecimal false digits step with
  | .finite _ m _ => m == units
  | _ => false

/-- The number of `units` units on the grid of `count` significant digits, if a point of the grid
reads back. Of two such points the nearer one is taken, of two equally near ones the even one. -/
def onGrid? (units count : Nat) : Option Scientific :=
  let exponent := decimalExponent units unitsPerOne
  let step := exponent - count + 1
  let scaled := inSteps units unitsPerOne step
  let near := roundDiv scaled.1 scaled.2
  let below := scaled.1 / scaled.2
  let far := if near = below then below + 1 else below
  let point (digits : Nat) : Scientific :=
    if digits = Nat.pow 10 count then ⟨Nat.pow 10 (count - 1), exponent + 1⟩ else ⟨digits, exponent⟩
  if readsBack units near step then some (point near)
  else if readsBack units far step then some (point far)
  else none

/-- The decimal with the fewest significant digits that reads back, seventeen at most. -/
def shortest (units : Nat) : Scientific :=
  ((List.range 16).findSome? fun i => onGrid? units (i + 1)).getD
    (significant 17 units unitsPerOne)

/-- How a decimal is laid out. -/
structure DecimalStyle where
  /-- The least power of ten of a first digit that is written without an exponent. -/
  positionalFrom : Int
  /-- The first power of ten that is written with an exponent again. -/
  positionalBelow : Int
  /-- Whether a whole number without an exponent ends in `.0`. -/
  pointInWhole : Bool
  /-- Whether a single digit before an exponent is followed by `.0`. -/
  pointBeforeExponent : Bool

/-- The shortest form: positional from `10 ^ -4` to `10 ^ 16`, whole numbers with `.0`. -/
def shortestStyle : DecimalStyle := ⟨-4, 16, true, false⟩

/-- Six significant digits: positional from `10 ^ -4` to `10 ^ 6`, no point in whole numbers. -/
def generalStyle : DecimalStyle := ⟨-4, 6, false, false⟩

/-- Fifteen significant digits, always with a point. -/
def columnStyle : DecimalStyle := ⟨-4, 15, true, true⟩

/-- Digits without trailing zeros; the first digit always stays. -/
def dropTrailingZeros (cs : List Char) : List Char :=
  match (cs.reverse.dropWhile (· == '0')).reverse with
  | [] => ['0']
  | kept => kept

/-- An exponent with its sign and at least two digits. -/
def exponentText (e : Int) : List Char :=
  let digits := wholeDigits e.natAbs
  (if e < 0 then '-' else '+') :: (List.replicate (2 - digits.length) '0' ++ digits)

/-- Lay out the digits of a decimal whose first digit has the given power of ten. -/
def layout (style : DecimalStyle) (digits : List Char) (exponent : Int) : List Char :=
  if style.positionalFrom ≤ exponent ∧ exponent < style.positionalBelow then
    if exponent < 0 then
      '0' :: '.' :: (List.replicate (exponent.natAbs - 1) '0' ++ digits)
    else
      let whole := exponent.toNat + 1
      if digits.length ≤ whole then
        digits ++ List.replicate (whole - digits.length) '0' ++
          if style.pointInWhole then ['.', '0'] else []
      else digits.take whole ++ '.' :: digits.drop whole
  else
    let head := digits.take 1
    let tail := digits.drop 1
    let point := if tail.isEmpty then if style.pointBeforeExponent then ['.', '0'] else []
      else '.' :: tail
    head ++ point ++ 'e' :: exponentText exponent

/-- Write a number in a style, its digits chosen by `choose`. -/
def styled (style : DecimalStyle) (choose : Nat → Scientific) : Binary64 → List Char
  | .nan => ['n', 'a', 'n']
  | .infinite s => signText s ++ ['i', 'n', 'f']
  | .finite s m _ =>
    let decimal := if m = 0 then ⟨0, 0⟩ else choose m
    signText s ++ layout style (dropTrailingZeros (wholeDigits decimal.digits)) decimal.exponent

def text (x : Binary64) : String := String.ofList (styled shortestStyle shortest x)

def generalText (x : Binary64) : String :=
  String.ofList (styled generalStyle (significant 6 · unitsPerOne) x)

/-- The number to fifteen significant digits, as a text column keeps it. Zero has no sign there. -/
def columnText (x : Binary64) : String :=
  match x with
  | .infinite s => if s then "-Inf" else "Inf"
  | .finite _ 0 _ => "0.0"
  | x => String.ofList (styled columnStyle (significant 15 · unitsPerOne) x)

end Splice.Binary64
