import Splice.Binary64.Basic
import Splice.Text.Blank
import Splice.Text.Digit

/-! # Numbers written as text

A numeral may have blanks around it, a sign, and digits of any script with single underscores
between them. `number?` reads decimals, exponents, infinity and not-a-number; `whole?` reads whole
numbers only, and `wholeIn?` those in another base.
-/

namespace Splice.Text

/-- Blanks that may surround a numeral: the four separator controls are not among them. -/
def isNumeralBlank (c : Char) : Bool :=
  isBlank c && !(decide (0x1C ≤ c.toNat) && decide (c.toNat ≤ 0x1F))

/-- Drop the underscores of a text. Each must stand between two digits. -/
def joinDigits? (afterDigit : Bool) : List Char → Option (List Char)
  | [] => some []
  | c :: rest =>
    if c = '_' then
      if afterDigit && rest.head?.any isDigit then joinDigits? false rest else none
    else (joinDigits? (isDigit c) rest).map (c :: ·)

/-- Split a sign off; `true` for a minus. -/
def splitSign : List Char → Bool × List Char
  | '-' :: rest => (true, rest)
  | '+' :: rest => (false, rest)
  | cs => (false, cs)

/-- The leading digits as values, and what follows them. -/
def splitDigits (cs : List Char) : List Nat × List Char :=
  ((cs.takeWhile isDigit).filterMap digitValue?, cs.dropWhile isDigit)

/-- The exponent that a text consists of: nothing, or `e`, a sign and digits. -/
def exponent? : List Char → Option Int
  | [] => some 0
  | c :: rest =>
    if c = 'e' ∨ c = 'E' then
      let (negative, body) := splitSign rest
      match splitDigits body with
      | (d :: ds, []) =>
        let n := digitsValue (d :: ds)
        some (if negative then -(n : Int) else n)
      | _ => none
    else none

/-- An exponent so far out that only its sign matters beside `digits` digits is drawn in, which keeps
the powers of ten small. -/
def boundExponent (digits : Nat) (e : Int) : Int :=
  let bound : Int := 400 + digits
  if e < -bound then -bound else if bound < e then bound else e

/-- The decimal that a text without sign and underscores consists of. -/
def decimal? (negative : Bool) (cs : List Char) : Option Binary64 :=
  let (whole, afterWhole) := splitDigits cs
  let (fraction, tail) := match afterWhole with
    | '.' :: rest => splitDigits rest
    | rest => ([], rest)
  if whole.isEmpty && fraction.isEmpty then none
  else
    (exponent? tail).map fun e =>
      let digits := whole ++ fraction
      Binary64.ofDecimal negative (digitsValue digits)
        (boundExponent digits.length e - fraction.length)

def number? (s : String) : Option Binary64 := do
  let cs ← joinDigits? false (trimList isNumeralBlank s.toList)
  let (negative, body) := splitSign cs
  let small := body.map Char.toLower
  if small = ['i', 'n', 'f'] ∨ small = ['i', 'n', 'f', 'i', 'n', 'i', 't', 'y'] then
    some (.infinite negative)
  else if small = ['n', 'a', 'n'] then some .nan
  else decimal? negative body

def wholeDigitLimit : Nat := 4300

def whole? (s : String) : Option Int := do
  let cs ← joinDigits? false (trimList isNumeralBlank s.toList)
  let (negative, body) := splitSign cs
  match splitDigits body with
  | (d :: ds, []) =>
    if (d :: ds).length ≤ wholeDigitLimit then
      let n := digitsValue (d :: ds)
      some (if negative then -(n : Int) else n)
    else none
  | _ => none

/-- How many digits the whole number has that a text begins with. -/
def wholeDigitCount (s : String) : Nat :=
  ((splitSign (trimList isNumeralBlank s.toList)).2.takeWhile isDigit).length

/-- The digit of a base up to 16: a decimal digit of any script or a letter. -/
def baseDigit? (base : Nat) (c : Char) : Option Nat :=
  let n := c.toNat
  let value :=
    if 97 ≤ n ∧ n ≤ 102 then some (n - 87)
    else if 65 ≤ n ∧ n ≤ 70 then some (n - 55)
    else digitValue? c
  value.filter (· < base)

/-- The letter that may stand between a zero and the digits of a base. -/
def isBaseLetter (base : Nat) (c : Char) : Bool :=
  let small := c.toLower
  (base == 2 && small == 'b') || (base == 8 && small == 'o') || (base == 16 && small == 'x')

/-- Digits without the zero and the letter of their base. -/
def withoutBase (base : Nat) : List Char → List Char
  | z :: c :: rest =>
    if digitValue? z = some 0 && isBaseLetter base c then rest else z :: c :: rest
  | cs => cs

/-- The whole number of a base that a text without underscores denotes, if it denotes one. -/
def wholeIn? (base : Nat) (s : String) : Option Int := do
  let (negative, body) := splitSign (trimList isNumeralBlank s.toList)
  let digits := withoutBase base body
  if digits.isEmpty then none
  else
    let ds ← digits.mapM (baseDigit? base)
    let n := ds.foldl (fun n d => base * n + d) 0
    some (if negative then -(n : Int) else n)

end Splice.Text
