import Splice.Color.Named
import Splice.Text.LowerCase
import Splice.Text.Numeral
import Splice.Value.Printer

/-! # Colours

A colour is written as a name, as hexadecimal digits after `#`, or as a function of numbers. The
components of the function forms are not clamped. `Color.engineText` is the form that the engine
reads.
-/

namespace Splice

/-- Red, green, blue and, where it is given, opacity; each is meant to lie between 0 and 255. -/
structure Color where
  red : Int
  green : Int
  blue : Int
  alpha : Option Int
  deriving DecidableEq, Repr

namespace Color

inductive ReadError where
  | notText (value : Value)
  /-- The value is not text, and it holds a whole number too long to be written. -/
  | unwritable
  /-- The text has none of the known forms. -/
  | unknown (text : String)

def ReadError.message : ReadError → String
  | .notText v => "Unknown color: " ++ v.literal
  | .unwritable => Value.unwritableMessage
  | .unknown s => "Unknown color: '" ++ s ++ "'"

/-- The three bytes of a number, the first one in front. -/
def ofNumber (n : Nat) : Color :=
  ⟨(n / 0x10000 : Nat), (n / 0x100 % 0x100 : Nat), (n % 0x100 : Nat), none⟩

def hexDigit? (c : Char) : Option Nat :=
  let n := c.toNat
  if 48 ≤ n ∧ n ≤ 57 then some (n - 48)
  else if 97 ≤ n ∧ n ≤ 102 then some (n - 87)
  else none

/-- The colour of hexadecimal digits: one or two for each of three or four components. -/
def ofHexDigits? : List Nat → Option Color
  | [r, g, b] => some ⟨(17 * r : Nat), (17 * g : Nat), (17 * b : Nat), none⟩
  | [r, g, b, a] => some ⟨(17 * r : Nat), (17 * g : Nat), (17 * b : Nat), some (17 * a : Nat)⟩
  | [r, r', g, g', b, b'] =>
    some ⟨(16 * r + r' : Nat), (16 * g + g' : Nat), (16 * b + b' : Nat), none⟩
  | [r, r', g, g', b, b', a, a'] =>
    some ⟨(16 * r + r' : Nat), (16 * g + g' : Nat), (16 * b + b' : Nat), some (16 * a + a' : Nat)⟩
  | _ => none

def hex? (cs : List Char) : Option Color := (cs.mapM hexDigit?).bind ofHexDigits?

/-- A component of a function form: the digits before and after its point. -/
structure Component where
  whole : List Nat
  fraction : List Nat

def Component.toNat (c : Component) : Nat := Text.digitsValue c.whole

def Component.toBinary64 (c : Component) : Binary64 :=
  .ofDecimal false (Text.digitsValue (c.whole ++ c.fraction)) (-(c.fraction.length : Int))

/-- What a component may look like. -/
structure ComponentForm where
  fractional : Bool
  percent : Bool

/-- The digits after a point, for a form that may have them, and what follows. -/
def ComponentForm.splitFraction (form : ComponentForm) (cs : List Char) : List Nat × List Char :=
  match form.fractional, cs with
  | true, '.' :: rest => Text.splitDigits rest
  | _, rest => ([], rest)

/-- What follows the percent sign of a form that has one. -/
def ComponentForm.afterSign? (form : ComponentForm) (cs : List Char) : Option (List Char) :=
  match form.percent, cs with
  | true, '%' :: rest => some rest
  | true, _ => none
  | false, rest => some rest

def component? (form : ComponentForm) (cs : List Char) : Option (Component × List Char) :=
  let (whole, rest) := Text.splitDigits (cs.dropWhile Text.isBlank)
  let (fraction, rest) := form.splitFraction rest
  if whole.isEmpty then none
  else (form.afterSign? rest).map fun rest => (⟨whole, fraction⟩, rest.dropWhile Text.isBlank)

/-- Read the components of the given forms, with commas between them and a closing parenthesis at the
end of the text. -/
def components? : List ComponentForm → List Char → Option (List Component)
  | [], _ => none
  | [form], cs =>
    match component? form cs with
    | some (c, [')']) => some [c]
    | _ => none
  | form :: forms, cs =>
    match component? form cs with
    | some (c, ',' :: rest) => (components? forms rest).map (c :: ·)
    | _ => none

def afterStart? : List Char → List Char → Option (List Char)
  | [], cs => some cs
  | _ :: _, [] => none
  | p :: ps, c :: cs => if p = c then afterStart? ps cs else none

def function? (name : String) (forms : List ComponentForm) (cs : List Char) :
    Option (List Component) :=
  (afterStart? (name.toList ++ ['(']) cs).bind (components? forms)

def wholeForm : ComponentForm := ⟨false, false⟩
def percentForm : ComponentForm := ⟨false, true⟩
def angleForms : List ComponentForm := [⟨true, false⟩, ⟨true, true⟩, ⟨true, true⟩]

def wholePart (x : Binary64) : Int :=
  match x.truncate with
  | .ok n => n
  | .error _ => 0

def ofShare (x : Binary64) : Int := wholePart (x * 255 + 0.5)

def ofPercent (n : Nat) : Int := wholePart (.ofInt (n * 255 : Nat) / 100 + 0.5)

/-- The part of a finite number after its whole turns, from 0 to 1. -/
def turn : Binary64 → Binary64
  | .finite s m _ =>
    let rest := Binary64.round s (m % Binary64.unitsPerOne) 1
    if m % Binary64.unitsPerOne = 0 then 0 else if s then rest + 1 else rest
  | _ => .nan

def third : Binary64 := 1 / 3
def sixth : Binary64 := 1 / 6
def twoThirds : Binary64 := 2 / 3

/-- The share of one component between the levels `low` and `high` at a hue. -/
def hueShare (low high hue : Binary64) : Binary64 :=
  let h := turn hue
  if h < sixth then low + (high - low) * h * 6
  else if h < 0.5 then high
  else if h < twoThirds then low + (high - low) * (twoThirds - h) * 6
  else low

/-- Red, green and blue shares of hue, lightness and saturation. -/
def ofHueLightness (h l s : Binary64) : Binary64 × Binary64 × Binary64 :=
  if s.isZero then (l, l, l)
  else
    let high := if l ≤ 0.5 then l * (1 + s) else l + s - l * s
    let low := 2 * l - high
    (hueShare low high (h + third), hueShare low high h, hueShare low high (h - third))

/-- Red, green and blue shares of hue, saturation and value. -/
def ofHueValue (h s v : Binary64) : Binary64 × Binary64 × Binary64 :=
  if s.isZero then (v, v, v)
  else
    let sector := wholePart (h * 6)
    let f := h * 6 - .ofInt sector
    let p := v * (1 - s)
    let q := v * (1 - s * f)
    let t := v * (1 - s * (1 - f))
    match sector % 6 with
    | 0 => (v, t, p)
    | 1 => (q, v, p)
    | 2 => (p, v, t)
    | 3 => (p, q, v)
    | 4 => (t, p, v)
    | _ => (v, p, q)

def ofShares (x : Binary64 × Binary64 × Binary64) : Color :=
  ⟨ofShare x.1, ofShare x.2.1, ofShare x.2.2, none⟩

def rgb? (cs : List Char) : Option Color :=
  match function? "rgb" [wholeForm, wholeForm, wholeForm] cs with
  | some [r, g, b] => some ⟨r.toNat, g.toNat, b.toNat, none⟩
  | _ => none

def rgbPercent? (cs : List Char) : Option Color :=
  match function? "rgb" [percentForm, percentForm, percentForm] cs with
  | some [r, g, b] => some ⟨ofPercent r.toNat, ofPercent g.toNat, ofPercent b.toNat, none⟩
  | _ => none

/-- `hsl`: hue in degrees, saturation and lightness in percent. -/
def hsl? (cs : List Char) : Option Color :=
  match function? "hsl" angleForms cs with
  | some [h, s, l] =>
    some (ofShares (ofHueLightness (h.toBinary64 / 360) (l.toBinary64 / 100) (s.toBinary64 / 100)))
  | _ => none

/-- `hsv`, also written `hsb`: hue in degrees, saturation and value in percent. -/
def hsv? (cs : List Char) : Option Color :=
  match (function? "hsv" angleForms cs).or (function? "hsb" angleForms cs) with
  | some [h, s, v] =>
    some (ofShares (ofHueValue (h.toBinary64 / 360) (s.toBinary64 / 100) (v.toBinary64 / 100)))
  | _ => none

def rgba? (cs : List Char) : Option Color :=
  match function? "rgba" [wholeForm, wholeForm, wholeForm, wholeForm] cs with
  | some [r, g, b, a] => some ⟨r.toNat, g.toNat, b.toNat, some a.toNat⟩
  | _ => none

/-- The colour of a lower-case text without surrounding blanks. -/
def ofLower? (s : String) : Option Color :=
  match names.lookup s with
  | some n => some (ofNumber n)
  | none =>
    match s.toList with
    | '#' :: digits => hex? digits
    | cs => (rgb? cs).or ((rgbPercent? cs).or ((hsl? cs).or ((hsv? cs).or (rgba? cs))))

def textLimit : Nat := 100

/-- The colour that a text denotes, in any case and with blanks around it. -/
def ofText (s : String) : Except ReadError Color :=
  if Text.isBlankText s then .error (.notText (.text s))
  else
    let bare := Text.trim s
    if textLimit < bare.length then .error (.unknown s)
    else
      match ofLower? (Text.lower bare) with
      | some c => .ok c
      | none => .error (.unknown s)

def ofValue : Value → Except ReadError Color
  | .text s => ofText s
  | v => .error (if v.isWritable then .notText v else .unwritable)

/-- A component in upper-case hexadecimal digits, at least two characters. -/
def hexComponent (n : Int) : String :=
  let digits := (Nat.toDigits 16 n.natAbs).map Char.toUpper
  let sign := if n < 0 then ['-'] else []
  String.ofList (sign ++ List.replicate (2 - sign.length - digits.length) '0' ++ digits)

/-- The colour as the engine reads it: hexadecimal, with the opacity unless it is full. -/
def engineText (c : Color) : String :=
  let base := "0x" ++ hexComponent c.red ++ hexComponent c.green ++ hexComponent c.blue
  match c.alpha with
  | none => base
  | some a =>
    if a = 255 then base
    else base ++ "@" ++ (Binary64.ofRatio (decide (a < 0)) a.natAbs 255).fixed 2

end Color
end Splice
