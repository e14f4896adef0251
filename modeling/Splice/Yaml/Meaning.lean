import Splice.Text.Base64
import Splice.Text.LowerCase
import Splice.Text.Numeral
import Splice.Value.Basic
import Splice.Yaml.Error

/-! # What a scalar means

The text of a plain scalar decides whether it is null, a truth value, a number, a date or just text;
a tag may decide instead. `Tag.ofText` finds the kind and `Tag.read` the value.
-/

namespace Splice.Yaml

inductive Tag where
  | null
  | bool
  | int
  | float
  | timestamp
  | text
  /-- Bytes in Base64. -/
  | binary
  | sequence
  /-- A list of pairs, each written as a mapping of one entry. -/
  | pairs
  | set
  | mapping
  /-- The key under which another mapping is taken over. -/
  | merge
  | default
  | unknown
  deriving DecidableEq, Repr

def isAsciiDigit (c : Char) : Bool := decide ('0' ≤ c) && decide (c ≤ '9')

def isDigitOrUnderscore (c : Char) : Bool := isAsciiDigit c || c == '_'

/-- The rest of a text after one or more groups of a colon and a number below 60. -/
def afterSixties? (seen : Bool) : List Char → Option (List Char)
  | ':' :: a :: b :: rest =>
    if '0' ≤ a ∧ a ≤ '5' ∧ isAsciiDigit b then afterSixties? true rest
    else if isAsciiDigit a then afterSixties? true (b :: rest)
    else if seen then some (':' :: a :: b :: rest) else none
  | [':', a] => if isAsciiDigit a then some [] else if seen then some [':', a] else none
  | rest => if seen then some rest else none

def isExponent : List Char → Bool
  | [] => true
  | e :: s :: d :: ds =>
    (e == 'e' || e == 'E') && (s == '+' || s == '-') && (d :: ds).all isAsciiDigit
  | _ => false

/-- A text without the sign in front. -/
def unsigned : List Char → List Char
  | '+' :: rest => rest
  | '-' :: rest => rest
  | cs => cs

/-- Whether a text has the form of a number with a point. -/
def isFloat (cs : List Char) : Bool :=
  let bare := unsigned cs
  let afterDigits := bare.dropWhile isDigitOrUnderscore
  let plain := bare.head?.any isAsciiDigit && match afterDigits with
    | '.' :: rest => isExponent (rest.dropWhile isDigitOrUnderscore)
    | _ => false
  let sixties := bare.head?.any isAsciiDigit && match afterSixties? false afterDigits with
    | some ('.' :: rest) => rest.all isDigitOrUnderscore
    | _ => false
  let fraction := match cs with
    | '.' :: d :: rest => isAsciiDigit d && isExponent (rest.dropWhile isDigitOrUnderscore)
    | _ => false
  plain || sixties || fraction || [".inf", ".Inf", ".INF"].contains (String.ofList bare) ||
    [".nan", ".NaN", ".NAN"].contains (String.ofList cs)

/-- Whether a text has the form of a whole number: binary, octal, decimal, hexadecimal or in
sixties. -/
def isInt (cs : List Char) : Bool :=
  match unsigned cs with
  | '0' :: 'b' :: d :: ds => (d :: ds).all fun c => c == '0' || c == '1' || c == '_'
  | '0' :: 'x' :: d :: ds =>
    (d :: ds).all fun c => isDigitOrUnderscore c || (decide ('a' ≤ c) && decide (c ≤ 'f')) ||
      (decide ('A' ≤ c) && decide (c ≤ 'F'))
  | '0' :: rest => rest.all fun c => (decide ('0' ≤ c) && decide (c ≤ '7')) || c == '_'
  | d :: rest =>
    isAsciiDigit d && match rest.dropWhile isDigitOrUnderscore with
      | [] => true
      | more => afterSixties? false more == some []
  | [] => false

/-- The numbers of the parts of a date and time. -/
structure TimestampParts where
  year : Nat
  month : Nat
  day : Nat
  time : Option (Nat × Nat × Nat × List Char)
  offset : Option Int

def digitsNumber (cs : List Char) : Nat :=
  cs.foldl (fun n c => 10 * n + (c.toNat - '0'.toNat)) 0

/-- Split off at least `least` and at most `most` digits. -/
def someDigits? (least most : Nat) (cs : List Char) : Option (List Char × List Char) :=
  let ds := (cs.take most).takeWhile isAsciiDigit
  if ds.length < least then none else some (ds, cs.drop ds.length)

def after? (ch : Char) : List Char → Option (List Char)
  | [] => none
  | c :: rest => if c = ch then some rest else none

/-- A distance to universal time in minutes, or nothing. -/
def offset? (cs : List Char) : Option (Option Int) :=
  match cs.dropWhile fun c => c == ' ' || c == '\t' with
  | [] => if cs.isEmpty then some none else none
  | ['Z'] => some (some 0)
  | sign :: rest =>
    if sign = '+' ∨ sign = '-' then do
      let (hours, rest) ← someDigits? 1 2 rest
      let minutes ← match rest with
        | [] => some ['0']
        | ':' :: rest => do
          let (minutes, rest) ← someDigits? 2 2 rest
          if rest.isEmpty then some minutes else none
        | _ => none
      let n : Int := (60 * digitsNumber hours + digitsNumber minutes : Nat)
      some (some (if sign = '-' then -n else n))
    else none

/-- The time of day at the start of a text, its fraction as digits, and what follows. -/
def time? (cs : List Char) : Option ((Nat × Nat × Nat × List Char) × List Char) := do
  let (hour, rest) ← someDigits? 1 2 cs
  let rest ← after? ':' rest
  let (minute, rest) ← someDigits? 2 2 rest
  let rest ← after? ':' rest
  let (second, rest) ← someDigits? 2 2 rest
  let time (fraction : List Char) :=
    (digitsNumber hour, digitsNumber minute, digitsNumber second, fraction)
  match rest with
  | '.' :: rest => some (time (rest.takeWhile isAsciiDigit), rest.dropWhile isAsciiDigit)
  | _ => some (time [], rest)

/-- The parts of a date, or of a date and a time. Unless short dates are taken too, a date alone has two
digits for month and day. -/
def timestampParts? (short : Bool) (cs : List Char) : Option TimestampParts := do
  let (year, rest) ← someDigits? 4 4 cs
  let rest ← after? '-' rest
  let (month, rest) ← someDigits? 1 2 rest
  let rest ← after? '-' rest
  let (day, rest) ← someDigits? 1 2 rest
  match rest with
  | [] =>
    if short ∨ (month.length = 2 ∧ day.length = 2) then
      some ⟨digitsNumber year, digitsNumber month, digitsNumber day, none, none⟩
    else none
  | c :: more => do
    let body ←
      if c = 'T' ∨ c = 't' then some more
      else if c = ' ' ∨ c = '\t' then some (more.dropWhile fun c => c == ' ' || c == '\t')
      else none
    let (time, rest) ← time? body
    let offset ← offset? rest
    some ⟨digitsNumber year, digitsNumber month, digitsNumber day, some time, offset⟩

def withoutLineEnd (cs : List Char) : List Char :=
  if cs.getLast? = some '\n' then cs.dropLast else cs

/-- The kind of a scalar whose text decides. A line feed at the end does not matter. -/
def Tag.ofText (text : String) : Tag :=
  let cs := withoutLineEnd text.toList
  let s := String.ofList cs
  if text = "\n" then .text
  else if ["yes", "Yes", "YES", "no", "No", "NO", "true", "True", "TRUE", "false", "False", "FALSE",
      "on", "On", "ON", "off", "Off", "OFF"].contains s then .bool
  else if ["", "~", "null", "Null", "NULL"].contains s then .null
  else if s = "<<" then .merge
  else if s = "=" then .default
  else if ["!", "&", "*"].contains s then .unknown
  else if isFloat cs then .float
  else if isInt cs then .int
  else if (timestampParts? false cs).isSome then .timestamp
  else .text

/-- The kind of a tag's full name. -/
def Tag.ofName (name : String) : Tag :=
  (([("null", Tag.null), ("bool", .bool), ("int", .int), ("float", .float),
    ("timestamp", .timestamp), ("str", .text), ("binary", .binary), ("seq", .sequence),
    ("omap", .pairs), ("pairs", .pairs), ("set", .set), ("map", .mapping), ("merge", .merge),
    ("value", .default)].find? fun entry =>
      "tag:yaml.org,2002:" ++ entry.1 == name).map (·.2)).getD .unknown

def inBase (base : Nat) (cs : List Char) : Except Error Int :=
  let s := String.ofList cs
  match Text.wholeIn? base s with
  | some n => .ok n
  | none => .error (.wholeNumber base s)

def wholeNumber (cs : List Char) : Except Error Int :=
  let s := String.ofList cs
  let count := Text.wholeDigitCount s
  if Text.wholeDigitLimit < count then .error (.tooManyDigits count)
  else
    match Text.whole? s with
    | some n => .ok n
    | none => .error (.wholeNumber 10 s)

def colonParts (cs : List Char) : List (List Char) := Text.splitRuns (· == ':') cs

/-- The value of a whole number, whose base its first digits tell. -/
def readInt (s : String) : Except Error Int := do
  let cs := s.toList.filter (· != '_')
  let (negative, body) := Text.splitSign cs
  let n : Int ← match body with
    | [] => throw .noDigits
    | ['0'] => pure 0
    | '0' :: 'b' :: ds => inBase 2 ds
    | '0' :: 'x' :: ds => inBase 16 ds
    | '0' :: _ => inBase 8 body
    | _ =>
      if body.contains ':' then do
        let parts ← (colonParts body).mapM wholeNumber
        pure (parts.foldl (fun n part => 60 * n + part) 0)
      else wholeNumber body
  return if negative then -n else n

def decimalNumber (cs : List Char) : Except Error Binary64 :=
  match Text.number? (String.ofList cs) with
  | some x => .ok x
  | none => .error (.decimal (String.ofList cs))

/-- The sum of parts from the last to the first, which weigh 60 times more from one to the next. -/
def sumSixties (sum : Binary64) (weight : Nat) : List Binary64 → Except Error Binary64
  | [] => .ok sum
  | part :: rest =>
    if (Binary64.ofInt weight).isFinite then
      sumSixties (sum + part * .ofInt weight) (60 * weight) rest
    else .error .tooManyParts

/-- The text of a number with a point without underscores, in small letters: whether it is negative,
and what follows its sign. -/
def floatBody (s : String) : Bool × List Char :=
  Text.splitSign (Text.lower (String.ofList (s.toList.filter (· != '_')))).toList

def isNaNWord (s : String) : Bool := (floatBody s).2 == ".nan".toList

/-- The value of a number with a point. -/
def readFloat (s : String) : Except Error Binary64 := do
  if s.toList.all (· == '_') then throw .noDigits
  let (negative, body) := floatBody s
  let x ←
    if body = ".inf".toList then pure (.infinite false)
    else if body = ".nan".toList then pure .nan
    else if body.contains ':' then do
      let parts ← (colonParts body).mapM decimalNumber
      sumSixties 0 1 parts.reverse
    else decimalNumber body
  return if negative then -x else x

def fractionMicros (ds : List Char) : Nat :=
  let ds := ds.take 6
  digitsNumber ds * Nat.pow 10 (6 - ds.length)

/-- Turn a calendar error into a fault of the text. -/
def calendar {α : Type} : Except CalendarError α → Except Error α
  | .ok a => .ok a
  | .error e => .error (.calendar e)

def readTimestamp (s : String) : Except Error Value := do
  match timestampParts? true (withoutLineEnd s.toList) with
  | none => throw .noDate
  | some p =>
    match p.offset.filter fun minutes => 1440 ≤ minutes.natAbs with
    | some minutes => throw (.calendar (.offset minutes))
    | none => pure ()
    let date ← calendar (Date.of p.year p.month p.day)
    match p.time with
    | none => return .date date
    | some (hour, minute, second, fraction) =>
      let time ← calendar (TimeOfDay.of hour minute second (fractionMicros fraction))
      return .timestamp ⟨date, time, p.offset⟩

def readBool (s : String) : Except Error Value :=
  let word := Text.lower s
  if ["yes", "true", "on"].contains word then .ok (.bool true)
  else if ["no", "false", "off"].contains word then .ok (.bool false)
  else .error (.truth word)

def readBinary (s : String) : Except Error Value :=
  if s.toList.all (·.toNat < 128) then
    match Text.Base64.decode? s.toList with
    | some bs => .ok (.bytes bs)
    | none => .error .malformed
  else .error .malformed

def Tag.read (tag : Tag) (s : String) : Except Error Value :=
  match tag with
  | .null => .ok .null
  | .bool => readBool s
  | .int => (readInt s).map .int
  | .float => (readFloat s).map .float
  | .timestamp => readTimestamp s
  | .text => .ok (.text s)
  | .binary => readBinary s
  | _ => .error .malformed

end Splice.Yaml
