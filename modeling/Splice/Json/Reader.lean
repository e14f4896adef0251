import Splice.Value.Basic
import Splice.Text.Numeral
import Splice.Text.Surrogate

/-! # Reading JSON

A number with a point or an exponent is a binary64 number, any other is a whole number of any size.
Objects keep the order of their keys; of a repeated key the last value stays at the first place.
-/

namespace Splice.Json

def isSpace (c : Char) : Bool := c == ' ' || c == '\n' || c == '\r' || c == '\t'

def skipSpace (cs : List Char) : List Char := cs.dropWhile isSpace

def hexValue? (c : Char) : Option Nat :=
  let n := c.toNat
  if 48 ≤ n ∧ n ≤ 57 then some (n - 48)
  else if 97 ≤ n ∧ n ≤ 102 then some (n - 87)
  else if 65 ≤ n ∧ n ≤ 70 then some (n - 55)
  else none

/-- The UTF-16 unit of four hexadecimal digits. -/
def unit? (a b c d : Char) : Option Nat := do
  let a ← hexValue? a
  let b ← hexValue? b
  let c ← hexValue? c
  let d ← hexValue? d
  some (4096 * a + 256 * b + 16 * c + d)

def escapedChar? : Char → Option Char
  | '"' => some '"'
  | '\\' => some '\\'
  | '/' => some '/'
  | 'b' => some (Char.ofNat 8)
  | 'f' => some (Char.ofNat 12)
  | 'n' => some '\n'
  | 'r' => some '\r'
  | 't' => some '\t'
  | _ => none

/-- Put a UTF-16 unit before a text. A first half of a pair joins the second half that the text starts
with; other halves stand alone. -/
def textBody (high : Option Nat) : List Char → Option (List Char × List Char)
  | '"' :: rest => some (high.toList.flatMap Text.ofCode, rest)
  | '\\' :: 'u' :: a :: b :: c :: d :: rest => do
    let n ← unit? a b c d
    match high with
    | some h =>
      if 0xDC00 ≤ n ∧ n < 0xE000 then
        let (cs, rest) ← textBody none rest
        some (Text.ofCode (0x10000 + 0x400 * (h - 0xD800) + (n - 0xDC00)) ++ cs, rest)
      else if 0xD800 ≤ n ∧ n < 0xDC00 then
        let (cs, rest) ← textBody (some n) rest
        some (Text.ofCode h ++ cs, rest)
      else
        let (cs, rest) ← textBody none rest
        some (Text.ofCode h ++ Text.ofCode n ++ cs, rest)
    | none =>
      if 0xD800 ≤ n ∧ n < 0xDC00 then textBody (some n) rest
      else
        let (cs, rest) ← textBody none rest
        some (Text.ofCode n ++ cs, rest)
  | '\\' :: c :: rest => do
    let e ← escapedChar? c
    let (cs, rest) ← textBody none rest
    some (high.toList.flatMap Text.ofCode ++ e :: cs, rest)
  | c :: rest => do
    let (cs, rest) ← textBody none rest
    some (high.toList.flatMap Text.ofCode ++ Text.held c ++ cs, rest)
  | [] => none

def isNumberChar (c : Char) : Bool :=
  c.isDigit || c == '-' || c == '+' || c == '.' || c == 'e' || c == 'E'

def numberValue? (cs : List Char) : Option Value :=
  if cs.any fun c => c == '.' || c == 'e' || c == 'E' then
    (Text.number? (String.ofList cs)).map .float
  else
    let (negative, body) := Text.splitSign cs
    match Text.splitDigits body with
    | (d :: ds, []) =>
      let n := Text.digitsValue (d :: ds)
      some (.int (if negative then -(n : Int) else n))
    | _ => none

mutual
/-- Read one value from the start of a text, nested no deeper than the fuel. -/
def value? : Nat → List Char → Option (Value × List Char)
  | 0, _ => none
  | fuel + 1, cs =>
    match skipSpace cs with
    | 'n' :: 'u' :: 'l' :: 'l' :: rest => some (.null, rest)
    | 't' :: 'r' :: 'u' :: 'e' :: rest => some (.bool true, rest)
    | 'f' :: 'a' :: 'l' :: 's' :: 'e' :: rest => some (.bool false, rest)
    | '"' :: rest => (textBody none rest).map fun (s, rest) => (.text (String.ofList s), rest)
    | '[' :: rest =>
      match skipSpace rest with
      | ']' :: rest => some (.list [], rest)
      | rest => (items? fuel rest).map fun (items, rest) => (.list items, rest)
    | '\x7b' :: rest =>
      match skipSpace rest with
      | '\x7d' :: rest => some (.mapping [], rest)
      | rest => (entries? fuel rest).map fun (es, rest) => (.mapping (Value.ofEntries es), rest)
    | rest => (numberValue? (rest.takeWhile isNumberChar)).map (·, rest.dropWhile isNumberChar)

def items? : Nat → List Char → Option (List Value × List Char)
  | 0, _ => none
  | fuel + 1, cs => do
    let (v, rest) ← value? fuel cs
    match skipSpace rest with
    | ',' :: rest => (items? fuel rest).map fun (vs, rest) => (v :: vs, rest)
    | ']' :: rest => some ([v], rest)
    | _ => none

def entries? : Nat → List Char → Option (List (Value × Value) × List Char)
  | 0, _ => none
  | fuel + 1, cs =>
    match skipSpace cs with
    | '"' :: rest => do
      let (key, rest) ← textBody none rest
      match skipSpace rest with
      | ':' :: rest => do
        let (v, rest) ← value? fuel rest
        let entry := (Value.text (String.ofList key), v)
        match skipSpace rest with
        | ',' :: rest => (entries? fuel rest).map fun (es, rest) => (entry :: es, rest)
        | '\x7d' :: rest => some ([entry], rest)
        | _ => none
      | _ => none
    | _ => none
end

def read? (s : String) : Option Value :=
  let cs := s.toList
  match value? (cs.length + 1) cs with
  | some (v, rest) => if (skipSpace rest).isEmpty then some v else none
  | none => none

end Splice.Json
