import Splice.Value.Printer

/-! # Writing JSON

Stored configurations are JSON in ASCII: a comma and a colon are followed by a space, other
characters are escaped by their UTF-16 units. Dates, bytes and sets have no JSON form, and neither has a
collection within itself.
-/

namespace Splice.Json

/-- What has no JSON form. -/
inductive WriteError where
  | value
  | key
  | circular
  | digits
  deriving DecidableEq, Repr

def WriteError.message : WriteError → String
  | .value => "a value has no JSON form"
  | .key => "a key has no JSON form"
  | .circular => "Circular reference detected"
  | .digits => Value.unwritableMessage

/-- A UTF-16 unit as an escape. -/
def escapeUnit (n : Nat) : List Char := '\\' :: 'u' :: Text.hex 4 n

def escapeChar (c : Char) : List Char :=
  let n := c.toNat
  if c = '"' then ['\\', '"']
  else if c = '\\' then ['\\', '\\']
  else if c = '\n' then ['\\', 'n']
  else if c = '\r' then ['\\', 'r']
  else if c = '\t' then ['\\', 't']
  else if n = 8 then ['\\', 'b']
  else if n = 12 then ['\\', 'f']
  else if 0x20 ≤ n ∧ n < 0x7F then [c]
  else if n < 0x10000 then escapeUnit n
  else escapeUnit (0xD800 + (n - 0x10000) / 0x400) ++ escapeUnit (0xDC00 + (n - 0x10000) % 0x400)

def escapeCode (code : Nat) : List Char :=
  if Text.isSurrogate code then escapeUnit code else escapeChar (Char.ofNat code)

def quote (s : String) : String :=
  String.ofList ('"' :: (Text.codes s.toList).flatMap escapeCode ++ ['"'])

def whole (n : Int) : Except WriteError String :=
  if Value.isWritableInt n then .ok (toString n) else .error .digits

/-- A number; the values without a JSON form have the customary words. -/
def number : Binary64 → String
  | .nan => "NaN"
  | .infinite s => if s then "-Infinity" else "Infinity"
  | x => x.text

/-- A key as text: what is not text is written as its value would be. -/
def keyText : Value → Except WriteError String
  | .text s => .ok s
  | .null => .ok "null"
  | .bool b => .ok (if b then "true" else "false")
  | .int n => whole n
  | .float x => .ok (number x)
  | _ => .error .key

mutual
/-- A value in JSON. -/
def write : Value → Except WriteError String
  | .null => .ok "null"
  | .bool b => .ok (if b then "true" else "false")
  | .int n => whole n
  | .float x => .ok (number x)
  | .text s => .ok (quote s)
  | .bytes _ => .error .value
  | .date _ => .error .value
  | .timestamp _ => .error .value
  | .set _ => .error .value
  | .knot _ v => write v
  | .again _ => .error .circular
  | .list items => do
    let parts ← writeList items
    .ok ("[" ++ ", ".intercalate parts ++ "]")
  | .mapping entries => do
    let parts ← writeEntries entries
    .ok ("\x7b" ++ ", ".intercalate parts ++ "\x7d")
  | .pairs entries => do
    let parts ← writePairs entries
    .ok ("[" ++ ", ".intercalate parts ++ "]")

def writePairs : List (Value × Value) → Except WriteError (List String)
  | [] => .ok []
  | (k, v) :: rest => do
    let key ← write k
    let value ← write v
    let tail ← writePairs rest
    .ok (("[" ++ key ++ ", " ++ value ++ "]") :: tail)

def writeList : List Value → Except WriteError (List String)
  | [] => .ok []
  | v :: rest => do
    let head ← write v
    let tail ← writeList rest
    .ok (head :: tail)

def writeEntries : List (Value × Value) → Except WriteError (List String)
  | [] => .ok []
  | (k, v) :: rest => do
    let key ← keyText k
    let value ← write v
    let tail ← writeEntries rest
    .ok ((quote key ++ ": " ++ value) :: tail)
end

end Splice.Json
