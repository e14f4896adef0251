import Splice.Value.Basic
import Splice.Binary64.Printer
import Splice.Text.Quoted

/-! # Values in messages

`literal` writes a value so that its kind shows: texts are quoted, truth values are capitalised.
`display` is the same except that texts, dates and timestamps at the top stand as they are. A collection
within itself is written as dots. Whole numbers of too many digits are not written at all:
`isWritable` tells.
-/

namespace Splice

def Date.literal (d : Date) : String :=
  "datetime.date(" ++ toString d.year ++ ", " ++ toString d.month ++ ", " ++ toString d.day ++ ")"

/-- A distance to universal time as a literal. -/
def offsetLiteral (minutes : Int) : String :=
  if minutes = 0 then "datetime.timezone.utc"
  else "datetime.timezone(" ++ spanLiteral minutes ++ ")"

/-- A timestamp as a literal; seconds and fraction are left out from the right while they are zero. -/
def Timestamp.literal (t : Timestamp) : String :=
  let parts := [t.date.year, t.date.month, t.date.day, t.time.hour, t.time.minute] ++
    (if t.time.second = 0 ∧ t.time.micro = 0 then [] else [t.time.second]) ++
    (if t.time.micro = 0 then [] else [t.time.micro])
  let zone := match t.offset with
    | some minutes => ", tzinfo=" ++ offsetLiteral minutes
    | none => ""
  "datetime.datetime(" ++ ", ".intercalate (parts.map toString) ++ zone ++ ")"

namespace Value

/-- A byte inside a literal with the given quote. -/
def byteChars (quote : Char) (b : Nat) : List Char :=
  if b < 0x7F then
    if b < 0x20 ∧ b ≠ 9 ∧ b ≠ 10 ∧ b ≠ 13 then '\\' :: 'x' :: Text.hex 2 b
    else Text.quoteChar quote (Char.ofNat b)
  else '\\' :: 'x' :: Text.hex 2 b

def bytesLiteral (bs : List Nat) : String :=
  let quote := if bs.contains '\''.toNat && !bs.contains '"'.toNat then '"' else '\''
  String.ofList ('b' :: quote :: bs.flatMap (byteChars quote) ++ [quote])

/-- What stands for a collection inside itself. -/
def dots : Value → String
  | .mapping _ => "\x7b...\x7d"
  | _ => "[...]"

/-- Items between braces; the empty set has a name. -/
def setLiteral (items : List String) : String :=
  if items.isEmpty then "set()" else "\x7b" ++ ", ".intercalate items ++ "\x7d"

mutual
/-- A value as a literal inside collections of some numbers, each with its dots. -/
def literalIn (around : List (Nat × String)) : Value → String
  | .null => "None"
  | .bool b => if b then "True" else "False"
  | .int n => toString n
  | .float x => x.text
  | .text s => Text.quoted s
  | .bytes bs => bytesLiteral bs
  | .date d => d.literal
  | .timestamp t => t.literal
  | .list items => "[" ++ ", ".intercalate (literalList around items) ++ "]"
  | .pairs entries => "[" ++ ", ".intercalate (literalPairs around entries) ++ "]"
  | .set items => setLiteral (literalList around items)
  | .mapping entries => "\x7b" ++ ", ".intercalate (literalEntries around entries) ++ "\x7d"
  | .knot id v =>
    match around.lookup id with
    | some dots => dots
    | none => v.literalIn ((id, v.dots) :: around)
  | .again id => (around.lookup id).getD "[...]"

def literalList (around : List (Nat × String)) : List Value → List String
  | [] => []
  | v :: rest => v.literalIn around :: literalList around rest

def literalPairs (around : List (Nat × String)) : List (Value × Value) → List String
  | [] => []
  | (k, v) :: rest =>
    ("(" ++ k.literalIn around ++ ", " ++ v.literalIn around ++ ")") :: literalPairs around rest

/-- The entries of a mapping, each key with a colon before its value. -/
def literalEntries (around : List (Nat × String)) : List (Value × Value) → List String
  | [] => []
  | (k, v) :: rest =>
    (k.literalIn around ++ ": " ++ v.literalIn around) :: literalEntries around rest
end

def literal (v : Value) : String := v.literalIn []

def display : Value → String
  | .text s => s
  | .date d => String.ofList d.chars
  | .timestamp t => String.ofList (t.chars ' ')
  | v => v.literal

/-- The most digits that a whole number is written with. -/
def digitLimit : Nat := 4300

def isWritableInt (n : Int) : Bool := decide (n.natAbs < Nat.pow 10 digitLimit)

mutual
/-- Whether a value is written: no whole number in it has too many digits. -/
def isWritable : Value → Bool
  | .int n => isWritableInt n
  | .list items => areWritable items
  | .pairs entries => areWritableEntries entries
  | .set items => areWritable items
  | .mapping entries => areWritableEntries entries
  | .knot _ v => v.isWritable
  | _ => true

def areWritable : List Value → Bool
  | [] => true
  | v :: rest => v.isWritable && areWritable rest

def areWritableEntries : List (Value × Value) → Bool
  | [] => true
  | (k, v) :: rest => k.isWritable && v.isWritable && areWritableEntries rest
end

def unwritableMessage : String :=
  "Exceeds the limit (4300 digits) for integer string conversion; " ++
    "use sys.set_int_max_str_digits() to increase the limit"

end Value
end Splice
