import Splice.Binary64.Basic
import Splice.Calendar

/-! # Plain data

The values that configuration files, stored configurations and requests are made of. Mappings keep
the order of insertion.

A collection may occur within itself. It is a `knot` then, and where it occurs again there is only its
number. `opened` unties a knot by one turn, so that what is read from a value stands for itself.
-/

namespace Splice

/-- A value of plain data. -/
inductive Value where
  | null
  | bool (b : Bool)
  | int (n : Int)
  | float (x : Binary64)
  | text (s : String)
  | bytes (bs : List Nat)
  | date (d : Date)
  | timestamp (t : Timestamp)
  | list (items : List Value)
  | pairs (entries : List (Value × Value))
  | set (items : List Value)
  | mapping (entries : List (Value × Value))
  /-- A collection, by its number, that may occur within itself. -/
  | knot (id : Nat) (v : Value)
  /-- The collection around this place that has a number. -/
  | again (id : Nat)
  deriving Inhabited

namespace Value

/-- Whether a value may be a key: collections may not. -/
def isKey : Value → Bool
  | .list _ => false
  | .pairs _ => false
  | .set _ => false
  | .mapping _ => false
  | .knot _ _ => false
  | .again _ => false
  | _ => true

/-- Whether a whole number and a binary64 number are the same number. -/
def intEqFloat (n : Int) : Binary64 → Bool
  | .finite s m _ => n * Binary64.unitsPerOne == Binary64.signedUnits s m
  | _ => false

/-- Whether two binary64 numbers are the same number. -/
def floatEq (a b : Binary64) : Bool := decide (a ≤ b) && decide (b ≤ a)

def boolInt (b : Bool) : Int := if b then 1 else 0

/-- Whether two keys are the same entry of a mapping. Numbers agree by value, whatever their kind, and
truth values count as 0 and 1. -/
def sameKey : Value → Value → Bool
  | .null, .null => true
  | .bool a, .bool b => a == b
  | .bool a, .int n => boolInt a == n
  | .int n, .bool b => n == boolInt b
  | .bool a, .float x => intEqFloat (boolInt a) x
  | .float x, .bool b => intEqFloat (boolInt b) x
  | .int m, .int n => m == n
  | .int n, .float x => intEqFloat n x
  | .float x, .int n => intEqFloat n x
  | .float x, .float y => floatEq x y
  | .text a, .text b => a == b
  | .bytes a, .bytes b => a == b
  | .date a, .date b => a == b
  | .timestamp a, .timestamp b => a.isSame b
  | _, _ => false

/-- Put an entry into a mapping: a new key goes to the end, a known key keeps its place and its first
spelling. -/
def insert (key value : Value) : List (Value × Value) → List (Value × Value)
  | [] => [(key, value)]
  | (k, v) :: rest => if sameKey k key then (k, value) :: rest else (k, v) :: insert key value rest

/-- The mapping that a list of entries makes, later entries winning. -/
def ofEntries (entries : List (Value × Value)) : List (Value × Value) :=
  entries.foldl (fun acc e => insert e.1 e.2 acc) []

def lookup? (key : String) : List (Value × Value) → Option Value
  | [] => none
  | (.text k, v) :: rest => if k = key then some v else lookup? key rest
  | _ :: rest => lookup? key rest

/-- Whether a value counts as absent where a default stands in: null, false, zero and empty ones. -/
def isEmpty : Value → Bool
  | .null => true
  | .bool b => !b
  | .int n => n == 0
  | .float x => x.isZero
  | .text s => s.isEmpty
  | .bytes bs => bs.isEmpty
  | .list items => items.isEmpty
  | .pairs entries => entries.isEmpty
  | .set items => items.isEmpty
  | .mapping entries => entries.isEmpty
  | .knot _ v => v.isEmpty
  | _ => false

mutual
/-- A value with the collection of a number put where it occurs again. -/
def tie (id : Nat) (whole : Value) : Value → Value
  | .list items => .list (tieAll id whole items)
  | .pairs entries => .pairs (tieEntries id whole entries)
  | .mapping entries => .mapping (tieEntries id whole entries)
  | .knot i v => .knot i (tie id whole v)
  | .again i => if i = id then whole else .again i
  | v => v

/-- Items with the collection of a number put where it occurs again. -/
def tieAll (id : Nat) (whole : Value) : List Value → List Value
  | [] => []
  | v :: rest => tie id whole v :: tieAll id whole rest

/-- Entries with the collection of a number put where it occurs again. -/
def tieEntries (id : Nat) (whole : Value) : List (Value × Value) → List (Value × Value)
  | [] => []
  | (k, v) :: rest => (tie id whole k, tie id whole v) :: tieEntries id whole rest
end

/-- A value whose parts stand for themselves: a knot is untied by one turn. -/
def opened : Value → Value
  | .knot id v => tie id (.knot id v) v
  | v => v

end Value
end Splice
