import Splice.Binary64.Printer
import Splice.Value.Printer

/-! # Rows of text

A cell holds text or nothing, whatever is stored into it. A table says which of its columns must not
be empty.
-/

namespace Splice.Store

/-- What a cell holds. -/
abbrev Cell := Option String

/-- What is wrong with an operation on a table. -/
inductive Fault where
  /-- A column that must not be empty gets nothing. -/
  | empty (table column : String)
  | status
  /-- A key that another row has. -/
  | duplicate (table column : String)
  /-- A row must not be changed at present. -/
  | blocked
  | unknownColumn (name : String)
  /-- The value in a place, counted from 1, is of a type that no cell takes. -/
  | unsupported (place : Nat) (type : String)
  | tooLarge
  /-- A text that has no bytes. -/
  | unencodable (reason : String)
  /-- A name that an operation takes itself is given as a column. -/
  | reserved (name : String)
  | unopened
  deriving DecidableEq, Repr

def statuses : List String := ["pending", "processing", "done", "error"]

def Fault.message : Fault → String
  | .empty table column => "NOT NULL constraint failed: " ++ table ++ "." ++ column
  | .status =>
    "CHECK constraint failed: status IN (" ++ ", ".intercalate (statuses.map Text.quoted) ++ ")"
  | .duplicate table column => "UNIQUE constraint failed: " ++ table ++ "." ++ column
  | .blocked => "blocked"
  | .unknownColumn name => "no such column: " ++ name
  | .unsupported place type =>
    "value " ++ toString place ++ ": no cell holds a " ++ type
  | .unencodable reason => reason
  | .tooLarge => "whole number of more than 64 bits"
  | .reserved name => "reserved name: " ++ name
  | .unopened => "unable to open database file"

/-- Whether a whole number fits 64 bits. -/
def fits (n : Int) : Bool := decide (-9223372036854775808 ≤ n) && decide (n < 9223372036854775808)

/-- The cell that a value is stored as; `place` counts the values of one operation from 1. -/
def cell (place : Nat) : Value → Except Fault Cell
  | .null => .ok none
  | .bool b => .ok (some (toString (Value.boolInt b)))
  | .int n => if fits n then .ok (some (toString n)) else .error .tooLarge
  | .float .nan => .ok none
  | .float x => .ok (some x.columnText)
  | .text s =>
    match Text.unencodable? s with
    | none => .ok (some s)
    | some reason => .error (.unencodable reason)
  | .date d => .ok (some (Value.date d).display)
  | .timestamp t => .ok (some (Value.timestamp t).display)
  | .list _ => .error (.unsupported place "list")
  | .mapping _ => .error (.unsupported place "mapping")
  | _ => .error (.unsupported place "value")

/-- The cells of several values, whose places are counted from `place`. -/
def cells (place : Nat) : List Value → Except Fault (List Cell)
  | [] => .ok []
  | v :: rest => do
    let c ← cell place v
    return c :: (← cells (place + 1) rest)

end Splice.Store
