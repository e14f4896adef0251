import Splice.Text.Search
import Splice.Text.WordTable
import Splice.Value.Basic

/-! # Variables in paths

A text may name variables as `$` and a word in braces. It is split once, from the left, into literal
pieces and variables; values are put in as they are and never read again.
-/

namespace Splice.PathVariable

/-- A part of a text. -/
inductive Piece where
  | literal (c : Char)
  | variable (name : List Char)
  deriving DecidableEq, Repr

/-- Why variables have no text. -/
inductive Error where
  /-- The first name without a value. -/
  | unknown (name : String)
  /-- The names are not given by a mapping to text. -/
  | wrongType
  deriving DecidableEq, Repr

def Error.message : Error → String
  | .unknown name => "Unknown path variable: $\x7b" ++ name ++ "\x7d"
  | .wrongType => "path variables must be text"

def isWord (c : Char) : Bool := Text.wordCharacters.contains c

/-- The name between braces at the start of a text, if it is closed. -/
def name? (cs : List Char) : Option (List Char) :=
  let name := cs.takeWhile isWord
  if name.isEmpty then none
  else if (cs.dropWhile isWord).head? = some '\x7d' then some name else none

/-- Split a text, leaving out as many characters as belong to a variable before it. -/
def piecesFrom : Nat → List Char → List Piece
  | _, [] => []
  | skip + 1, _ :: rest => piecesFrom skip rest
  | 0, c :: rest =>
    let found := if c = '$' ∧ rest.head? = some '\x7b' then name? (rest.drop 1) else none
    match found with
    | some name => .variable name :: piecesFrom (name.length + 2) rest
    | none => .literal c :: piecesFrom 0 rest

def pieces (s : String) : List Piece := piecesFrom 0 s.toList

/-- The value of a name. Only a mapping can give one; whether a name is missing is asked of lists, sets
and texts too. -/
def value (paths : Value) (name : String) : Except Error Value :=
  match paths with
  | .mapping entries =>
    match Value.lookup? name entries with
    | some v => .ok v
    | none => .error (.unknown name)
  | .list items =>
    if items.any (Value.sameKey (.text name)) then .error .wrongType else .error (.unknown name)
  | .set items =>
    if items.any (Value.sameKey (.text name)) then .error .wrongType else .error (.unknown name)
  | .pairs _ => .error (.unknown name)
  | .text s => if Text.occursIn name.toList s.toList then .error .wrongType else .error (.unknown name)
  | _ => .error .wrongType

def valueOf (paths : Value) : Piece → Except Error Value
  | .literal c => .ok (.text c.toString)
  | .variable name => value paths (String.ofList name)

/-- The text that a value stands for; null is empty. -/
def textOf : Value → Except Error String
  | .text s => .ok s
  | .null => .ok ""
  | _ => .error .wrongType

/-- Put the values of all variables into a text. Names are looked up before any value is used. -/
def substitute (paths : Value) (s : String) : Except Error String := do
  let values ← (pieces s).mapM (valueOf paths)
  let texts ← values.mapM textOf
  return String.join texts

end Splice.PathVariable
