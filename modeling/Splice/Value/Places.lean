import Splice.Value.Basic

/-! # The order of a set

A set of numbers is kept in a table, and its order is that of the places. Equal numbers have one
remainder, which says where in the table a number belongs; if that place is taken it goes to one of the
next, or further on by steps in which the rest of the remainder counts. A set that holds anything but
numbers keeps the order in which it is written.
-/

namespace Splice.Value

/-- The prime that remainders of numbers are taken by. -/
def placeModulus : Nat := Nat.pow 2 61 - 1

/-- A remainder with the sign of its number; minus one is not among them. -/
def signedRemainder (negative : Bool) (n : Nat) : Int :=
  let r := n % placeModulus
  if negative then (if r = 1 then -2 else -(r : Int)) else r

/-- The remainder of a number. A unit of binary64 numbers counts as `2 ^ 24`, to which `2 ^ -1074` is
congruent. -/
def remainder? : Value → Option Int
  | .bool b => some (boolInt b)
  | .int n => some (signedRemainder (decide (n < 0)) n.natAbs)
  | .float (.finite s units _) => some (signedRemainder s (units * Nat.pow 2 24))
  | .float (.infinite s) => some (if s then -314159 else 314159)
  | _ => none

/-- The number of places for a number of items: a power of two with room to spare. -/
def tableSize (count : Nat) : Nat :=
  if count < 5 then 8 else Nat.pow 2 ((2 * count).log2 + 1)

def freePlace (size : Nat) (taken : List Nat) : Nat → Nat → Nat → Nat
  | 0, _, place => place
  | fuel + 1, rest, place =>
    let near := if place + 9 < size then List.range' place 10 else [place]
    match near.find? (!taken.contains ·) with
    | some free => free
    | none => freePlace size taken fuel (rest / 32) ((5 * place + 1 + rest / 32) % size)

/-- The places of items, given by their remainders, one after the other. -/
def places (size : Nat) (taken : List Nat) : List Int → List Nat
  | [] => []
  | r :: rest =>
    let unsigned := (r % (Nat.pow 2 64 : Nat)).toNat
    let place := freePlace size taken (size + 16) unsigned (unsigned % size)
    place :: places size (place :: taken) rest

def setOf (items : List Value) : Value :=
  match items.mapM remainder? with
  | none => .set items
  | some rs =>
    let placed := items.zip (places (tableSize items.length) [] rs)
    .set ((placed.mergeSort fun a b => decide (a.2 ≤ b.2)).map (·.1))

end Splice.Value
