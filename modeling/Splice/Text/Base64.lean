/-! # Base64

Four digits make three bytes. What is no digit is skipped; padding ends the text once it completes a
group of four, and a group must be complete or padded.
-/

namespace Splice.Text.Base64

def digit? (c : Char) : Option Nat :=
  let n := c.toNat
  if 65 ≤ n ∧ n ≤ 90 then some (n - 65)
  else if 97 ≤ n ∧ n ≤ 122 then some (n - 71)
  else if 48 ≤ n ∧ n ≤ 57 then some (n + 4)
  else if c = '+' then some 62
  else if c = '/' then some 63
  else none

/-- Read a text whose present group has `place` digits so far, of which the bits `carry` are not in a
byte yet, and `pads` paddings after them. -/
def decodeFrom (place carry pads : Nat) : List Char → Option (List Nat)
  | [] => if place = 0 then some [] else none
  | c :: rest =>
    if c = '=' then
      if place < 2 then decodeFrom place carry pads rest
      else if 4 ≤ place + (pads + 1) then some []
      else decodeFrom place carry (pads + 1) rest
    else
      match digit? c with
      | none => decodeFrom place carry pads rest
      | some d =>
        match place with
        | 0 => decodeFrom 1 d 0 rest
        | 1 => (decodeFrom 2 (d % 16) 0 rest).map ((4 * carry + d / 16) :: ·)
        | 2 => (decodeFrom 3 (d % 4) 0 rest).map ((16 * carry + d / 4) :: ·)
        | _ => (decodeFrom 0 0 0 rest).map ((64 * carry + d) :: ·)

/-- The bytes of a text, if its groups are complete. -/
def decode? (cs : List Char) : Option (List Nat) := decodeFrom 0 0 0 cs

end Splice.Text.Base64
