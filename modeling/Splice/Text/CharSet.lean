/-! # Sets of characters given by their edges

A property of characters is stored as the ascending list of code points at which it starts or stops
to hold, beginning with a start. A character has the property iff an odd number of edges lie at or
below it.
-/

namespace Splice.Text

/-- A set of characters: the code points at which membership changes, in ascending order. -/
structure CharSet where
  edges : List Nat

namespace CharSet

/-- Whether an odd number of edges is at or below a code point. -/
def insideFrom (code : Nat) : List Nat → Bool → Bool
  | [], inside => inside
  | edge :: rest, inside => if edge ≤ code then insideFrom code rest (!inside) else inside

def contains (s : CharSet) (c : Char) : Bool := insideFrom c.toNat s.edges false

end CharSet
end Splice.Text
