import Splice.Text.LowerCaseTable
import Splice.Text.CasedTable

/-! # Lower-casing a text

Each capital goes to its small letter. Two letters need more: the capital I with a dot becomes two
characters, and a capital sigma that ends a word becomes the final sigma.
-/

namespace Splice.Text

/-- The small letter of a capital with exactly one; other characters stay. -/
def lowerLetter (c : Char) : Char :=
  match capitalRuns.find? fun run =>
      decide (run.first ≤ c.toNat) && decide (c.toNat ≤ run.last) &&
        (c.toNat - run.first) % run.stride == 0 with
  | some run => Char.ofNat (c.toNat + run.shift).toNat
  | none => c

/-- Whether the nearest character that is not passed over is a letter with case. -/
def nextIsCased (cs : List Char) : Bool :=
  match cs.dropWhile caseIgnorableCharacters.contains with
  | [] => false
  | c :: _ => casedCharacters.contains c

/-- The small form of one character between the reversed text before it and the text after it. -/
def lowerIn (before : List Char) (c : Char) (after : List Char) : List Char :=
  if c = 'İ' then ['i', '\u0307']
  else if c = 'Σ' then [if nextIsCased before && !nextIsCased after then 'ς' else 'σ']
  else [lowerLetter c]

/-- Lower-case a text whose reversed beginning is `before`. -/
def lowerFrom (before : List Char) : List Char → List Char
  | [] => []
  | c :: rest => lowerIn before c rest ++ lowerFrom (c :: before) rest

def lower (s : String) : String := String.ofList (lowerFrom [] s.toList)

end Splice.Text
