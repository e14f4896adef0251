/-! # White space

Blank characters, trimming, and splitting at runs of blanks.
-/

namespace Splice.Text

/-- The white space of every script, the four separator controls and the next-line control
included. The zero-width space is no blank. -/
def isBlank (c : Char) : Bool :=
  let n := c.toNat
  (9 ≤ n && n ≤ 13) || (0x1C ≤ n && n ≤ 0x20) || n == 0x85 || n == 0xA0 || n == 0x1680 ||
    (0x2000 ≤ n && n ≤ 0x200A) || n == 0x2028 || n == 0x2029 || n == 0x202F || n == 0x205F ||
    n == 0x3000

/-- Remove the characters at both ends that satisfy `p`. -/
def trimList (p : Char → Bool) (cs : List Char) : List Char :=
  ((cs.dropWhile p).reverse.dropWhile p).reverse

def trim (s : String) : String := String.ofList (trimList isBlank s.toList)

def isBlankText (s : String) : Bool := s.toList.all isBlank

/-- Add a character in front of the first word. -/
def consWord (c : Char) : List (List Char) → List (List Char)
  | [] => [[c]]
  | word :: words => (c :: word) :: words

/-- The maximal runs of characters outside `p`; the first run is empty if the text starts inside. -/
def splitRuns (p : Char → Bool) : List Char → List (List Char)
  | [] => [[]]
  | c :: rest => if p c then [] :: splitRuns p rest else consWord c (splitRuns p rest)

/-- The words of a text: what stands between its blanks. -/
def words (s : String) : List String :=
  ((splitRuns isBlank s.toList).filter (!·.isEmpty)).map String.ofList

/-- Remove trailing occurrences of one character. -/
def trimEnd (c : Char) (s : String) : String :=
  String.ofList ((s.toList.reverse.dropWhile (· == c)).reverse)

end Splice.Text
