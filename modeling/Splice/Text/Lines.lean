/-! # Lines

A line ends at a line feed, a carriage return (with a following line feed as one end), a vertical
tab, a form feed, one of three separator controls, the next-line control, or the line and paragraph
separators.
-/

namespace Splice.Text

def isLineEnd (c : Char) : Bool :=
  let n := c.toNat
  (10 ≤ n && n ≤ 13) || (0x1C ≤ n && n ≤ 0x1E) || n == 0x85 || n == 0x2028 || n == 0x2029

/-- The lines of a text whose current line, reversed, is `line`. A text that ends with a line end
has no further line after it. -/
def linesFrom (line : List Char) : List Char → List (List Char)
  | [] => if line.isEmpty then [] else [line.reverse]
  | '\r' :: '\n' :: rest => line.reverse :: linesFrom [] rest
  | c :: rest => if isLineEnd c then line.reverse :: linesFrom [] rest else linesFrom (c :: line) rest

def lines (s : String) : List String := (linesFrom [] s.toList).map String.ofList

/-- The text with every carriage return, and every carriage return with its line feed, written as
one line feed: what a file read as text holds. -/
def unifyLineEnds : List Char → List Char
  | [] => []
  | '\r' :: '\n' :: rest => '\n' :: unifyLineEnds rest
  | c :: rest => (if c = '\r' then '\n' else c) :: unifyLineEnds rest

def ofFile (s : String) : String := String.ofList (unifyLineEnds s.toList)

end Splice.Text
