/-! # Places in a YAML text

A cursor is a rest of a text with the number of characters before it, its line and its column. The
character classes of the format are decided on the next character, `none` being the end of the text.
-/

namespace Splice.Yaml

/-- Characters that end a line. -/
def isBreak (c : Char) : Bool :=
  c == '\n' || c == '\r' || c == '\u0085' || c == '\u2028' || c == '\u2029'

def endsLine : Option Char → Bool
  | none => true
  | some c => isBreak c

/-- The end of the text, the end of a line or a space. -/
def endsWord : Option Char → Bool
  | none => true
  | some c => c == ' ' || isBreak c

/-- The end of the text, the end of a line, a space or a tab. -/
def isGap : Option Char → Bool
  | none => true
  | some c => c == ' ' || c == '\t' || isBreak c

/-- The mark that may stand at the start of a text and takes no column. -/
def byteOrderMark : Char := '\uFEFF'

/-- Code points that a text may hold at all. -/
def isPrintable (n : Nat) : Bool :=
  n == 9 || n == 10 || n == 13 || (0x20 ≤ n && n ≤ 0x7E) || n == 0x85 ||
    (0xA0 ≤ n && n ≤ 0xD7FF) || (0xE000 ≤ n && n ≤ 0xFFFD) || 0x10000 ≤ n

structure Cursor where
  rest : List Char
  index : Nat
  line : Nat
  column : Nat

namespace Cursor

def start (cs : List Char) : Cursor := ⟨cs, 0, 0, 0⟩

def peek (c : Cursor) : Option Char := c.rest.head?

def peekAt (c : Cursor) (n : Nat) : Option Char := c.rest[n]?

/-- Step over one character. A carriage return before a line feed does not end the line itself. -/
def advance (c : Cursor) : Cursor :=
  match c.rest with
  | [] => c
  | '\r' :: '\n' :: rest => ⟨'\n' :: rest, c.index + 1, c.line, c.column + 1⟩
  | ch :: rest =>
    if isBreak ch then ⟨rest, c.index + 1, c.line + 1, 0⟩
    else ⟨rest, c.index + 1, c.line, if ch = byteOrderMark then c.column else c.column + 1⟩

def skip (c : Cursor) : Nat → Cursor
  | 0 => c
  | n + 1 => c.advance.skip n

def skipWhile (p : Char → Bool) (c : Cursor) : Cursor := c.skip (c.rest.takeWhile p).length

/-- Step over one line end, with the character that it stands for in a scalar. -/
def lineBreak? (c : Cursor) : Option (Char × Cursor) :=
  match c.rest with
  | '\r' :: '\n' :: _ => some ('\n', c.skip 2)
  | '\r' :: _ => some ('\n', c.advance)
  | '\n' :: _ => some ('\n', c.advance)
  | '\u0085' :: _ => some ('\n', c.advance)
  | '\u2028' :: _ => some ('\u2028', c.advance)
  | '\u2029' :: _ => some ('\u2029', c.advance)
  | _ => none

/-- Three equal characters followed by a gap. -/
def atMarker (ch : Char) (c : Cursor) : Bool :=
  match c.rest with
  | a :: b :: d :: rest => a == ch && b == ch && d == ch && isGap rest.head?
  | _ => false

/-- The start or the end of a document. -/
def atSeparator (c : Cursor) : Bool := c.atMarker '-' || c.atMarker '.'

def skipComment (c : Cursor) : Cursor :=
  if c.peek = some '#' then c.skipWhile (!isBreak ·) else c

/-- Step over spaces and a comment up to the end of the line, and over that; nothing else may stand
there. -/
def restOfLine? (c : Cursor) : Option Cursor :=
  let c := (c.skipWhile (· == ' ')).skipComment
  if endsLine c.peek then
    match c.lineBreak? with
    | some (_, next) => some next
    | none => some c
  else none

end Cursor
end Splice.Yaml
