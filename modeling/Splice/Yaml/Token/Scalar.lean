import Splice.Text.Surrogate
import Splice.Yaml.Cursor
import Splice.Yaml.Error

/-! # The texts of scalars

Plain, quoted and block scalars. A single line end inside a scalar is folded to a space, except in
literal blocks; further line ends stay.
-/

namespace Splice.Yaml

/-- What a run of blanks and line ends inside a plain scalar stands for. -/
structure PlainGap where
  text : List Char
  broke : Bool
  next : Cursor

/-- The line ends and spaces after a first line end: the line ends, or none at a document's edge. -/
def plainBreaks : Nat → Cursor → Option (List Char) × Cursor
  | 0, c => (some [], c)
  | fuel + 1, c =>
    if c.peek = some ' ' then plainBreaks fuel c.advance
    else
      match c.lineBreak? with
      | none => (some [], c)
      | some (ch, next) =>
        if next.atSeparator then (none, next)
        else
          let (rest, last) := plainBreaks fuel next
          (rest.map (ch :: ·), last)

/-- Fold a first line end and the ones after it. -/
def fold (first : Char) (more : List Char) : List Char :=
  if first ≠ '\n' then first :: more else if more.isEmpty then [' '] else more

def plainGap (c : Cursor) : PlainGap :=
  let spaces := c.rest.takeWhile (· == ' ')
  let next := c.skip spaces.length
  match next.lineBreak? with
  | none => ⟨spaces, false, next⟩
  | some (first, afterBreak) =>
    if afterBreak.atSeparator then ⟨[], true, afterBreak⟩
    else
      match plainBreaks afterBreak.rest.length afterBreak with
      | (none, last) => ⟨[], true, last⟩
      | (some more, last) => ⟨fold first more, true, last⟩

/-- Whether a plain scalar stops before a character that another one follows. -/
def stopsPlain (inFlow : Bool) (ch : Char) (next : Option Char) : Bool :=
  isGap (some ch) ||
    (ch == ':' && (isGap next || (inFlow && next.any fun n => ",[]\x7b\x7d".toList.contains n))) ||
    (inFlow && ",?[]\x7b\x7d".toList.contains ch)

/-- The part of a plain scalar up to the next gap or mark. -/
def plainSegment (inFlow : Bool) : List Char → List Char
  | [] => []
  | ch :: rest =>
    if stopsPlain inFlow ch rest.head? then [] else ch :: plainSegment inFlow rest

/-- The text of a plain scalar, whether a line ended after it, and what follows. -/
structure PlainScalar where
  text : List Char
  broke : Bool
  next : Cursor

/-- The further text of a plain scalar in lines of at least the given indentation, after a gap. -/
def plainFrom (inFlow : Bool) (indent : Int) : Nat → Bool → List Char → Cursor → PlainScalar
  | 0, broke, _, c => ⟨[], broke, c⟩
  | fuel + 1, broke, gap, c =>
    let piece := plainSegment inFlow c.rest
    if c.peek = some '#' || piece.isEmpty then ⟨[], broke, c⟩
    else
      let g := plainGap (c.skip piece.length)
      if g.text.isEmpty || g.next.peek = some '#' || (!inFlow && decide ((g.next.column : Int) < indent))
      then ⟨gap ++ piece, g.broke, g.next⟩
      else
        let more := plainFrom inFlow indent fuel g.broke g.text g.next
        ⟨gap ++ piece ++ more.text, more.broke, more.next⟩

def plainScalar (inFlow : Bool) (indent : Int) (c : Cursor) : PlainScalar :=
  plainFrom inFlow indent (c.rest.length + 1) false [] c

/-- The line ends, with the blanks before each, inside a quoted scalar. -/
def quotedBreaks : Nat → Cursor → Except Error (List Char × Cursor)
  | 0, _ => .error .malformed
  | fuel + 1, c =>
    if c.atSeparator then .error .malformed
    else
      let c := c.skipWhile fun ch => ch == ' ' || ch == '\t'
      match c.lineBreak? with
      | none => .ok ([], c)
      | some (ch, next) => (quotedBreaks fuel next).map fun (rest, last) => (ch :: rest, last)

def escapedChar? : Char → Option Char
  | '0' => some (Char.ofNat 0)
  | 'a' => some (Char.ofNat 7)
  | 'b' => some (Char.ofNat 8)
  | 't' => some '\t'
  | '\t' => some '\t'
  | 'n' => some '\n'
  | 'v' => some (Char.ofNat 11)
  | 'f' => some (Char.ofNat 12)
  | 'r' => some '\r'
  | 'e' => some (Char.ofNat 27)
  | ' ' => some ' '
  | '"' => some '"'
  | '\\' => some '\\'
  | '/' => some '/'
  | 'N' => some '\u0085'
  | '_' => some '\u00A0'
  | 'L' => some '\u2028'
  | 'P' => some '\u2029'
  | _ => none

/-- How many hexadecimal digits follow the letter of a numeric escape. -/
def escapeWidth? : Char → Option Nat
  | 'x' => some 2
  | 'u' => some 4
  | 'U' => some 8
  | _ => none

def hexValue? (c : Char) : Option Nat :=
  let n := c.toNat
  if 48 ≤ n ∧ n ≤ 57 then some (n - 48)
  else if 97 ≤ n ∧ n ≤ 102 then some (n - 87)
  else if 65 ≤ n ∧ n ≤ 70 then some (n - 55)
  else none

/-- The number of exactly `width` hexadecimal digits at the start of a text. -/
def hexNumber? (width : Nat) (cs : List Char) : Option Nat :=
  let digits := cs.take width
  if digits.length = width then
    (digits.mapM hexValue?).map (·.foldl (fun n d => 16 * n + d) 0)
  else none

/-- The character of a numeric escape whose digits start at a cursor. A surrogate stands alone, also
where another one follows that would make a pair with it. -/
def numericEscape (width : Nat) (c : Cursor) : Except Error (List Char × Cursor) :=
  match hexNumber? width c.rest with
  | none => .error .malformed
  | some n =>
    if 0x80000000 ≤ n then .error .hugeCodePoint
    else if 0x110000 ≤ n then .error .codePoint
    else .ok (Text.ofCode n, c.skip width)

/-- The text of a quoted scalar from a cursor inside it to its closing quote. -/
def quotedFrom (double : Bool) : Nat → Cursor → Except Error (List Char × Cursor)
  | 0, _ => .error .malformed
  | fuel + 1, c =>
    let prepend (front : List Char) (next : Cursor) : Except Error (List Char × Cursor) :=
      (quotedFrom double fuel next).map fun (rest, last) => (front ++ rest, last)
    match c.peek with
    | none => .error .malformed
    | some ch =>
      if ch = '\'' ∧ !double then
        if c.peekAt 1 = some '\'' then prepend ['\''] (c.skip 2) else .ok ([], c.advance)
      else if ch = '"' ∧ double then .ok ([], c.advance)
      else if ch = '\\' ∧ double then
        let c := c.advance
        match c.peek with
        | none => .error .malformed
        | some letter =>
          match escapedChar? letter with
          | some e => prepend [e] c.advance
          | none =>
            match escapeWidth? letter with
            | some width => do
              let (e, next) ← numericEscape width c.advance
              prepend e next
            | none =>
              match c.lineBreak? with
              | some (_, next) => do
                let (breaks, last) ← quotedBreaks (next.rest.length + 1) next
                prepend breaks last
              | none => .error .malformed
      else if isGap (some ch) then
        let blanks := c.rest.takeWhile fun ch => ch == ' ' || ch == '\t'
        let next := c.skip blanks.length
        match next.peek with
        | none => .error .malformed
        | some _ =>
          match next.lineBreak? with
          | none => prepend blanks next
          | some (first, next) => do
            let (more, last) ← quotedBreaks (next.rest.length + 1) next
            prepend (fold first more) last
      else prepend [ch] c.advance

/-- The quoted scalar at a cursor that stands on its opening quote. -/
def quotedScalar (double : Bool) (c : Cursor) : Except Error (List Char × Cursor) :=
  quotedFrom double (c.rest.length + 1) c.advance

/-- What becomes of the line ends at the end of a block scalar. -/
inductive Chomping where
  /-- One stays. -/
  | clip
  /-- None stays. -/
  | strip
  /-- All stay. -/
  | keep
  deriving DecidableEq

def chomping? : Option Char → Option Chomping
  | some '+' => some .keep
  | some '-' => some .strip
  | _ => none

/-- The indentation that a header may give: a digit, which must not be zero. -/
def indentDigit? (c : Option Char) : Option (Except Error Nat) :=
  match c with
  | none => none
  | some ch =>
    if ch = '0' then some (.error .malformed)
    else if '1' ≤ ch ∧ ch ≤ '9' then some (.ok (ch.toNat - '0'.toNat))
    else none

/-- The header of a block scalar: chomping and indentation in either order. -/
def blockHeader (c : Cursor) : Except Error (Chomping × Option Nat × Cursor) := do
  let (chomping, increment, c) ← match chomping? c.peek with
    | some way =>
      match indentDigit? c.advance.peek with
      | some d => d.map fun n => (way, some n, c.skip 2)
      | none => .ok (way, none, c.advance)
    | none =>
      match indentDigit? c.peek with
      | some d => d.map fun n =>
        match chomping? c.advance.peek with
        | some way => (way, some n, c.skip 2)
        | none => (.clip, some n, c.advance)
      | none => .ok (.clip, none, c)
  if !endsWord c.peek then throw .malformed
  match c.restOfLine? with
  | some next => return (chomping, increment, next)
  | none => throw .malformed

/-- The line ends before the first line of a block scalar, and the widest indentation among them. -/
def leadingBreaks : Nat → Nat → Cursor → List Char × Nat × Cursor
  | 0, widest, c => ([], widest, c)
  | fuel + 1, widest, c =>
    if c.peek = some ' ' then leadingBreaks fuel (max widest c.advance.column) c.advance
    else
      match c.lineBreak? with
      | none => ([], widest, c)
      | some (ch, next) =>
        let (rest, widest, last) := leadingBreaks fuel widest next
        (ch :: rest, widest, last)

/-- Step over the indentation of a line, as far as it goes. -/
def skipIndent (indent : Nat) (c : Cursor) : Cursor :=
  c.skip ((c.rest.take (indent - c.column)).takeWhile (· == ' ')).length

/-- The line ends between two lines of a block scalar. -/
def blockBreaks (indent : Nat) : Nat → Cursor → List Char × Cursor
  | 0, c => ([], c)
  | fuel + 1, c =>
    let c := skipIndent indent c
    match c.lineBreak? with
    | none => ([], c)
    | some (ch, next) =>
      let (rest, last) := blockBreaks indent fuel next
      (ch :: rest, last)

def isSpaceOrTab : Option Char → Bool
  | some c => c == ' ' || c == '\t'
  | none => false

/-- The end of the last line of a block scalar, after chomping. -/
def chomped (way : Chomping) (lineEnd breaks : List Char) : List Char :=
  match way with
  | .strip => []
  | .clip => lineEnd
  | .keep => lineEnd ++ breaks

/-- The lines of a block scalar from a cursor, after some line ends. -/
def blockFrom (folded : Bool) (way : Chomping) (indent : Nat) :
    Nat → List Char → List Char → Cursor → List Char × Cursor
  | 0, _, _, c => ([], c)
  | fuel + 1, lineEnd, breaks, c =>
    if c.column = indent ∧ c.peek.isSome then
      let startsWithWord := !isSpaceOrTab c.peek
      let content := c.rest.takeWhile (!isBreak ·)
      let c := c.skip content.length
      let (ended, c) := match c.lineBreak? with
        | some (ch, next) => ([ch], next)
        | none => ([], c)
      let (more, c) := blockBreaks indent (c.rest.length + 1) c
      if c.column = indent ∧ c.peek.isSome then
        let joint := if folded ∧ ended = ['\n'] ∧ startsWithWord ∧ !isSpaceOrTab c.peek then
            if more.isEmpty then [' '] else []
          else ended
        let (rest, last) := blockFrom folded way indent fuel ended more c
        (breaks ++ content ++ joint ++ rest, last)
      else (breaks ++ content ++ chomped way ended more, c)
    else (chomped way lineEnd breaks, c)

/-- The block scalar at a cursor that stands on its mark, inside a block of the given indentation. -/
def blockScalar (folded : Bool) (parent : Int) (c : Cursor) : Except Error (List Char × Cursor) := do
  let (way, increment, c) ← blockHeader c.advance
  let least := max 1 (parent + 1).toNat
  match increment with
  | some n =>
    let indent := least + n - 1
    let (breaks, c) := blockBreaks indent (c.rest.length + 1) c
    return blockFrom folded way indent (c.rest.length + 1) [] breaks c
  | none =>
    let (breaks, widest, c) := leadingBreaks (c.rest.length + 1) 0 c
    return blockFrom folded way (max least widest) (c.rest.length + 1) [] breaks c

end Splice.Yaml
