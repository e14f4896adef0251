import Splice.Yaml.Token.Basic
import Splice.Yaml.Token.Scalar
import Splice.Text.Numeral
import Splice.Text.Percent

/-! # Tokens of a text

The lexer keeps the indentations of the open blocks and, for each level of brackets, the token that
may turn out to be a key: only a colon after it tells. A key must end in its line and within 1024
characters.

Tokens are read on demand, so a fault further on in the text is met only once the reader gets there.
The first token is ready when it can no longer turn out to be a key.
-/

namespace Splice.Yaml

/-- A token that may be a key, by its number in the text. -/
structure KeyCandidate where
  token : Nat
  /-- Whether the layout leaves no other reading. -/
  required : Bool
  index : Nat
  line : Nat
  column : Nat

/-- The state between two tokens. -/
structure Lexer where
  length : Nat
  cursor : Cursor
  tokens : List Token
  taken : Nat
  /-- Whether the last token is read. -/
  isDone : Bool
  depth : Nat
  candidates : List (Nat × KeyCandidate)
  /-- The indentation of the innermost block; -1 outside all blocks. -/
  indent : Int
  /-- The indentations of the blocks around it. -/
  outer : List Int
  keyAllowed : Bool

namespace Lexer

def start (cs : List Char) : Lexer := ⟨cs.length, .start cs, [], 0, false, 0, [], -1, [], true⟩

/-- Inside brackets. -/
def inFlow (s : Lexer) : Bool := s.depth != 0

def emit (s : Lexer) (ts : List Token) : Lexer := { s with tokens := s.tokens ++ ts }

/-- Add a token in front of the token of a number. -/
def insertAt (s : Lexer) (n : Nat) (t : Token) : Lexer :=
  { s with tokens := s.tokens.take (n - s.taken) ++ t :: s.tokens.drop (n - s.taken) }

/-- What is read, or a fault of form. -/
def orMalformed {α : Type} : Option α → Except Error α
  | some a => .ok a
  | none => .error .malformed

/-- Step over blanks, comments and line ends. A new line outside brackets may start a key. -/
def skipToToken : Nat → Lexer → Lexer
  | 0, s => s
  | fuel + 1, s =>
    let c := (s.cursor.skipWhile (· == ' ')).skipComment
    match c.lineBreak? with
    | some (_, next) =>
      skipToToken fuel { s with cursor := next, keyAllowed := s.keyAllowed || !s.inFlow }
    | none => { s with cursor := c }

/-- Step over a byte order mark at the start of the text. -/
def skipMark (s : Lexer) : Lexer :=
  if s.cursor.index = 0 ∧ s.cursor.peek = some byteOrderMark then
    { s with cursor := s.cursor.advance }
  else s

/-- Whether a candidate can no longer be a key. -/
def isStale (s : Lexer) (k : KeyCandidate) : Bool :=
  k.line != s.cursor.line || decide (1024 < s.cursor.index - k.index)

/-- Drop the candidates that can no longer be keys. -/
def dropStale (s : Lexer) : Except Error Lexer :=
  if s.candidates.any fun k => s.isStale k.2 && k.2.required then .error .malformed
  else .ok { s with candidates := s.candidates.filter fun k => !s.isStale k.2 }

def dropCandidate (s : Lexer) : Except Error Lexer :=
  if s.candidates.any fun k => k.1 == s.depth && k.2.required then .error .malformed
  else .ok { s with candidates := s.candidates.filter fun k => k.1 != s.depth }

/-- Note that the next token may be a key. -/
def noteCandidate (s : Lexer) : Except Error Lexer :=
  if s.keyAllowed then do
    let required := !s.inFlow && decide (s.indent = s.cursor.column)
    let k : KeyCandidate :=
      ⟨s.taken + s.tokens.length, required, s.cursor.index, s.cursor.line, s.cursor.column⟩
    let s ← s.dropCandidate
    return { s with candidates := (s.depth, k) :: s.candidates }
  else .ok s

/-- The ends of the blocks that are indented more than a column, with the indentation left. -/
def closedBlocks (column : Int) : Int → List Int → List Token × Int × List Int
  | indent, [] => ([], indent, [])
  | indent, next :: outer =>
    if column < indent then
      let (ts, indent, outer) := closedBlocks column next outer
      (.blockEnd :: ts, indent, outer)
    else ([], indent, next :: outer)

/-- Close the blocks that are indented more than a column. -/
def unwind (s : Lexer) (column : Int) : Lexer :=
  if s.inFlow then s
  else
    let (ts, indent, outer) := closedBlocks column s.indent s.outer
    { s.emit ts with indent, outer }

def opensBlock (s : Lexer) (column : Nat) : Bool := decide (s.indent < column)

def openBlock (s : Lexer) (column : Nat) : Lexer :=
  { s with indent := column, outer := s.indent :: s.outer }

/-- Add a token for characters of the text and step over them. -/
def take (s : Lexer) (t : Token) (count : Nat) : Lexer :=
  { s.emit [t] with cursor := s.cursor.skip count }

def finish (s : Lexer) : Except Error Lexer := do
  let s ← (s.unwind (-1)).dropCandidate
  return { s.emit [.streamEnd] with candidates := [], keyAllowed := false, isDone := true }

def separator (s : Lexer) (t : Token) : Except Error Lexer := do
  let s ← (s.unwind (-1)).dropCandidate
  return { s.take t 3 with keyAllowed := false }

def openFlow (s : Lexer) (t : Token) : Except Error Lexer := do
  let s ← s.noteCandidate
  return { s.take t 1 with depth := s.depth + 1, keyAllowed := true }

def closeFlow (s : Lexer) (t : Token) : Except Error Lexer := do
  if s.depth = 0 then throw .malformed
  let s ← s.dropCandidate
  return { s.take t 1 with depth := s.depth - 1, keyAllowed := false }

def flowEntry (s : Lexer) : Except Error Lexer := do
  let s ← { s with keyAllowed := true }.dropCandidate
  return s.take .flowEntry 1

/-- Open a block for an entry or a key that starts here, unless it is open. -/
def startBlock (s : Lexer) (t : Token) : Except Error Lexer :=
  if s.inFlow then .ok s
  else if !s.keyAllowed then .error .malformed
  else if s.opensBlock s.cursor.column then .ok ((s.openBlock s.cursor.column).emit [t])
  else .ok s

def blockEntry (s : Lexer) : Except Error Lexer := do
  let s ← s.startBlock .blockSequenceStart
  let s ← { s with keyAllowed := true }.dropCandidate
  return s.take .blockEntry 1

def explicitKey (s : Lexer) : Except Error Lexer := do
  let s ← s.startBlock .blockMappingStart
  let s ← { s with keyAllowed := !s.inFlow }.dropCandidate
  return s.take .key 1

/-- The colon of a value. The candidate of this depth, if there is one, was a key. -/
def value (s : Lexer) : Except Error Lexer := do
  match s.candidates.lookup s.depth with
  | some k =>
    let s := { s with candidates := s.candidates.filter fun k => k.1 != s.depth }
    let s := s.insertAt k.token .key
    let s := if !s.inFlow && s.opensBlock k.column then
        (s.openBlock k.column).insertAt k.token .blockMappingStart
      else s
    return { s.take .value 1 with keyAllowed := false }
  | none =>
    let s ← s.startBlock .blockMappingStart
    let s ← { s with keyAllowed := !s.inFlow }.dropCandidate
    return s.take .value 1

def isNameChar (c : Char) : Bool := c.isAlphanum || c == '-' || c == '_'

/-- Characters that may follow the name of an anchor. -/
def endsAnchor (c : Option Char) : Bool :=
  isGap c || c.any fun ch => "?:,]\x7d%@\x60".toList.contains ch

def anchor (s : Lexer) (make : String → Token) : Except Error Lexer := do
  let s ← s.noteCandidate
  let name := s.cursor.advance.rest.takeWhile isNameChar
  let next := s.cursor.skip (name.length + 1)
  if name.isEmpty || !endsAnchor next.peek then throw .malformed
  return { s.emit [make (String.ofList name)] with cursor := next, keyAllowed := false }

def isTagChar (c : Char) : Bool :=
  c.isAlphanum || "-;/?:@&=+$,_.!~*'()[]%".toList.contains c

def tagRest? (c : Cursor) : Option (String × Cursor) :=
  let cs := c.rest.takeWhile isTagChar
  if cs.isEmpty then none
  else (Text.Percent.exactly? cs).map fun rest => (String.ofList rest, c.skip cs.length)

/-- The handle at a cursor that stands on its mark: the mark alone, or a name between two marks. -/
def tagHandle? (c : Cursor) : Option (String × Cursor) :=
  let name := c.advance.rest.takeWhile isNameChar
  let next := c.skip (name.length + 1)
  if c.advance.peek = some ' ' then some ("!", c.advance)
  else if next.peek = some '!' then
    some (String.ofList ('!' :: name ++ ['!']), next.advance)
  else none

def tagAt? (c : Cursor) : Option (Token × Cursor) :=
  let next := c.advance
  if next.peek = some '<' then do
    let (suffix, after) ← tagRest? next.advance
    if after.peek = some '>' then some (.tag none suffix, after.advance) else none
  else if isGap next.peek then some (.tag none "!", next)
  else if (next.rest.takeWhile fun ch => !endsWord (some ch)).contains '!' then do
    let (handle, after) ← tagHandle? c
    let (suffix, last) ← tagRest? after
    some (.tag (some handle) suffix, last)
  else do
    let (suffix, last) ← tagRest? next
    some (.tag (some "!") suffix, last)

def tag (s : Lexer) : Except Error Lexer := do
  let s ← s.noteCandidate
  let (t, next) ← orMalformed (tagAt? s.cursor)
  if !endsWord next.peek then throw .malformed
  return { s.emit [t] with cursor := next, keyAllowed := false }

/-- A number of a version. Its length is limited as that of other whole numbers is. -/
def versionNumber (c : Cursor) : Except Error (Nat × Cursor) :=
  let ds := c.rest.takeWhile Char.isDigit
  if ds.isEmpty then .error .malformed
  else if Text.wholeDigitLimit < ds.length then .error (.tooManyDigits ds.length)
  else .ok (Text.digitsValue (ds.filterMap Text.digitValue?), c.skip ds.length)

def version (c : Cursor) : Except Error (Token × Cursor) := do
  let (major, next) ← versionNumber (c.skipWhile (· == ' '))
  if next.peek ≠ some '.' then throw .malformed
  let (minor, last) ← versionNumber next.advance
  return (.versionDirective major minor, last)

def tagDirectiveAt? (c : Cursor) : Option (Token × Cursor) := do
  let c := c.skipWhile (· == ' ')
  if c.peek != some '!' then none
  else
    let (handle, after) ← tagHandle? c
    if after.peek != some ' ' then none
    else
      let (leading, last) ← tagRest? (after.skipWhile (· == ' '))
      some (.tagDirective handle leading, last)

def directive (s : Lexer) : Except Error Lexer := do
  let s ← (s.unwind (-1)).dropCandidate
  let name := s.cursor.advance.rest.takeWhile isNameChar
  let afterName := s.cursor.skip (name.length + 1)
  if name.isEmpty || !endsWord afterName.peek then throw .malformed
  let (t, next) ←
    if name = "YAML".toList then version afterName
    else if name = "TAG".toList then orMalformed (tagDirectiveAt? afterName)
    else .ok (.otherDirective, afterName.skipWhile (!isBreak ·))
  if !endsWord next.peek then throw .malformed
  let next ← orMalformed next.restOfLine?
  return { s.emit [t] with cursor := next, keyAllowed := false }

def blockText (s : Lexer) (folded : Bool) : Except Error Lexer := do
  let s ← { s with keyAllowed := true }.dropCandidate
  let (text, next) ← blockScalar folded s.indent s.cursor
  return { s.emit [.scalar false (String.ofList text)] with cursor := next }

def quotedText (s : Lexer) (double : Bool) : Except Error Lexer := do
  let s ← s.noteCandidate
  let (text, next) ← quotedScalar double s.cursor
  return { s.emit [.scalar false (String.ofList text)] with cursor := next, keyAllowed := false }

/-- A plain scalar. A line end after it lets a key start again. -/
def plainText (s : Lexer) : Except Error Lexer := do
  let s ← s.noteCandidate
  let p := plainScalar s.inFlow (s.indent + 1) s.cursor
  return { s.emit [.scalar true (String.ofList p.text)] with cursor := p.next, keyAllowed := p.broke }

/-- Whether a plain scalar starts with a character that another one follows. -/
def startsPlain (inFlow : Bool) (ch : Char) (next : Option Char) : Bool :=
  (!isGap (some ch) && !("-?:,[]\x7b\x7d#&*!|>'\"%@\x60".toList.contains ch)) ||
    (!isGap next && (ch == '-' || (!inFlow && (ch == '?' || ch == ':'))))

/-- The token that starts with a character. -/
def dispatch (s : Lexer) (ch : Char) : Except Error Lexer :=
  let next := s.cursor.peekAt 1
  let firstColumn := s.cursor.column == 0
  if ch = '%' ∧ firstColumn then s.directive
  else if firstColumn ∧ s.cursor.atMarker '-' then s.separator .documentStart
  else if firstColumn ∧ s.cursor.atMarker '.' then s.separator .documentEnd
  else if ch = '[' then s.openFlow .flowSequenceStart
  else if ch = '\x7b' then s.openFlow .flowMappingStart
  else if ch = ']' then s.closeFlow .flowSequenceEnd
  else if ch = '\x7d' then s.closeFlow .flowMappingEnd
  else if ch = ',' then s.flowEntry
  else if ch = '-' ∧ isGap next then s.blockEntry
  else if ch = '?' ∧ (s.inFlow ∨ isGap next) then s.explicitKey
  else if ch = ':' ∧ (s.inFlow ∨ isGap next) then s.value
  else if ch = '*' then s.anchor .alias
  else if ch = '&' then s.anchor .anchor
  else if ch = '!' then s.tag
  else if ch = '|' ∧ !s.inFlow then s.blockText false
  else if ch = '>' ∧ !s.inFlow then s.blockText true
  else if ch = '\'' then s.quotedText false
  else if ch = '"' then s.quotedText true
  else if startsPlain s.inFlow ch next then s.plainText
  else .error .malformed

/-- Read one token, or more at the end of a block. -/
def step (s : Lexer) : Except Error Lexer := do
  let s := skipToToken (s.length + 1) s.skipMark
  let s ← s.dropStale
  let s := s.unwind s.cursor.column
  match s.cursor.peek with
  | none => s.finish
  | some ch => s.dispatch ch

def readyIn : Nat → Lexer → Except Error Lexer
  | 0, _ => .error .malformed
  | fuel + 1, s => do
    if s.isDone then return s
    if s.tokens.isEmpty then readyIn fuel (← s.step)
    else
      let s ← s.dropStale
      if s.candidates.any (·.2.token == s.taken) then readyIn fuel (← s.step) else return s

/-- Read tokens until the first one is ready; every token but the last takes a character. -/
def ready (s : Lexer) : Except Error Lexer := readyIn (s.length + 2) s

def first (s : Lexer) : Token := s.tokens.headD .streamEnd

def drop (s : Lexer) : Lexer := { s with tokens := s.tokens.drop 1, taken := s.taken + 1 }

/-- The state at the start of a text, which must hold none but printable characters. -/
def ofText (s : String) : Except Error Lexer :=
  let cs := s.toList
  if (Text.codes cs).all isPrintable then .ok (.start cs) else .error .malformed

end Lexer
end Splice.Yaml
