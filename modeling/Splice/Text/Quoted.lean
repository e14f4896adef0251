import Splice.Text.PrintableTable
import Splice.Text.Surrogate

/-! # Quoted literals

A text in messages stands between single quotes, or between double quotes if it holds a single and
no double one. The quote, the backslash, characters without a picture and surrogates that stand alone
are escaped.
-/

namespace Splice.Text

/-- The lower-case hexadecimal digits of a number, at least `width` of them. -/
def hex (width n : Nat) : List Char :=
  let digits := Nat.toDigits 16 n
  List.replicate (width - digits.length) '0' ++ digits

def quoteChar (quote c : Char) : List Char :=
  if c = quote || c = '\\' then ['\\', c]
  else if c = '\n' then ['\\', 'n']
  else if c = '\r' then ['\\', 'r']
  else if c = '\t' then ['\\', 't']
  else if unprintableCharacters.contains c then
    let n := c.toNat
    if n < 0x100 then '\\' :: 'x' :: hex 2 n
    else if n < 0x10000 then '\\' :: 'u' :: hex 4 n
    else '\\' :: 'U' :: hex 8 n
  else [c]

/-- A code point inside a literal with the given quote. -/
def quoteCode (quote : Char) (code : Nat) : List Char :=
  if isSurrogate code then '\\' :: 'u' :: hex 4 code else quoteChar quote (Char.ofNat code)

def quoteOf (cs : List Char) : Char :=
  if cs.contains '\'' && !cs.contains '"' then '"' else '\''

def quoted (s : String) : String :=
  let cs := s.toList
  let quote := quoteOf cs
  String.ofList (quote :: (codes cs).flatMap (quoteCode quote) ++ [quote])

/-- Texts as literals between brackets. -/
def quotedList (items : List String) : String :=
  "[" ++ ", ".intercalate (items.map quoted) ++ "]"

end Splice.Text
