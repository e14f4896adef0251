import Splice.Text.Blank
import Splice.Text.LowerCase
import Splice.Value.Basic

/-! # Spellings of keys

Keys may be written with underscores, with hyphens or in camel case, and some have a second name.
`canonicalKey` brings every spelling to one name.
-/

namespace Splice.EditConfig

/-- A small letter or digit of the basic alphabet: what a camel-case capital follows. -/
def endsSegment (c : Char) : Bool := c.isLower || c.isDigit

/-- Put an underscore before each capital of the basic alphabet that follows a small letter or
digit. -/
def splitHumps (afterSmall : Bool) : List Char → List Char
  | [] => []
  | c :: rest =>
    if afterSmall && c.isUpper then '_' :: c :: splitHumps (endsSegment c) rest
    else c :: splitHumps (endsSegment c) rest

def underscore (c : Char) : Char := if c = '-' then '_' else c

/-- A key in small letters with underscores. -/
def snake (key : String) : String :=
  String.ofList
    ((Text.lowerFrom [] (splitHumps false (Text.trimList Text.isBlank key.toList))).map underscore)

/-- Second names of keys. -/
def aliases : List (String × String) :=
  [("start_time", "start"), ("end_time", "end"), ("type", "kind"), ("full_clip", "use_full_clip"),
    ("size", "font_size"), ("font_weight", "weight"), ("x", "x_percent"), ("y", "y_percent")]

def canonicalKey (key : String) : String :=
  let name := snake key
  (aliases.lookup name).getD name

/-- A mapping whose keys have their canonical names, in the order written. -/
abbrev Section := List (String × Value)

/-- The value of a name. Of several spellings of a name the last one counts. -/
def Section.get? (s : Section) (name : String) : Option Value :=
  s.reverse.lookup name

/-- The section of a mapping, or its first key that is not text. -/
def canonicalEntries : List (Value × Value) → Except Value Section
  | [] => .ok []
  | (.text key, v) :: rest => (canonicalEntries rest).map ((canonicalKey key, v) :: ·)
  | (key, _) :: _ => .error key

end Splice.EditConfig
