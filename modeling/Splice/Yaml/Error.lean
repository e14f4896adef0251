import Splice.Calendar
import Splice.Text.Quoted

/-! # Faults of a YAML text

Most faults are faults of form, which callers treat alike. The others come from scalars that look
like a date, a number or a character and are none, from tags that do not suit their scalars, and from
texts that are nested too deeply.
-/

namespace Splice.Yaml

/-- Why a text has no value. -/
inductive Error where
  /-- The text does not follow the grammar, or a node has no meaning. -/
  | malformed
  /-- A scalar of the form of a date or time that the calendar does not have. -/
  | calendar (e : CalendarError)
  /-- A text without digits of the given base under a number tag. -/
  | wholeNumber (base : Nat) (text : String)
  /-- More digits than a whole number is read from. -/
  | tooManyDigits (count : Nat)
  /-- A number tag on a text with neither a digit nor anything else. -/
  | noDigits
  /-- A number in sixties with so many parts that one of them has no weight. -/
  | tooManyParts
  /-- A numeric escape beyond the last character. -/
  | codePoint
  /-- A numeric escape that does not even fit a machine word. -/
  | hugeCodePoint
  /-- A text that is no decimal number under a number tag. -/
  | decimal (text : String)
  /-- A word that is no truth value under a truth tag. -/
  | truth (word : String)
  | noDate
  /-- A mapping with a default value under a date tag. -/
  | dateOfMapping
  | tooDeep
  deriving Repr

def cut (length : Nat) (s : String) : String := String.ofList (s.toList.take length)

def Error.message : Error → String
  | .malformed => "not valid YAML"
  | .calendar e => e.message
  | .wholeNumber base text =>
    "invalid literal for int() with base " ++ toString base ++ ": " ++ cut 200 (Text.quoted text)
  | .tooManyDigits n =>
    "Exceeds the limit (4300 digits) for integer string conversion: value has " ++ toString n ++
      " digits; use sys.set_int_max_str_digits() to increase the limit"
  | .noDigits => "string index out of range"
  | .tooManyParts => "int too large to convert to float"
  | .codePoint => "chr() arg not in range(0x110000)"
  | .hugeCodePoint => "Python int too large to convert to C int"
  | .decimal text => "could not convert string to float: " ++ Text.quoted text
  | .truth word => Text.quoted word
  | .noDate => "'NoneType' object has no attribute 'groupdict'"
  | .dateOfMapping => "expected string or bytes-like object, got 'list'"
  | .tooDeep => "maximum recursion depth exceeded"

end Splice.Yaml
