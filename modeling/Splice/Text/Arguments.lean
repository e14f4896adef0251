/-! # Argument lists as one text

Arguments are joined by spaces. An argument that is empty or has a blank stands in quotes; a quote has
a backslash before it, and backslashes right before a quote are doubled.
-/

namespace Splice.Text

/-- Write characters after `pending` backslashes that are not yet written. -/
def argumentFrom (wrapped : Bool) : Nat → List Char → List Char
  | pending, [] => List.replicate (if wrapped then 2 * pending else pending) '\\'
  | pending, c :: rest =>
    if c = '\\' then argumentFrom wrapped (pending + 1) rest
    else if c = '"' then
      List.replicate (2 * pending + 1) '\\' ++ '"' :: argumentFrom wrapped 0 rest
    else List.replicate pending '\\' ++ c :: argumentFrom wrapped 0 rest

def needsQuotes (cs : List Char) : Bool := cs.isEmpty || cs.contains ' ' || cs.contains '\t'

def argument (s : String) : String :=
  let cs := s.toList
  let body := argumentFrom (needsQuotes cs) 0 cs
  String.ofList (if needsQuotes cs then '"' :: body ++ ['"'] else body)

def argumentList (arguments : List String) : String := " ".intercalate (arguments.map argument)

end Splice.Text
