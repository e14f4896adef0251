import Splice.Text.Blank
import Splice.Text.Lines
import Splice.Text.LowerCase
import Splice.Text.Search

/-! # Short diagnostics

What the engine writes when it fails is cut to one short line: the last lines with a word of failure,
those last that only repeat an option's value.
-/

namespace Splice.Diagnostic

/-- Words that lines about a failure have. -/
def keywords : List String :=
  ["error", "invalid", "failed", "no such", "not found", "cannot", "unable"]

/-- How lines begin that only repeat the value of an option. -/
def echoes : List String := ["failed to set value"]

def lineCount : Nat := 3

def lineLimit : Nat := 160

def limit : Nat := 500

/-- Cut a text to a number of characters; a cut text ends in three points. -/
def shorten (s : List Char) (limit : Nat) : List Char :=
  if s.length ≤ limit then s else s.take (limit - 3) ++ ['.', '.', '.']

def isFlagged (line : String) : Bool :=
  keywords.any fun word => Text.occursIn word.toList (Text.lower line).toList

def isEcho (line : String) : Bool :=
  echoes.any fun start => start.toList.isPrefixOf (Text.lower line).toList

/-- The lines of a text that are not blank, without the blanks around them. -/
def lines (s : String) : List String :=
  ((Text.lines s).map Text.trim).filter (!·.isEmpty)

def lastOf {α : Type} (n : Nat) (xs : List α) : List α := xs.drop (xs.length - n)

/-- The lines that are kept: the last of the best class that is not empty. -/
def chosen (lines : List String) : List String :=
  let flagged := lines.filter isFlagged
  let specific := flagged.filter (!isEcho ·)
  lastOf lineCount
    (if !specific.isEmpty then specific else if !flagged.isEmpty then flagged else lines)

def exitText (code : Option Int) : String :=
  "ffmpeg exited with code " ++ match code with
  | some n => toString n
  | none => "None"

def summary (stderr : Option String) (code : Option Int) : String :=
  let kept := (chosen (lines (stderr.getD ""))).map fun line => shorten line.toList lineLimit
  let joined := [';', ' '].intercalate kept
  String.ofList (shorten (if joined.isEmpty then (exitText code).toList else joined) limit)

end Splice.Diagnostic
