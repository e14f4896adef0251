import Splice.Text.Blank

/-! # Paths

A path is a way through a tree of directories, as it was written: empty and `.` steps are dropped,
`..` steps stay. A location is where a path leads from a given directory, all steps taken.
-/

namespace Splice

/-- How a path begins: anywhere, at the top, or at the top with exactly two slashes. -/
inductive PathRoot where
  | none
  | one
  | two
  deriving DecidableEq, Repr

/-- A path as it was written. -/
structure Path where
  root : PathRoot
  parts : List String
  deriving DecidableEq, Repr

/-- The steps from the top to a place. -/
abbrev Location := List String

namespace Path

/-- The beginning of a text as a path. Three slashes or more are one. -/
def rootOf (cs : List Char) : PathRoot :=
  match (cs.takeWhile (· == '/')).length with
  | 0 => .none
  | 2 => .two
  | _ => .one

def isStep (part : String) : Bool := part != "" && part != "."

def ofText (s : String) : Path where
  root := rootOf s.toList
  parts := ((Text.splitRuns (· == '/') s.toList).map String.ofList).filter isStep

def rootText : PathRoot → String
  | .none => ""
  | .one => "/"
  | .two => "//"

/-- A path as text; the path without steps is a point. -/
def text (p : Path) : String :=
  if p.root = .none ∧ p.parts = [] then "." else rootText p.root ++ "/".intercalate p.parts

def isAbsolute (p : Path) : Bool := p.root != .none

/-- One path after another; an absolute one starts anew. -/
def join (a b : Path) : Path := if b.isAbsolute then b else ⟨a.root, a.parts ++ b.parts⟩

def parent (p : Path) : Path := ⟨p.root, p.parts.dropLast⟩

/-- Take one step from a place. At the top, `..` stays there. -/
def step (l : Location) (part : String) : Location :=
  if part = ".." then l.dropLast else l ++ [part]

/-- Where a path leads from a directory when every step is taken by its name alone. -/
def locate (here : Location) (p : Path) : Location :=
  p.parts.foldl step (if p.isAbsolute then [] else here)

def ofLocation (l : Location) : Path := ⟨.one, l⟩

end Path
end Splice
