import Splice.Log.Record
import Splice.Path

/-! # Where log records go

A record is taken if its weight reaches the threshold. It is written once for every outlet: the
console, which is set up at most once, and every file that was named, as often as it was named.
-/

namespace Splice.Log

/-- The outlets of the log. -/
structure Outlet where
  threshold : Int := Level.debug.weight
  console : Bool := false
  files : List Location := []

namespace Outlet

def isEnabled (o : Outlet) (weight : Int) : Bool := decide (0 < weight) && decide (o.threshold ≤ weight)

def count (o : Outlet) : Nat := (if o.console then 1 else 0) + o.files.length

/-- Set the threshold and make sure that the console shows records. A threshold of zero counts as
none, and then the setting of the environment names it. -/
def setUp (o : Outlet) (threshold : Option Int) (setting : Option String) : Outlet :=
  { o with
    threshold := match threshold.filter (· != 0) with
      | some weight => weight
      | none => weightOf setting
    console := true }

def addFile (o : Outlet) (l : Location) : Outlet := { o with files := o.files ++ [l] }

/-- The files that a record is written to, one for each time it was named. -/
def filesFor (o : Outlet) (weight : Int) : List Location :=
  if Level.debug.weight ≤ weight then o.files else []

end Outlet

def rootLogger : String := "hookcut"

/-- Whether a logger is the root or below it. -/
def isOwn (logger : String) : Bool := logger == rootLogger || logger.startsWith (rootLogger ++ ".")

structure Source where
  logger : String
  /-- The number that files show after the logger's name. -/
  line : Int

end Splice.Log
