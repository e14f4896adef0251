import Splice.Calendar

/-! # Log records

A record has a level, a logger's name and a message. The console shows information bare and all else
with its time and level; a file shows every part.
-/

namespace Splice.Log

/-- The levels with names; a level is a number, and higher ones weigh more. -/
inductive Level where
  | debug
  | info
  | warning
  | error
  | critical
  deriving DecidableEq, Repr

def Level.all : List Level := [.debug, .info, .warning, .error, .critical]

def Level.weight : Level → Int
  | .debug => 10
  | .info => 20
  | .warning => 30
  | .error => 40
  | .critical => 50

def Level.name : Level → String
  | .debug => "DEBUG"
  | .info => "INFO"
  | .warning => "WARNING"
  | .error => "ERROR"
  | .critical => "CRITICAL"

def Level.ofWeight? (weight : Int) : Option Level := Level.all.find? (·.weight == weight)

def weightName (weight : Int) : String :=
  match Level.ofWeight? weight with
  | some level => level.name
  | none => "Level " ++ toString weight

/-- The capital of a letter that names of levels have. The small letter i without a dot has the same
capital as i. -/
def capital (c : Char) : Char := if c = 'ı' then 'I' else c.toUpper

/-- The weight that a setting names in any case; information if there is none or it is unknown. -/
def weightOf (setting : Option String) : Int :=
  match setting with
  | none => Level.info.weight
  | some s =>
    let name := String.ofList (s.toList.map capital)
    ((Level.all.find? (·.name == name)).getD .info).weight

/-- One event. -/
structure Record where
  logger : String
  weight : Int
  message : String
  line : Int
  second : Int

/-- The time of day of a record. -/
def Record.clock (r : Record) : String :=
  String.ofList ((Instant.timeOfMicros (1000000 * (r.second % 86400).toNat)).chars)

def epoch : Int := 62135596800

def Record.date (r : Record) : String :=
  String.ofList (Date.ofDays ((epoch + r.second) / 86400).toNat).chars

def Record.consoleText (r : Record) : String :=
  match Level.ofWeight? r.weight with
  | some .debug => r.clock ++ " [DEBUG] " ++ r.logger ++ ": " ++ r.message
  | some .warning => r.clock ++ " [WARN] " ++ r.message
  | some .error => r.clock ++ " [ERROR] " ++ r.message
  | some .critical => r.clock ++ " [CRITICAL] " ++ r.message
  | _ => r.message

/-- A text with spaces behind it, up to `width`. -/
def spaced (width : Nat) (s : String) : String :=
  s ++ String.ofList (List.replicate (width - s.length) ' ')

def Record.fileText (r : Record) : String :=
  r.date ++ " " ++ r.clock ++ " | " ++ spaced 8 (weightName r.weight) ++ " | " ++ r.logger ++ ":" ++
    toString r.line ++ " | " ++ r.message

end Splice.Log
