import Splice.Text.Digit
import Splice.Text.Quoted

/-! # Command lines

A command knows some options and perhaps a list of plain arguments. Long options may be cut short as
long as only one fits, and may have their value after an equals sign. After `--` everything is plain.
-/

namespace Splice.Command

/-- What an option asks for. -/
inductive OptionKind where
  | help
  | flag
  | value
  deriving DecidableEq, Repr

structure CommandOption where
  names : List String
  kind : OptionKind
  required : Bool := false
  deriving DecidableEq, Repr

/-- The names of an option in messages. -/
def CommandOption.title (o : CommandOption) : String := "/".intercalate o.names

/-- What a command knows. -/
structure Grammar where
  options : List CommandOption
  /-- The name of the list of plain arguments, if there is one. -/
  plain : Option String := none

/-- What stands behind the name of an option in the same argument. -/
inductive Attached where
  | nothing
  | value (s : String)
  /-- The letters directly behind a short option. -/
  | letters (s : String)
  deriving DecidableEq, Repr

inductive Token where
  | separator
  | plain (s : String)
  | known (o : CommandOption) (name : String) (attached : Attached)
  | unknown (s : String)
  deriving DecidableEq, Repr

/-- A text before its first equals sign, and what is attached by it. -/
def splitValue (s : String) : String × Attached :=
  let cs := s.toList
  (String.ofList (cs.takeWhile (· != '=')),
    match cs.dropWhile (· != '=') with
    | [] => .nothing
    | _ :: value => .value (String.ofList value))

def Grammar.names (g : Grammar) : List (String × CommandOption) :=
  g.options.flatMap fun o => o.names.map fun n => (n, o)

def Grammar.option? (g : Grammar) (name : String) : Option CommandOption := g.names.lookup name

/-- The options that an argument may be short for, with what is attached. -/
def Grammar.candidates (g : Grammar) (s : String) : List (CommandOption × String × Attached) :=
  if s.startsWith "--" then
    let (start, attached) := splitValue s
    (g.names.filter fun n => n.1.startsWith start).map fun n => (n.2, n.1, attached)
  else
    let short := String.ofList (s.toList.take 2)
    let letters := String.ofList (s.toList.drop 2)
    g.names.filterMap fun n =>
      if n.1 = short then some (n.2, n.1, .letters letters)
      else if n.1.startsWith s then some (n.2, n.1, .nothing)
      else none

def isNegative (s : String) : Bool :=
  match s.toList with
  | '-' :: rest =>
    let digits := rest.takeWhile Text.isDigit
    match rest.dropWhile Text.isDigit with
    | [] => !digits.isEmpty
    | ['\n'] => !digits.isEmpty
    | '.' :: more =>
      let tail := more.dropWhile Text.isDigit
      more.head?.any Text.isDigit && (tail.isEmpty || tail == ['\n'])
    | _ => false
  | _ => false

/-- The form of an argument that is no separator. -/
def Grammar.classify (g : Grammar) (s : String) : Except String Token :=
  if !s.startsWith "-" || s = "-" then .ok (.plain s)
  else
    match g.option? s with
    | some o => .ok (.known o s .nothing)
    | none =>
      let (name, attached) := splitValue s
      match if attached = .nothing then none else g.option? name with
      | some o => .ok (.known o name attached)
      | none =>
        match g.candidates s with
        | [(o, name, attached)] => .ok (.known o name attached)
        | [] => .ok (if isNegative s || s.toList.contains ' ' then .plain s else .unknown s)
        | several =>
          .error ("ambiguous option: " ++ s ++ " could match " ++
            ", ".intercalate (several.map (·.2.1)))

def Grammar.tokens (g : Grammar) : List String → Except String (List Token)
  | [] => .ok []
  | s :: rest =>
    if s = "--" then .ok (.separator :: rest.map .plain)
    else do
      let t ← g.classify s
      return t :: (← g.tokens rest)

/-- What was read of a command line. -/
structure Reading where
  values : List (CommandOption × String) := []
  flags : List CommandOption := []
  plain : Option (List String) := none
  extras : List String := []
  /-- Plain arguments and separators that wait for what follows. -/
  waiting : List Token := []

def Token.text : Token → String
  | .plain s => s
  | .unknown s => s
  | .separator => "--"
  | .known _ name _ => name

/-- The plain arguments of a run; the separator is left out. -/
def withoutSeparator : List Token → List String
  | [] => []
  | .separator :: rest => rest.map Token.text
  | t :: rest => t.text :: withoutSeparator rest

def Token.isPlain : Token → Bool
  | .plain _ => true
  | _ => false

/-- Give the waiting arguments to the list of plain arguments, if the command has one and it was not
read yet; else they are left over. -/
def Reading.settle (r : Reading) (g : Grammar) : Reading :=
  if g.plain.isSome && r.plain.isNone && r.waiting.any Token.isPlain then
    { r with plain := some (withoutSeparator r.waiting), waiting := [] }
  else { r with extras := r.extras ++ r.waiting.map Token.text, waiting := [] }

inductive Stop where
  | help
  | wrong (message : String)
  deriving DecidableEq, Repr

def argumentError (title text : String) : Stop :=
  .wrong ("argument " ++ title ++ ": " ++ text)

/-- A value that an option does not take. -/
def ignoredValue (o : CommandOption) (value : String) : Stop :=
  argumentError o.title ("ignored explicit argument " ++ Text.quoted value)

/-- Read the letters behind a short option: each is a short option too, up to the first that is
unknown. No short option has a value. -/
def readLetters (g : Grammar) (o : CommandOption) : List Char → Reading → Except Stop Reading
  | [], r => .ok { r with flags := o :: r.flags }
  | '=' :: value, _ => .error (ignoredValue o (String.ofList value))
  | '-' :: rest, _ => .error (ignoredValue o (String.ofList ('-' :: rest)))
  | c :: rest, r =>
    let r := { r with flags := o :: r.flags }
    match g.option? (String.ofList ['-', c]) with
    | some next => readLetters g next rest r
    | none => .ok { r with extras := r.extras ++ [String.ofList ('-' :: c :: rest)] }

def takeSwitch (g : Grammar) (o : CommandOption) (attached : Attached) (r : Reading) :
    Except Stop Reading := do
  let r ← match attached with
    | .nothing => pure { r with flags := o :: r.flags }
    | .value v => throw (ignoredValue o v)
    | .letters s => readLetters g o s.toList r
  if r.flags.any (·.kind == .help) then throw .help
  return r

def Grammar.readTokens (g : Grammar) : List Token → Reading → Except Stop Reading
  | [], r => .ok (r.settle g)
  | .known o _ attached :: rest, r =>
    let r := r.settle g
    if o.kind = .value then
      match attached, rest with
      | .value v, rest => g.readTokens rest { r with values := (o, v) :: r.values }
      | _, .plain v :: rest => g.readTokens rest { r with values := (o, v) :: r.values }
      | _, _ => .error (argumentError o.title "expected one argument")
    else
      match takeSwitch g o attached r with
      | .ok r => g.readTokens rest r
      | .error e => .error e
  | .unknown s :: rest, r =>
    let r := r.settle g
    g.readTokens rest { r with extras := r.extras ++ [s] }
  | t :: rest, r => g.readTokens rest { r with waiting := r.waiting ++ [t] }

/-- The names of what is required and was not given. -/
def Grammar.missing (g : Grammar) (r : Reading) : List String :=
  ((g.options.filter fun o => o.required && !(r.values.any (·.1 == o))).map CommandOption.title) ++
    (if r.plain.isNone then g.plain.toList else [])

/-- Read a command line that must be understood as a whole. -/
def Grammar.read (g : Grammar) (arguments : List String) : Except Stop Reading := do
  let tokens ← match g.tokens arguments with
    | .ok tokens => pure tokens
    | .error message => throw (.wrong message)
  let r ← g.readTokens tokens {}
  let missing := g.missing r
  if !missing.isEmpty then
    throw (.wrong ("the following arguments are required: " ++ ", ".intercalate missing))
  if !r.extras.isEmpty then throw (.wrong ("unrecognized arguments: " ++ " ".intercalate r.extras))
  return r

/-- The last value that was given for an option, by its long name. -/
def Reading.value? (r : Reading) (name : String) : Option String :=
  (r.values.find? fun v => v.1.names.contains name).map (·.2)

def Reading.hasFlag (r : Reading) (name : String) : Bool := r.flags.any (·.names.contains name)

end Splice.Command
