import Splice.Text.Digit
import Splice.Text.Quoted

/-! # Filter graphs

A graph is a list of chains. A chain reads pads and writes pads; a pad is an input stream of the
engine or the output of an earlier chain. Before a graph is written it is checked that every pad is
written once, by an earlier chain, and read once.
-/

namespace Splice

/-- One chain: the pads it reads, its filters, and the pads it writes. -/
structure Chain where
  inputs : List String
  filters : List String
  outputs : List String
  deriving DecidableEq, Repr

def padText (pad : String) : String := "[" ++ pad ++ "]"

/-- A chain as the engine reads it. -/
def Chain.text (c : Chain) : String :=
  String.join (c.inputs.map padText) ++ ",".intercalate c.filters ++
    String.join (c.outputs.map padText)

/-- A graph under construction. -/
structure FilterGraph where
  inputCount : Int
  chains : List Chain := []
  /-- The pads that go to the output. -/
  mapped : List String := []
  /-- How many pads each stem has given. -/
  counters : List (String × Nat) := []

namespace FilterGraph

def outputVideo : String := "outv"

def outputAudio : String := "outa"

inductive Fault where
  | noInput (index inputCount : Int)
  | emptyChain (inputs outputs : List String)
  | undeclared (chain : Nat) (pad : String)
  | consumedTwice (pad : String)
  | producedTwice (pad : String)
  | undeclaredMap (pad : String)
  | unused (pads : List String)
  deriving DecidableEq, Repr

def Fault.message : Fault → String
  | .noInput index count =>
    "input #" ++ toString index ++ " does not exist (" ++ toString count ++ " inputs)"
  | .emptyChain inputs outputs =>
    "empty filter chain " ++ Text.quotedList inputs ++ " -> " ++ Text.quotedList outputs
  | .undeclared chain pad =>
    "chain " ++ toString chain ++ " references " ++ padText pad ++ " before it was declared"
  | .consumedTwice pad => "pad " ++ padText pad ++ " is consumed more than once"
  | .producedTwice pad => "pad " ++ padText pad ++ " is produced more than once"
  | .undeclaredMap pad => "output map references undeclared pad " ++ padText pad
  | .unused pads => "declared pad(s) never used: " ++ Text.quotedList pads

/-- Whether a text ends as the label of a stream does, after its number. -/
def endsStream : List Char → Bool
  | [':', m] => m == 'v' || m == 'a'
  | [':', m, '\n'] => m == 'v' || m == 'a'
  | _ => false

/-- Whether a pad is an input stream: a number, a colon, and `v` or `a`. A line feed may follow. -/
def isInputStream (pad : String) : Bool :=
  let cs := pad.toList
  cs.head?.any Text.isDigit && endsStream (cs.dropWhile Text.isDigit)

def inputStream (g : FilterGraph) (index : Int) (media : String) : Except Fault String :=
  if 0 ≤ index ∧ index < g.inputCount then .ok (toString index ++ ":" ++ media)
  else .error (.noInput index g.inputCount)

def count (g : FilterGraph) (stem : String) : Nat := (g.counters.lookup stem).getD 0

/-- The next pad of a stem: the stem and a number. -/
def newPad (g : FilterGraph) (stem : String) : String × FilterGraph :=
  (stem ++ toString (g.count stem),
    { g with counters := (stem, g.count stem + 1) :: g.counters })

/-- Add a chain; empty filters are left out, but one must remain. -/
def add (g : FilterGraph) (inputs filters outputs : List String) :
    Except Fault (Chain × FilterGraph) :=
  let filters := filters.filter (!·.isEmpty)
  if filters.isEmpty then .error (.emptyChain inputs outputs)
  else
    let c : Chain := ⟨inputs, filters, outputs⟩
    .ok (c, { g with chains := g.chains ++ [c] })

def map (g : FilterGraph) (pad : String) : FilterGraph := { g with mapped := g.mapped ++ [pad] }

/-- The pads written and read so far. -/
structure Ledger where
  produced : List String := []
  consumed : List String := []

/-- Read a pad for the first time. -/
def Ledger.consume (l : Ledger) (pad : String) : Except Fault Ledger :=
  if l.consumed.contains pad then .error (.consumedTwice pad)
  else .ok { l with consumed := l.consumed ++ [pad] }

def Ledger.input (chain : Nat) (l : Ledger) (pad : String) : Except Fault Ledger :=
  if isInputStream pad || l.produced.contains pad then l.consume pad
  else .error (.undeclared chain pad)

def Ledger.output (l : Ledger) (pad : String) : Except Fault Ledger :=
  if l.produced.contains pad || isInputStream pad then .error (.producedTwice pad)
  else .ok { l with produced := l.produced ++ [pad] }

/-- Read the inputs of a chain, then write its outputs. -/
def Ledger.chain (l : Ledger) (number : Nat) (c : Chain) : Except Fault Ledger := do
  let l ← c.inputs.foldlM (Ledger.input number) l
  c.outputs.foldlM Ledger.output l

/-- Go through the chains, numbered from `number`. -/
def Ledger.chains (l : Ledger) (number : Nat) : List Chain → Except Fault Ledger
  | [] => .ok l
  | c :: rest => do
    let l ← l.chain number c
    l.chains (number + 1) rest

def Ledger.send (l : Ledger) (pad : String) : Except Fault Ledger :=
  if l.produced.contains pad then l.consume pad else .error (.undeclaredMap pad)

def check (g : FilterGraph) : Except Fault Unit := do
  let l ← ({} : Ledger).chains 0 g.chains
  let l ← g.mapped.foldlM Ledger.send l
  let unused := (l.produced.filter (!l.consumed.contains ·)).mergeSort (fun a b => decide (a ≤ b))
  if unused.isEmpty then return () else throw (.unused unused)

/-- A checked graph as the engine reads it. -/
def text (g : FilterGraph) : Except Fault String := do
  g.check
  return ";".intercalate (g.chains.map Chain.text)

end FilterGraph
end Splice
