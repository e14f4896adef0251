import Splice.Value.Places
import Splice.Yaml.Node.Merge

/-! # Values of nodes

Scalars get their values at once. A collection is made empty and filled later: collections are filled in
the order in which they are made, so the parts of one are made before any part of these is. A node has one
value, wherever aliases name it; a collection within itself becomes a knot.
-/

namespace Splice.Yaml

/-- What is made of a node. Collections hold the numbers of their parts. -/
inductive Made where
  /-- A value; the word for not-a-number makes the same key wherever it stands. -/
  | scalar (v : Value) (isNaNWord : Bool)
  | list (items : List Nat)
  | pairs (entries : List (Nat × Nat))
  | set (items : List Nat)
  | mapping (entries : List (Nat × Nat))

/-- The text of a scalar; of a mapping, the text under its key of a default value. -/
def Nodes.text (g : Nodes) : Nat → Nat → Except Error String
  | 0, _ => .error .tooDeep
  | fuel + 1, i =>
    match g.content i with
    | .scalar s => .ok s
    | .sequence _ => .error .malformed
    | .mapping entries =>
      match entries.find? fun e => g.tag e.1 = .default with
      | some e => g.text fuel e.2
      | none => .error .malformed

/-- The value of a node of a scalar's kind. -/
def Nodes.scalar (g : Nodes) (i : Nat) : Except Error Made := do
  let tag := g.tag i
  if tag = .merge ∨ tag = .default ∨ tag = .unknown then throw .malformed
  let s ← g.text (g.size + 1) i
  if tag = .timestamp ∧ (g.entries? i).isSome then throw .dateOfMapping
  return .scalar (← tag.read s) (tag = .float && isNaNWord s)

/-- The nodes of a document with what is made of them so far. -/
structure Builder where
  nodes : Nodes
  made : Array (Option Made)
  order : Array Nat

namespace Builder

/-- A step of making values. -/
abbrev M := StateT Builder (Except Error)

def made? (b : Builder) (i : Nat) : Option Made := b.made[i]?.join

def setMade (i : Nat) (m : Made) : M Unit :=
  modify fun b => { b with made := b.made.setIfInBounds i (some m) }

/-- Make the value of a node, a collection without its parts. -/
def make (i : Nat) : M Made := do
  let b ← get
  match b.made? i with
  | some m => return m
  | none =>
    let collection (m : Made) : M Made := do
      setMade i m
      modify fun b => { b with order := b.order.push i }
      return m
    match b.nodes.tag i with
    | .sequence => collection (.list [])
    | .pairs => collection (.pairs [])
    | .set => collection (.set [])
    | .mapping => collection (.mapping [])
    | _ => do
      let m ← b.nodes.scalar i
      setMade i m
      return m

/-- Whether two things that are made are the same key. A number that is none is the same key only as
itself. -/
def isSameKey (i j : Nat) : Made → Made → Bool
  | .scalar a aIsWord, .scalar b bIsWord => i == j || (aIsWord && bIsWord) || Value.sameKey a b
  | _, _ => false

/-- Put an entry into a mapping: a new key goes to the end, a known key keeps its place. -/
def putEntry (b : Builder) (key value : Nat) : List (Nat × Nat) → List (Nat × Nat)
  | [] => [(key, value)]
  | (k, v) :: rest =>
    match b.made? k, b.made? key with
    | some m, some n =>
      if isSameKey k key m n then (k, value) :: rest else (k, v) :: b.putEntry key value rest
    | _, _ => (k, v) :: b.putEntry key value rest

/-- The entries of a mapping, after those that it takes over. Its keys must be no collections. -/
def mappingEntries (i : Nat) : M (List (Nat × Nat)) := do
  let b ← get
  let (_, nodes) ← (Nodes.flatten i).run b.nodes
  set { b with nodes }
  let entries := (nodes.entries? i).getD []
  entries.foldlM (fun done (key, value) => do
    match ← make key with
    | .scalar _ _ => pure ()
    | _ => throw .malformed
    let _ ← make value
    return (← get).putEntry key value done) []

def items (i : Nat) : M (List Nat) := do
  match (← get).nodes.content i with
  | .sequence items => return items
  | _ => throw .malformed

def onlyEntry (i : Nat) : M (Nat × Nat) := do
  match (← get).nodes.content i with
  | .mapping [entry] => return entry
  | _ => throw .malformed

def fill (i : Nat) : M Unit := do
  match (← get).made? i with
  | some (.list _) => do
    let items ← items i
    items.forM fun item => discard (make item)
    setMade i (.list items)
  | some (.pairs _) => do
    let entries ← (← items i).mapM fun item => do
      let (key, value) ← onlyEntry item
      let _ ← make key
      let _ ← make value
      return (key, value)
    setMade i (.pairs entries)
  | some (.set _) => do
    let entries ← mappingEntries i
    setMade i (.set (entries.map (·.1)))
  | some (.mapping _) => do
    let entries ← mappingEntries i
    setMade i (.mapping entries)
  | _ => return

/-- Fill the collections from a place in their order on. -/
def fillFrom : Nat → Nat → M Unit
  | 0, _ => return
  | fuel + 1, place => do
    match (← get).order[place]? with
    | none => return
    | some i => do
      fill i
      fillFrom fuel (place + 1)

/-- The value of a node inside some collections, with the ones of them that occur in it. Values without
such are kept. -/
def valueIn (b : Builder) :
    Nat → List Nat → Nat → StateM (Array (Option Value)) (Value × List Nat)
  | 0, _, _ => return (.null, [])
  | fuel + 1, around, i => do
    if around.contains i then return (.again i, [i])
    match (← get)[i]?.join with
    | some v => return (v, [])
    | none =>
      let parts (js : List Nat) := js.mapM (b.valueIn fuel (i :: around))
      let entries (es : List (Nat × Nat)) := es.mapM fun (k, v) => do
        let (key, inKey) ← b.valueIn fuel (i :: around) k
        let (value, inValue) ← b.valueIn fuel (i :: around) v
        return ((key, value), inKey ++ inValue)
      let (v, met) ← match b.made? i with
        | none => pure (Value.null, [])
        | some (.scalar v _) => pure (v, [])
        | some (.list js) => do
          let ps ← parts js
          pure (.list (ps.map (·.1)), ps.flatMap (·.2))
        | some (.set js) => do
          let ps ← parts js
          pure (Value.setOf (ps.map (·.1)), ps.flatMap (·.2))
        | some (.pairs es) => do
          let ps ← entries es
          pure (.pairs (ps.map (·.1)), ps.flatMap (·.2))
        | some (.mapping es) => do
          let ps ← entries es
          pure (.mapping (ps.map (·.1)), ps.flatMap (·.2))
      if met.isEmpty then
        modify (·.setIfInBounds i (some v))
        return (v, [])
      else return (.knot i v, met.eraseDups.filter (· != i))

end Builder

def Nodes.value (g : Nodes) (root : Nat) : Except Error Value := do
  let start : Builder := ⟨g, Array.replicate g.size none, #[]⟩
  let build : Builder.M Unit := do
    let _ ← Builder.make root
    Builder.fillFrom (g.size + 1) 0
  let (_, b) ← build.run start
  let ((v, _), _) := (b.valueIn (g.size + 1) [] root).run (Array.replicate g.size none)
  return v

end Splice.Yaml
