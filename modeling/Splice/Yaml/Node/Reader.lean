import Splice.Yaml.Node.Basic
import Splice.Yaml.Token.Lexer

/-! # Reading nodes

The tokens of a text are read into the nodes of its only document. A node has its number before its parts
are read, so an alias may name a collection around it.
-/

namespace Splice.Yaml

/-- What is left to read, and what is read so far. -/
structure NodeReader where
  lexer : Lexer
  nodes : Nodes
  anchors : List (String × Nat)
  handles : List (String × String)
  level : Nat

namespace NodeReader

/-- A reading step. -/
abbrev M := StateT NodeReader (Except Error)

def peek : M Token := do
  let s ← get
  let lexer ← s.lexer.ready
  set { s with lexer }
  return lexer.first

def drop : M Unit := modify fun s => { s with lexer := s.lexer.drop }

def nextIs (ts : List Token) : M Bool := do
  return ts.contains (← peek)

def expect (t : Token) : M Unit := do
  if (← peek) = t then drop else throw .malformed

/-- The most nodes that are open at once. -/
def levelLimit : Nat := 490

/-- Read something inside one more node. -/
def deeper {α : Type} (m : M α) : M α := do
  if levelLimit ≤ (← get).level then throw .tooDeep
  modify fun s => { s with level := s.level + 1 }
  let a ← m
  modify fun s => { s with level := s.level - 1 }
  return a

/-- The anchor and the tag in front of a node, in either order. -/
structure Properties where
  anchor : Option String
  tag : Option (Option String × String)

def properties : M Properties := do
  match ← peek with
  | .anchor name => do
    drop
    match ← peek with
    | .tag handle suffix => do
      drop
      return ⟨some name, some (handle, suffix)⟩
    | _ => return ⟨some name, none⟩
  | .tag handle suffix => do
    drop
    match ← peek with
    | .anchor name => do
      drop
      return ⟨some name, some (handle, suffix)⟩
    | _ => return ⟨none, some (handle, suffix)⟩
  | _ => return ⟨none, none⟩

/-- What is said of a node before its content. -/
structure Header where
  anchor : Option String
  hasTag : Bool
  /-- The full name of the tag; none for the mark alone, which leaves the kind open. -/
  tagName : Option String

namespace Header

def empty : Header := ⟨none, false, none⟩

/-- The kind of a collection: by its tag, or the usual one. -/
def collectionTag (h : Header) (usual : Tag) : Tag := (h.tagName.map Tag.ofName).getD usual

/-- The kind of a scalar: by its tag, else by its text if it is plain or its tag is the mark alone. -/
def scalarTag (h : Header) (isPlain : Bool) (text : String) : Tag :=
  match h.tagName with
  | some name => Tag.ofName name
  | none => if isPlain || h.hasTag then Tag.ofText text else .text

end Header

/-- Read the header of a node. The handle of its tag must be known. -/
def header : M Header := do
  let p ← properties
  match p.tag with
  | none => return ⟨p.anchor, false, none⟩
  | some (none, suffix) => return ⟨p.anchor, true, if suffix = "!" then none else some suffix⟩
  | some (some handle, suffix) =>
    match (← get).handles.lookup handle with
    | some leading => return ⟨p.anchor, true, some (leading ++ suffix)⟩
    | none => throw .malformed

/-- Give a node a number. Its anchor, which must be new, names it from now on. -/
def add (h : Header) (tag : Tag) (content : Content) : M Nat := do
  let s ← get
  let i := s.nodes.size
  let anchors ← match h.anchor with
    | none => pure s.anchors
    | some name =>
      if (s.anchors.lookup name).isSome then throw .malformed
      else pure ((name, i) :: s.anchors)
  set { s with nodes := s.nodes.push ⟨tag, content⟩, anchors }
  return i

def addScalar (h : Header) (isPlain : Bool) (text : String) : M Nat :=
  add h (h.scalarTag isPlain text) (.scalar text)

def addEmpty : M Nat := deeper (addScalar .empty true "")

/-- Add a collection, whose parts are read once it has its number. -/
def addCollection (h : Header) (usual : Tag) (parts : M Content) : M Nat := do
  let i ← add h (h.collectionTag usual) (.sequence [])
  let content ← parts
  modify fun s => { s with nodes := s.nodes.setContent i content }
  return i

/-- Add the node of which only a header is written, if there is one. -/
def addHeader (h : Header) : M Nat :=
  if h.anchor.isSome || h.hasTag then addScalar h true "" else throw .malformed

mutual
/-- Read a node. In a block there may be block collections, and a sequence of dashes that are not
indented where a mapping's value stands. -/
def node (block unindented : Bool) : Nat → M Nat
  | 0 => throw .malformed
  | fuel + 1 => deeper do
    match ← peek with
    | .alias name => do
      drop
      match (← get).anchors.lookup name with
      | some i => return i
      | none => throw .malformed
    | _ => do
      let h ← header
      match ← peek with
      | .scalar isPlain text => do
        drop
        addScalar h isPlain text
      | .flowSequenceStart => do
        drop
        addCollection h .sequence (.sequence <$> flowItems true fuel)
      | .flowMappingStart => do
        drop
        addCollection h .mapping (.mapping <$> flowEntries true fuel)
      | .blockEntry =>
        if unindented then addCollection h .sequence (.sequence <$> unindentedItems fuel)
        else addHeader h
      | .blockSequenceStart =>
        if block then do
          drop
          addCollection h .sequence (.sequence <$> blockItems fuel)
        else addHeader h
      | .blockMappingStart =>
        if block then do
          drop
          addCollection h .mapping (.mapping <$> blockEntries fuel)
        else addHeader h
      | _ => addHeader h

def blockItems : Nat → M (List Nat)
  | 0 => throw .malformed
  | fuel + 1 => do
    if ← nextIs [.blockEntry] then
      drop
      let item ← if ← nextIs [.blockEntry, .blockEnd] then addEmpty else node true false fuel
      return item :: (← blockItems fuel)
    else
      expect .blockEnd
      return []

/-- Read the items of a sequence that is not indented, as long as there are any. -/
def unindentedItems : Nat → M (List Nat)
  | 0 => throw .malformed
  | fuel + 1 => do
    if ← nextIs [.blockEntry] then
      drop
      let item ← if ← nextIs [.blockEntry, .key, .value, .blockEnd] then addEmpty
        else node true false fuel
      return item :: (← unindentedItems fuel)
    else return []

def blockEntries : Nat → M (List (Nat × Nat))
  | 0 => throw .malformed
  | fuel + 1 => do
    if ← nextIs [.key] then
      drop
      let key ← if ← nextIs [.key, .value, .blockEnd] then addEmpty else node true true fuel
      let value ← blockValue fuel
      return (key, value) :: (← blockEntries fuel)
    else
      expect .blockEnd
      return []

/-- Read the value of a block entry; it may be left out. -/
def blockValue : Nat → M Nat
  | 0 => throw .malformed
  | fuel + 1 => do
    if ← nextIs [.value] then
      drop
      if ← nextIs [.key, .value, .blockEnd] then addEmpty else node true true fuel
    else addEmpty

/-- Read the items between brackets to the closing one. A key makes a mapping of one entry. -/
def flowItems (first : Bool) : Nat → M (List Nat)
  | 0 => throw .malformed
  | fuel + 1 => do
    if ← nextIs [.flowSequenceEnd] then
      drop
      return []
    else
      if !first then expect .flowEntry
      if ← nextIs [.key] then
        let item ← deeper (addCollection .empty .mapping do
          drop
          let key ← if ← nextIs [.value, .flowEntry, .flowSequenceEnd] then addEmpty
            else node false false fuel
          let value ← flowValue [.flowEntry, .flowSequenceEnd] fuel
          return .mapping [(key, value)])
        return item :: (← flowItems false fuel)
      else if ← nextIs [.flowSequenceEnd] then
        drop
        return []
      else
        let item ← node false false fuel
        return item :: (← flowItems false fuel)

/-- Read the value of an entry between brackets; it may be left out before some tokens. -/
def flowValue (ends : List Token) : Nat → M Nat
  | 0 => throw .malformed
  | fuel + 1 => do
    if ← nextIs [.value] then
      drop
      if ← nextIs ends then addEmpty else node false false fuel
    else addEmpty

/-- Read the entries between braces to the closing one. -/
def flowEntries (first : Bool) : Nat → M (List (Nat × Nat))
  | 0 => throw .malformed
  | fuel + 1 => do
    if ← nextIs [.flowMappingEnd] then
      drop
      return []
    else
      if !first then expect .flowEntry
      if ← nextIs [.key] then
        drop
        let key ← if ← nextIs [.value, .flowEntry, .flowMappingEnd] then addEmpty
          else node false false fuel
        let value ← flowValue [.flowEntry, .flowMappingEnd] fuel
        return (key, value) :: (← flowEntries false fuel)
      else if ← nextIs [.flowMappingEnd] then
        drop
        return []
      else
        let key ← node false false fuel
        let value ← addEmpty
        return (key, value) :: (← flowEntries false fuel)
end

def isDocumentStart : Token → Bool
  | .versionDirective .. => true
  | .tagDirective .. => true
  | .otherDirective => true
  | .documentStart => true
  | .streamEnd => true
  | _ => false

def usualHandles : List (String × String) := [("!", "!"), ("!!", "tag:yaml.org,2002:")]

def directivesIn (versioned : Bool) : Nat → M Unit
  | 0 => throw .malformed
  | fuel + 1 => do
    match ← peek with
    | .versionDirective major _ => do
      if versioned || major != 1 then throw .malformed
      drop
      directivesIn true fuel
    | .tagDirective handle leading => do
      if ((← get).handles.lookup handle).isSome then throw .malformed
      drop
      modify fun s => { s with handles := (handle, leading) :: s.handles }
      directivesIn versioned fuel
    | .otherDirective => do
      drop
      directivesIn versioned fuel
    | _ => return

def documentStart (fuel : Nat) : M Unit := do
  modify fun s => { s with handles := [] }
  directivesIn false fuel
  modify fun s => { s with handles := s.handles ++ usualHandles }
  expect .documentStart

def dropEnds : Nat → M Unit
  | 0 => return
  | fuel + 1 => do
    if ← nextIs [.documentEnd] then
      drop
      dropEnds fuel

def document (fuel : Nat) : M (Option Nat) := do
  let first ← peek
  if first = .streamEnd then return none
  let root ←
    if isDocumentStart first then do
      documentStart fuel
      let next ← peek
      if isDocumentStart next || next = .documentEnd then addEmpty else node true false fuel
    else node true false fuel
  dropEnds fuel
  if (← peek) = .streamEnd then return some root
  documentStart fuel
  throw .malformed

end NodeReader

/-- The nodes of a text and the number of the outermost one; none if the text holds no document. -/
def Nodes.ofText (s : String) : Except Error (Nodes × Option Nat) := do
  let lexer ← Lexer.ofText s
  let fuel := 16 * (s.length + 2)
  let (root, reader) ← (NodeReader.document fuel).run ⟨lexer, #[], [], NodeReader.usualHandles, 0⟩
  return (reader.nodes, root)

end Splice.Yaml
