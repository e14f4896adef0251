import Splice.Yaml.Meaning

/-! # Nodes of a document

The nodes of a document stand in a table. A collection holds the numbers of its parts, so a node that an
alias names stands there once, and a collection may be reached from within itself.
-/

namespace Splice.Yaml

inductive Content where
  | scalar (text : String)
  | sequence (items : List Nat)
  | mapping (entries : List (Nat × Nat))
  deriving Inhabited

/-- A node with its kind. -/
structure Node where
  tag : Tag
  content : Content

/-- The nodes of a document by their numbers. -/
abbrev Nodes := Array Node

namespace Nodes

def tag (g : Nodes) (i : Nat) : Tag := (g[i]?.map (·.tag)).getD .unknown

def content (g : Nodes) (i : Nat) : Content := (g[i]?.map (·.content)).getD (.scalar "")

def setContent (g : Nodes) (i : Nat) (c : Content) : Nodes := g.modify i ({ · with content := c })

def setTag (g : Nodes) (i : Nat) (t : Tag) : Nodes := g.modify i ({ · with tag := t })

def entries? (g : Nodes) (i : Nat) : Option (List (Nat × Nat)) :=
  match g.content i with
  | .mapping entries => some entries
  | _ => none

end Nodes
end Splice.Yaml
