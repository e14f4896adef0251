import Splice.Yaml.Node.Reader
import Splice.Yaml.Node.Value

/-! # The value of a YAML text

A text holds at most one document. Its nodes are read in full before values are made of them.
-/

namespace Splice.Yaml

/-- The value of a text; null if it holds no document. -/
def read (s : String) : Except Error Value := do
  let (nodes, root) ← Nodes.ofText s
  match root with
  | none => return .null
  | some i => nodes.value i

end Splice.Yaml
