import Splice.Yaml.Error
import Splice.Yaml.Node.Basic

/-! # Merge keys

Under a merge key stands a mapping, or a sequence of mappings, whose entries a mapping takes over. They
come before its own entries, which win; of a sequence the earlier mappings win, so they come last. A
mapping may take over its own entries.
-/

namespace Splice.Yaml

/-- A step that changes the nodes of a document. -/
abbrev NodesM := StateT Nodes (Except Error)

namespace Nodes

/-- The first merge key of some entries, with the node under it and the entries without it. -/
def firstMerge? (g : Nodes) : List (Nat × Nat) → Option (Nat × List (Nat × Nat))
  | [] => none
  | (k, v) :: rest =>
    if g.tag k = .merge then some (v, rest)
    else (firstMerge? g rest).map fun (node, left) => (node, (k, v) :: left)

/-- How many merge keys the mappings hold. -/
def mergeCount (g : Nodes) : Nat :=
  g.foldl (fun n node =>
    match node.content with
    | .mapping entries => n + (entries.filter fun e => g.tag e.1 = .merge).length
    | _ => n) 0

/-- The key of a default value is just text where it stands in a mapping. -/
def settleDefaults (g : Nodes) (entries : List (Nat × Nat)) : Nodes :=
  entries.foldl (fun g e => if g.tag e.1 = .default then g.setTag e.1 .text else g) g

/-- The entries of a mapping; another node has none to take over. -/
def entriesOf (i : Nat) : NodesM (List (Nat × Nat)) := do
  match (← get).entries? i with
  | some entries => return entries
  | none => throw .malformed

/-- Take over the entries under the merge keys of a mapping, after some that are taken over. Each step
removes a merge key from the document. -/
def flattenIn : Nat → List (Nat × Nat) → Nat → NodesM Unit
  | 0, _, _ => throw .tooDeep
  | fuel + 1, taken, i => do
    let entries ← entriesOf i
    match (← get).firstMerge? entries with
    | none =>
      modify fun g => (g.settleDefaults entries).setContent i (.mapping (taken ++ entries))
    | some (under, left) =>
      modify fun g => g.setContent i (.mapping left)
      let sources ← match (← get).content under with
        | .mapping _ => pure [under]
        | .sequence items => pure items
        | .scalar _ => throw .malformed
      let found ← sources.mapM fun source => do
        let _ ← entriesOf source
        flattenIn fuel [] source
        entriesOf source
      flattenIn fuel (taken ++ found.reverse.flatten) i

/-- Take over the entries under the merge keys of a mapping. -/
def flatten (i : Nat) : NodesM Unit := do
  flattenIn ((← get).mergeCount + 1) [] i

end Nodes
end Splice.Yaml
