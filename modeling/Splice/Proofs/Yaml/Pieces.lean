import Splice.Proofs.Yaml.Streams
import Splice.Proofs.Yaml.Words

/-! # Values in brackets

A value of lists, mappings and scalars as pieces of a text. A value can be read if each scalar in it can,
its keys are texts that differ and are short enough.
-/

namespace Splice.Yaml

/-- The text of a key. -/
def keyName (k : Value) : String := (Json.keyText k).toOption.getD ""

theorem keyName_eq {k : Value} {s : String} (h : Json.keyText k = .ok s) : keyName k = s := by
  rw [keyName, h]
  rfl

mutual
/-- The pieces of a value. -/
def pieces : Value → List Item
  | .list items => .opens false :: listPieces true items
  | .mapping entries => .opens true :: entryPieces true entries
  | v => [scalarPiece v]

/-- The pieces of items up to the closing bracket, the first of them without a comma in front of it. -/
def listPieces (first : Bool) : List Value → List Item
  | [] => [.closes false]
  | v :: rest => (if first then [] else [.comma]) ++ (pieces v ++ listPieces false rest)

/-- The pieces of entries up to the closing brace. -/
def entryPieces (first : Bool) : List (Value × Value) → List Item
  | [] => [.closes true]
  | (k, v) :: rest =>
    (if first then [] else [.comma]) ++ (.key (keyName k) :: .colon :: (pieces v ++ entryPieces false rest))
end

mutual
/-- What the pieces of a value are read as: keys are texts. -/
def kept : Value → Value
  | .list items => .list (keptItems items)
  | .mapping entries => .mapping (keptEntries entries)
  | v => keptScalar v

def keptItems : List Value → List Value
  | [] => []
  | v :: rest => kept v :: keptItems rest

def keptEntries : List (Value × Value) → List (Value × Value)
  | [] => []
  | (k, v) :: rest => (.text (keyName k), kept v) :: keptEntries rest
end

mutual
/-- A value that can be written and read back: so can its scalars, and the texts of its keys differ and
are short enough. -/
def Readable : Value → Prop
  | .list items => ReadableItems items
  | .mapping entries => ReadableEntries entries
  | v => IsShared v

def ReadableItems : List Value → Prop
  | [] => True
  | v :: rest => Readable v ∧ ReadableItems rest

def ReadableEntries : List (Value × Value) → Prop
  | [] => True
  | (k, v) :: rest =>
    (∃ s, Json.keyText k = .ok s ∧ Text.IsBasic s ∧ (Json.quote s).length ≤ 1024) ∧
      (∀ e ∈ rest, keyName e.1 ≠ keyName k) ∧ Readable v ∧ ReadableEntries rest
end

/-- Keys whose texts differ are kept apart. -/
theorem keptEntries_ne {k : Value} {entries : List (Value × Value)}
    (h : ∀ e ∈ entries, keyName e.1 ≠ keyName k) :
    ∀ e ∈ keptEntries entries, e.1 ≠ .text (keyName k) := by
  induction entries with
  | nil => exact List.forall_mem_nil _
  | cons d entries ih =>
      rw [List.forall_mem_cons] at h
      rw [keptEntries, List.forall_mem_cons]
      exact ⟨fun same => h.1 (Value.text.inj same), ih h.2⟩

mutual
/-- How deeply a value is nested; a scalar counts as one. -/
def height : Value → Nat
  | .list items => heightOfItems items + 1
  | .mapping entries => heightOfEntries entries + 1
  | _ => 1

def heightOfItems : List Value → Nat
  | [] => 0
  | v :: rest => max (height v) (heightOfItems rest)

def heightOfEntries : List (Value × Value) → Nat
  | [] => 0
  | (_, v) :: rest => max (height v) (heightOfEntries rest)
end

/-- A value that is no list and no mapping. -/
def IsLeaf : Value → Prop
  | .list _ => False
  | .mapping _ => False
  | _ => True

section

variable {v : Value}

theorem pieces_leaf (h : IsLeaf v) : pieces v = [scalarPiece v] := by
  cases v <;> first | rfl | cases h

theorem kept_leaf (h : IsLeaf v) : kept v = keptScalar v := by
  cases v <;> first | rfl | cases h

theorem readable_leaf (leaf : IsLeaf v) (h : Readable v) : IsReadable v := by
  apply IsShared.isReadable
  cases v <;> first | exact h | cases leaf

theorem isLeaf_kept (leaf : IsLeaf v) : IsLeaf (kept v) := by
  rw [kept_leaf leaf]
  cases v with
  | float x =>
      rw [keptScalar]
      split <;> trivial
  | list => cases leaf
  | mapping => cases leaf
  | _ => trivial

end

theorem height_pos (v : Value) : 0 < height v := by
  cases v <;> exact Nat.succ_pos _

/-- What stands after a value: a comma or the end of what is around it. -/
def EndsValue (rest : List Item) : Prop := ∃ next more, rest = next :: more ∧ next.endsPlain = true

theorem follows_leaf {depth : Nat} {allowed : Bool} {v : Value} (leaf : IsLeaf v) (h : Readable v)
    {rest : List Item} (ends : EndsValue rest) (next : Follows (depth + 1) false rest) :
    Follows (depth + 1) allowed (pieces v ++ rest) := by
  obtain ⟨mark, more, rfl, ended⟩ := ends
  have h := readable_leaf leaf h
  rw [IsReadable] at h
  rw [pieces_leaf leaf, List.singleton_append]
  split at h
  · rename_i w found
    rw [found]
    exact .word h.1 ended next
  · rename_i s found
    rw [found]
    exact .quoted h.1 next
  · cases h

theorem endsValue_listPieces (items : List Value) (rest : List Item) :
    EndsValue (listPieces false items ++ rest) := by
  cases items with
  | nil => exact ⟨_, rest, rfl, rfl⟩
  | cons v items => exact ⟨_, _, rfl, rfl⟩

theorem endsValue_entryPieces (entries : List (Value × Value)) (rest : List Item) :
    EndsValue (entryPieces false entries ++ rest) := by
  cases entries with
  | nil => exact ⟨_, rest, rfl, rfl⟩
  | cons e entries => exact ⟨_, _, rfl, rfl⟩

mutual
/-- The pieces of a value may stand where something follows that ends a value. -/
theorem follows_pieces {depth : Nat} {allowed : Bool} {v : Value} (h : Readable v) {rest : List Item}
    (ends : EndsValue rest) (next : Follows (depth + 1) false rest) :
    Follows (depth + 1) allowed (pieces v ++ rest) := by
  cases v with
  | list items =>
      rw [pieces, List.cons_append]
      exact .opens (follows_listPieces true h next)
  | mapping entries =>
      rw [pieces, List.cons_append]
      exact .opens (follows_entryPieces true h next)
  | _ => exact follows_leaf (by trivial) h ends next

theorem follows_listPieces {depth : Nat} {items : List Value} (first : Bool) (h : ReadableItems items)
    {rest : List Item} (next : Follows depth false rest) :
    Follows (depth + 1) first (listPieces first items ++ rest) := by
  cases items with
  | nil => exact .closes next
  | cons v items =>
      have more (allowed : Bool) :
        Follows (depth + 1) allowed (pieces v ++ (listPieces false items ++ rest)) :=
        follows_pieces h.1 (endsValue_listPieces items rest) (follows_listPieces false h.2 next)
      rw [listPieces, List.append_assoc, List.append_assoc]
      cases first with
      | true => exact more true
      | false => exact .comma (more true)

theorem follows_entryPieces {depth : Nat} {entries : List (Value × Value)} (first : Bool)
    (h : ReadableEntries entries) {rest : List Item} (next : Follows depth false rest) :
    Follows (depth + 1) first (entryPieces first entries ++ rest) := by
  cases entries with
  | nil => exact .closes next
  | cons e entries =>
      obtain ⟨k, v⟩ := e
      obtain ⟨⟨s, text, basic, short⟩, -, value, others⟩ := h
      have more : Follows (depth + 1) true
          (.key s :: .colon :: (pieces v ++ (entryPieces false entries ++ rest))) :=
        .key basic short (follows_pieces value (endsValue_entryPieces entries rest)
          (follows_entryPieces false others next))
      rw [entryPieces, keyName_eq text, List.append_assoc, List.cons_append, List.cons_append,
        List.append_assoc]
      cases first with
      | true => exact more
      | false => exact .comma more
end

end Splice.Yaml
