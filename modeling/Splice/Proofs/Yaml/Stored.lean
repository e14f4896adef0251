import Splice.Proofs.Text.Encoding
import Splice.Proofs.Yaml.Values
import Splice.Yaml.Document

/-! # JSON read as YAML

What JSON writes of a collection is read back by YAML, if its scalars are shared by both. The value that
is read is the one that was written, but for keys and numbers that became texts.
-/

namespace Splice.Yaml

open Outcome

/-! ## Writing -/

theorem textOf_append (items others : List Item) :
    textOf (items ++ others) = textOf items ++ textOf others :=
  List.flatMap_append

/-- Parts of a collection that others stand in front of. -/
def moreParts (parts : List String) : List Char := parts.flatMap fun p => ", ".toList ++ p.toList

theorem toList_intercalate_cons (p : String) (parts : List String) :
    (", ".intercalate (p :: parts)).toList = p.toList ++ moreParts parts := by
  induction parts generalizing p with
  | nil => simp [moreParts]
  | cons q parts ih =>
      have later := ih q
      rw [String.toList_intercalate] at later ⊢
      rw [List.map_cons, List.map_cons, List.intercalate_cons_cons, ← List.map_cons, later]
      simp [moreParts]

theorem write_leaf {v : Value} (leaf : IsLeaf v) (h : Readable v) :
    Json.write v = .ok (String.ofList (textOf (pieces v))) := by
  rw [pieces_leaf leaf]
  cases v with
  | int n =>
      have writable : Value.isWritableInt n = true := h
      simp [Json.write, Json.whole, writable, textOf, scalarPiece, Item.chars]
  | null | bool | float | text => simp [Json.write, textOf, scalarPiece, Item.chars]
  | list | mapping => cases leaf
  | _ => cases h

/-- The text of the parts of a collection up to its closing bracket. -/
structure WritesParts (parts : List String) (first others : List Item) (close : Char) : Prop where
  first : textOf first = (", ".intercalate parts).toList ++ [close]
  others : textOf others = moreParts parts ++ [close]

theorem WritesParts.cons {p : String} {parts : List String} {first others items : List Item}
    {close : Char}
    (h : WritesParts parts first others close) (text : textOf items = p.toList) :
    WritesParts (p :: parts) (items ++ others) (.comma :: (items ++ others)) close where
  first := by rw [textOf_append, text, h.others, toList_intercalate_cons, List.append_assoc]
  others := by
    rw [textOf_cons, textOf_append, text, h.others]
    simp [moreParts, Item.chars]

mutual
/-- JSON writes the pieces of a value. -/
theorem write_pieces {v : Value} (h : Readable v) :
    Json.write v = .ok (String.ofList (textOf (pieces v))) := by
  cases v with
  | list items =>
      obtain ⟨parts, written, text⟩ := writeList_pieces h
      rw [Json.write, written, pieces, textOf_cons, text.first]
      exact congrArg Except.ok (String.toList_inj.mp (by simp [Item.chars]))
  | mapping entries =>
      obtain ⟨parts, written, text⟩ := writeEntries_pieces h
      rw [Json.write, written, pieces, textOf_cons, text.first]
      exact congrArg Except.ok (String.toList_inj.mp (by simp [Item.chars]))
  | _ => exact write_leaf (by trivial) h

theorem writeList_pieces {items : List Value} (h : ReadableItems items) : ∃ parts,
    Json.writeList items = .ok parts ∧ WritesParts parts (listPieces true items)
    (listPieces false items) ']' := by
  cases items with
  | nil => exact ⟨[], rfl, rfl, rfl⟩
  | cons v items =>
      obtain ⟨parts, written, text⟩ := writeList_pieces h.2
      have head := write_pieces h.1
      refine ⟨_, ?_, text.cons (String.toList_ofList).symm⟩
      rw [Json.writeList, head, written]
      rfl

theorem writeEntries_pieces {entries : List (Value × Value)} (h : ReadableEntries entries) : ∃ parts,
    Json.writeEntries entries = .ok parts ∧
      WritesParts parts (entryPieces true entries) (entryPieces false entries) '\x7d' := by
  cases entries with
  | nil => exact ⟨[], rfl, rfl, rfl⟩
  | cons e entries =>
      obtain ⟨k, v⟩ := e
      obtain ⟨⟨s, key, -⟩, -, valued, others⟩ := h
      obtain ⟨parts, written, text⟩ := writeEntries_pieces others
      have value := write_pieces valued
      have piece : textOf (.key (keyName k) :: .colon :: pieces v) =
          (Json.quote s ++ ": " ++ String.ofList (textOf (pieces v))).toList := by
        simp [textOf_cons, keyName_eq key, Item.chars]
      refine ⟨_, ?_, text.cons piece⟩
      rw [Json.writeEntries, key, value, written]
      rfl
end

/-! ## Reading -/

theorem read_pieces {v : Value} (collection : ¬ IsLeaf v) (h : Readable v)
    (fits : height v ≤ NodeReader.levelLimit) :
    read (String.ofList (textOf (pieces v))) = .ok (kept v) := by
  obtain ⟨g, nodes, holds⟩ := ofText_pieces collection h fits
  rw [read, nodes]
  exact value_holds holds

/-- What JSON writes of a collection has bytes, and is read back. -/
theorem read_write {v : Value} (collection : ¬ IsLeaf v) (h : Readable v)
    (fits : height v ≤ NodeReader.levelLimit) :
    ∃ s, Json.write v = .ok s ∧ Text.unencodable? s = none ∧ read s = .ok (kept v) := by
  refine ⟨_, write_pieces h, Text.unencodable?_plain fun c mem => ?_, read_pieces collection h fits⟩
  rw [String.toList_ofList] at mem
  have bound := ((follows_collection collection h).ascii c mem).2
  omega

end Splice.Yaml
