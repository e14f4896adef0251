import Mathlib.Data.Bool.AllAny
import Splice.Machine
import Splice.Proofs.Text.Encoding

/-! # Identifiers

An identifier has nothing but digits and dashes, so it has bytes.
-/

namespace Splice

/-- What identifiers are made of. -/
def Text.idCharacters : List Char := "0123456789abcdef-".toList

/-- A text that an identifier may be. -/
def Text.IsId (s : String) : Prop := ∀ c ∈ s.toList, c ∈ idCharacters

theorem Text.toDigits_id (n : Nat) : ∀ c ∈ Nat.toDigits 16 n, c ∈ idCharacters := by
  have digit : ∀ d < 16, Nat.digitChar d ∈ idCharacters := by decide
  induction n using Nat.strongRecOn with
  | ind n ih =>
      rw [Nat.toDigits_eq_if (by decide)]
      intro c hc
      split at hc
      · obtain rfl := List.mem_singleton.mp hc
        exact digit n ‹_›
      · rcases List.mem_append.mp hc with hc | hc
        · exact ih (n / 16) (by omega) c hc
        · obtain rfl := List.mem_singleton.mp hc
          exact digit (n % 16) (Nat.mod_lt n (by decide))

theorem Text.hex_id (width n : Nat) : ∀ c ∈ hex width n, c ∈ idCharacters := by
  intro c hc
  rcases List.mem_append.mp hc with hc | hc
  · obtain rfl := List.eq_of_mem_replicate hc
    decide
  · exact toDigits_id n c hc

theorem Machine.identifier_isId (n : Nat) : Text.IsId (identifier n) := by
  have middle : "-0000-4000-8000-".toList ⊆ Text.idCharacters := by decide
  intro c hc
  rw [identifier, String.toList_ofList] at hc
  rcases List.mem_append.mp hc with hc | hc
  · exact (List.mem_append.mp hc).elim (Text.hex_id 8 n c) fun hc => middle hc
  · exact Text.hex_id 12 n c hc

theorem Text.IsId.not_mem {id : String} (h : IsId id) {c : Char} (other : c ∉ idCharacters) :
    c ∉ id.toList :=
  fun hc => other (h c hc)

theorem Machine.unencodable?_identifier (n : Nat) : Text.unencodable? (identifier n) = none := by
  have small : ∀ c ∈ Text.idCharacters, c.toNat < 0xD800 := List.all_iff_forall_prop.mp (by decide)
  exact Text.unencodable?_plain fun c mem => small c (identifier_isId n c mem)

end Splice
