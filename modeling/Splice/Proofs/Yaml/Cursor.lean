import Mathlib.Data.List.Infix
import Splice.Yaml.Token.Scalar

/-! # Places further on in a YAML text

Wherever a reader of a scalar stops, what it leaves is an end of what it was given, and what it takes
was there or stands for a line end.
-/

namespace Splice.Yaml

namespace Cursor

variable {c next : Cursor} {ch : Char}

@[simp] theorem advance_rest (c : Cursor) : c.advance.rest = c.rest.tail := by
  unfold advance
  split <;> rename_i rest
  · simp [rest]
  · simp [rest]
  · split <;> simp [rest]

@[simp] theorem skip_rest (c : Cursor) (n : Nat) : (c.skip n).rest = c.rest.drop n := by
  induction n generalizing c with
  | zero => rfl
  | succ n ih => rw [skip, ih, advance_rest, List.drop_tail]

theorem skipWhile_rest_suffix (p : Char → Bool) (c : Cursor) : (c.skipWhile p).rest <:+ c.rest := by
  simp [skipWhile, List.drop_suffix]

theorem skipComment_rest_suffix (c : Cursor) : c.skipComment.rest <:+ c.rest := by
  unfold skipComment
  split
  · exact skipWhile_rest_suffix _ c
  · exact List.suffix_rfl

/-- A line end is one of three characters to a scalar, and what follows it is an end of the text. -/
theorem lineBreak?_eq_some (h : c.lineBreak? = some (ch, next)) :
    next.rest <:+ c.rest ∧ (ch = '\n' ∨ ch = '\u2028' ∨ ch = '\u2029') := by
  have tail : c.advance.rest <:+ c.rest := advance_rest c ▸ List.tail_suffix _
  unfold lineBreak? at h
  split at h <;> cases h
  · exact ⟨skip_rest c 2 ▸ List.drop_suffix _ _, .inl rfl⟩
  · exact ⟨tail, .inl rfl⟩
  · exact ⟨tail, .inl rfl⟩
  · exact ⟨tail, .inl rfl⟩
  · exact ⟨tail, .inr (.inl rfl)⟩
  · exact ⟨tail, .inr (.inr rfl)⟩

end Cursor
end Splice.Yaml
