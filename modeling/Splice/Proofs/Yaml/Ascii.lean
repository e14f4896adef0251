import Splice.Proofs.Yaml.Cursor

/-! # Texts of one line

The printable characters of ASCII end no line and count as one column each, so a cursor that steps over
them stays in its line.
-/

namespace Splice.Yaml

/-- Whether a character is a printable one of ASCII. -/
def IsAscii (ch : Char) : Prop := 0x20 ≤ ch.toNat ∧ ch.toNat < 0x7F

instance (ch : Char) : Decidable (IsAscii ch) := inferInstanceAs (Decidable (_ ∧ _))

def AreAscii (cs : List Char) : Prop := ∀ ch ∈ cs, IsAscii ch

instance (cs : List Char) : Decidable (AreAscii cs) := List.decidableBAll IsAscii cs

section

variable {ch mark : Char} {cs ds rest : List Char}

theorem areAscii_cons : AreAscii (ch :: cs) ↔ IsAscii ch ∧ AreAscii cs := List.forall_mem_cons

theorem areAscii_append : AreAscii (cs ++ ds) ↔ AreAscii cs ∧ AreAscii ds := List.forall_mem_append

theorem areAscii_replicate {n : Nat} (h : IsAscii ch) : AreAscii (List.replicate n ch) := by
  intro c mem
  rw [List.eq_of_mem_replicate mem]
  exact h

/-- A character outside of ASCII is none in it. -/
theorem IsAscii.ne (h : IsAscii ch) (other : ¬ IsAscii mark) : ch ≠ mark := by
  intro same
  exact other (same ▸ h)

theorem IsAscii.not_isBreak (h : IsAscii ch) : isBreak ch = false := by
  simp only [isBreak, Bool.or_eq_false_iff, beq_eq_false_iff_ne]
  exact ⟨⟨⟨⟨h.ne (by decide), h.ne (by decide)⟩, h.ne (by decide)⟩, h.ne (by decide)⟩, h.ne (by decide)⟩

/-- The only gap in ASCII is a space. -/
theorem IsAscii.isGap_eq (h : IsAscii ch) : isGap (some ch) = (ch == ' ') := by
  have tab : (ch == '\t') = false := beq_eq_false_iff_ne.mpr (h.ne (by decide))
  simp [isGap, tab, h.not_isBreak]

end

namespace Cursor

variable {c : Cursor} {ch : Char} {cs rest : List Char}

/-- The cursor some columns further on in its line. -/
def past (c : Cursor) (count : Nat) (rest : List Char) : Cursor :=
  ⟨rest, c.index + count, c.line, c.column + count⟩

@[simp] theorem past_rest (c : Cursor) (n : Nat) : (c.past n rest).rest = rest := rfl

@[simp] theorem past_index (c : Cursor) (n : Nat) : (c.past n rest).index = c.index + n := rfl

@[simp] theorem past_line (c : Cursor) (n : Nat) : (c.past n rest).line = c.line := rfl

@[simp] theorem past_past (c : Cursor) (m n : Nat) : (c.past m cs).past n rest = c.past (m + n) rest := by
  simp only [past, Nat.add_assoc]

theorem past_zero (here : c.rest = rest) : c.past 0 rest = c := by
  rw [← here]
  rfl

theorem advance_ascii (here : c.rest = ch :: rest) (h : IsAscii ch) : c.advance = c.past 1 rest := by
  have mark : ch ≠ byteOrderMark := h.ne (by decide)
  unfold advance
  split
  · rename_i found
    rw [here] at found
    cases found
  · rename_i found
    rw [here] at found
    cases found
    exact absurd h (by decide)
  · rename_i found
    rw [here] at found
    cases found
    rw [h.not_isBreak, if_neg Bool.false_ne_true, if_neg mark]
    rfl

theorem skip_ascii (here : c.rest = cs ++ rest) (h : AreAscii cs) :
    c.skip cs.length = c.past cs.length rest := by
  induction cs generalizing c with
  | nil => exact (past_zero here).symm
  | cons ch cs ih =>
      rw [areAscii_cons] at h
      rw [List.length_cons, skip, advance_ascii here h.1, ih rfl h.2, past_past, Nat.add_comm]

theorem peek_eq (here : c.rest = ch :: rest) : c.peek = some ch := by
  rw [peek, here]
  rfl

theorem lineBreak?_ascii (here : c.rest = ch :: rest) (h : IsAscii ch) : c.lineBreak? = none := by
  unfold lineBreak?
  rw [here]
  split
  case h_7 => rfl
  all_goals
    rename_i found
    cases found
    exact absurd h (by decide)

end Cursor
end Splice.Yaml
