import Mathlib.Data.List.TakeWhile
import Splice.Text.Blank

/-! # Texts without blanks around them

Trimming takes characters off both ends, so what is left is a part of the text and has neither end to
be taken off.
-/

namespace Splice.Text

variable {p : Char → Bool} {c : Char} {cs before after : List Char}

theorem trimList_subset (p : Char → Bool) (cs : List Char) : trimList p cs ⊆ cs := by
  intro c hc
  have once := (List.dropWhile_sublist p).subset (List.mem_reverse.mp hc)
  exact (List.dropWhile_sublist p).subset (List.mem_reverse.mp once)

theorem mem_dropWhile (h : c ∈ cs) (other : p c = false) : c ∈ cs.dropWhile p := by
  rw [← List.takeWhile_append_dropWhile (p := p) (l := cs), List.mem_append] at h
  rcases h with cut | kept
  · simp [List.mem_takeWhile_imp cut] at other
  · exact kept

/-- Trimming takes nothing off but what it looks for. -/
theorem mem_trimList (h : c ∈ cs) (other : p c = false) : c ∈ trimList p cs :=
  List.mem_reverse.mpr (mem_dropWhile (List.mem_reverse.mpr (mem_dropWhile h other)) other)

/-- Whether neither end of a text satisfies `p`. -/
def IsTrimmed (p : Char → Bool) (cs : List Char) : Prop :=
  (∀ c ∈ cs.head?, p c = false) ∧ ∀ c ∈ cs.getLast?, p c = false

theorem head?_dropWhile (p : Char → Bool) (cs : List Char) : ∀ c ∈ (cs.dropWhile p).head?, p c = false := by
  intro c mem
  have first := List.head?_dropWhile_not p cs
  rw [Option.mem_def.mp mem] at first
  exact first

theorem dropWhile_of_head? (h : ∀ c ∈ cs.head?, p c = false) : cs.dropWhile p = cs := by
  cases cs with
  | nil => rfl
  | cons c cs => exact List.dropWhile_cons_of_neg (by simp [h c rfl])

theorem trimList_of_isTrimmed (h : IsTrimmed p cs) : trimList p cs = cs := by
  have last : cs.reverse.dropWhile p = cs.reverse := by
    apply dropWhile_of_head?
    rw [List.head?_reverse]
    exact h.2
  rw [trimList, dropWhile_of_head? h.1, last, List.reverse_reverse]

theorem trimList_plain (h : ∀ c ∈ cs, p c = false) : trimList p cs = cs :=
  trimList_of_isTrimmed ⟨fun c mem => h c (List.mem_of_head? mem), fun c mem =>
    h c (List.mem_of_getLast? mem)⟩

theorem isTrimmed_trimList (p : Char → Bool) (cs : List Char) : IsTrimmed p (trimList p cs) := by
  constructor
  · -- What is cut off at the end leaves the first character in its place.
    intro c mem
    obtain ⟨cut, split⟩ := List.dropWhile_suffix (l := (cs.dropWhile p).reverse) p
    have whole : trimList p cs ++ cut.reverse = cs.dropWhile p := by
      rw [trimList, ← List.reverse_append, split, List.reverse_reverse]
    apply head?_dropWhile p cs
    rw [← whole, List.head?_append, Option.mem_def.mp mem]
    rfl
  · intro c mem
    rw [trimList, List.getLast?_reverse] at mem
    exact head?_dropWhile p _ c mem

/-- Blanks around a text are cut off. -/
theorem trimList_padded (hb : ∀ c ∈ before, p c = true) (ha : ∀ c ∈ after, p c = true) :
    trimList p (before ++ cs ++ after) = trimList p cs := by
  have reversed : ∀ c ∈ after.reverse, p c = true := fun c mem => ha c (List.mem_reverse.mp mem)
  by_cases none : cs.dropWhile p = []
  · have tail : (cs ++ after).dropWhile p = [] := by
      rw [List.dropWhile_append, none, List.isEmpty_nil, if_pos rfl, List.dropWhile_eq_nil_iff]
      exact ha
    rw [trimList, trimList, List.append_assoc, List.dropWhile_append_of_pos hb, tail, none]
  · have tail : (cs ++ after).dropWhile p = cs.dropWhile p ++ after := by
      rw [List.dropWhile_append, if_neg (by simpa using none)]
    rw [trimList, trimList, List.append_assoc, List.dropWhile_append_of_pos hb, tail,
      List.reverse_append, List.dropWhile_append_of_pos reversed]

end Splice.Text
