import Mathlib.Data.List.Infix
import Splice.Text.Blank

/-! # Words of a text

A text is its words, each after blanks and set off from what follows it. There is one way to take a text
apart in this manner, whatever its spacing, and it is the one that is used.
-/

namespace Splice.Text

def Blank (cs : List Char) : Prop := ∀ c ∈ cs, isBlank c = true

structure IsWord (cs : List Char) : Prop where
  filled : cs ≠ []
  solid : ∀ c ∈ cs, isBlank c = false

/-- What stands after a word: nothing, or a blank and anything. -/
def SetOff (rest : List Char) : Prop := ∀ c ∈ rest.head?, isBlank c = true

/-- A text has these words, in whatever spacing. -/
inductive Worded : List Char → List (List Char) → Prop
  | blank {cs : List Char} (h : Blank cs) : Worded cs []
  | word {blanks word rest : List Char} {words : List (List Char)} (before : Blank blanks)
      (solid : IsWord word) (after : SetOff rest) (more : Worded rest words) :
      Worded (blanks ++ (word ++ rest)) (word :: words)

/-- The words of characters: the runs between blanks that are not empty. -/
def wordRuns (cs : List Char) : List (List Char) := (splitRuns isBlank cs).filter (!·.isEmpty)

section Runs

variable {word rest run : List Char} {runs : List (List Char)} {c : Char}

theorem splitRuns_word (solid : ∀ c ∈ word, isBlank c = false)
    (next : splitRuns isBlank rest = run :: runs) :
    splitRuns isBlank (word ++ rest) = (word ++ run) :: runs := by
  induction word with
  | nil => exact next
  | cons c word ih =>
      obtain ⟨inside, solid⟩ := List.forall_mem_cons.mp solid
      rw [List.cons_append, splitRuns, if_neg (by simp [inside]), ih solid]
      rfl

theorem wordRuns_blanks {blanks : List Char} (h : Blank blanks) (rest : List Char) :
    wordRuns (blanks ++ rest) = wordRuns rest := by
  induction blanks with
  | nil => rfl
  | cons c blanks ih =>
      obtain ⟨first, others⟩ := List.forall_mem_cons.mp h
      rw [← ih others, List.cons_append, wordRuns, splitRuns, if_pos first]
      rfl

theorem wordRuns_word (h : IsWord word) (after : SetOff rest) :
    wordRuns (word ++ rest) = word :: wordRuns rest := by
  have filled : word.isEmpty = false := by simpa using h.filled
  cases rest with
  | nil =>
      have read : splitRuns isBlank (word ++ []) = [word ++ []] := splitRuns_word h.solid rfl
      rw [wordRuns, read, List.append_nil, List.filter_cons, filled]
      rfl
  | cons c rest =>
      have first : splitRuns isBlank (c :: rest) = [] :: splitRuns isBlank rest :=
        if_pos (after c rfl)
      have read := splitRuns_word h.solid first
      rw [wordRuns, read, List.append_nil, List.filter_cons, filled, wordRuns, first]
      rfl

end Runs

section Worded

variable {cs : List Char} {words : List (List Char)} {c : Char}

theorem Worded.runs_eq (h : Worded cs words) : wordRuns cs = words := by
  induction h with
  | @blank cs h =>
      have all := wordRuns_blanks h []
      rw [List.append_nil] at all
      exact all
  | word before solid after more ih => rw [wordRuns_blanks before, wordRuns_word solid after, ih]

theorem Worded.cons_blank (h : Worded cs words) (first : isBlank c = true) : Worded (c :: cs) words := by
  cases h with
  | blank h => exact .blank (List.forall_mem_cons.mpr ⟨first, h⟩)
  | @word blanks _ _ _ before solid after more =>
      have before : Blank (c :: blanks) := List.forall_mem_cons.mpr ⟨first, before⟩
      exact .word before solid after more

theorem Worded.first {word rest : List Char} (solid : IsWord word) (after : SetOff rest)
    (more : Worded rest words) : Worded (word ++ rest) (word :: words) := by
  have none : Blank [] := List.forall_mem_nil _
  exact .word none solid after more

/-- A character that is no blank is a word of its own, or belongs to the first word. -/
theorem Worded.cons_solid (h : Worded cs words) (first : isBlank c = false) :
    ∃ words, Worded (c :: cs) words := by
  have solid : IsWord [c] := ⟨List.cons_ne_nil _ _, by simpa using first⟩
  cases h with
  | blank h => exact ⟨_, .first solid (fun d mem => h d (List.mem_of_head? mem)) (.blank h)⟩
  | @word blanks word rest words before other after more =>
      cases blanks with
      | nil =>
          have longer : IsWord (c :: word) :=
            ⟨List.cons_ne_nil _ _, List.forall_mem_cons.mpr ⟨first, other.solid⟩⟩
          exact ⟨_, .first longer after more⟩
      | cons d blanks =>
          refine ⟨_, .first solid (fun e mem => ?_) (.word before other after more)⟩
          obtain rfl := Option.some.inj mem
          exact before d List.mem_cons_self

theorem exists_worded (cs : List Char) : ∃ words, Worded cs words := by
  induction cs with
  | nil => exact ⟨[], .blank (List.forall_mem_nil _)⟩
  | cons c cs ih =>
      obtain ⟨words, h⟩ := ih
      cases first : isBlank c with
      | true => exact ⟨words, h.cons_blank first⟩
      | false => exact h.cons_solid first

/-- A text has one sequence of words. -/
theorem worded_iff : Worded cs words ↔ wordRuns cs = words := by
  refine ⟨Worded.runs_eq, ?_⟩
  rintro rfl
  obtain ⟨words, h⟩ := exists_worded cs
  rw [h.runs_eq]
  exact h

theorem words_ofList (h : Worded cs words) : Text.words (String.ofList cs) = words.map String.ofList := by
  rw [Text.words, String.toList_ofList]
  exact congrArg _ h.runs_eq

end Worded

end Splice.Text
