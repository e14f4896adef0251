import Splice.Diagnostic
import Splice.Proofs.Text.Lines
import Splice.Proofs.Text.Trimming

/-! # Diagnostics are short

Whatever the engine wrote, and whatever code it left, the diagnostic is one line of at most 500
characters, and not an empty one. The lines that it is made of are lines of what was written, so that none
of them has a line end; neither has what is put between them, nor a cut.
-/

namespace Splice

theorem append_ne_empty_left {a : String} (h : a ≠ "") (b : String) : a ++ b ≠ "" :=
  fun none => h (String.append_eq_empty_iff.mp none).1

theorem append_ne_empty_right (a : String) {b : String} (h : b ≠ "") : a ++ b ≠ "" :=
  fun none => h (String.append_eq_empty_iff.mp none).2

namespace Diagnostic

open Text

theorem length_shorten_le {limit : Nat} (room : 3 ≤ limit) (s : List Char) :
    (shorten s limit).length ≤ limit := by
  unfold shorten
  split
  · assumption
  · simp only [List.length_append, List.length_take, List.length_cons, List.length_nil]
    omega

theorem oneLine_shorten {s : List Char} (h : OneLine s) (limit : Nat) : OneLine (shorten s limit) := by
  unfold shorten
  split
  · exact h
  · exact (h.mono (List.take_subset _ s)).append (by decide)

theorem mem_of_mem_chosen {found : List String} {line : String} (h : line ∈ chosen found) :
    line ∈ found := by
  have last : ∀ {ls : List String}, line ∈ lastOf lineCount ls → line ∈ ls :=
    fun h => List.mem_of_mem_drop h
  unfold chosen at h
  dsimp only at h
  have among := last h
  split at among
  · exact (List.mem_filter.mp (List.mem_filter.mp among).1).1
  · split at among
    · exact (List.mem_filter.mp among).1
    · exact among

theorem oneLine_of_mem_lines {s line : String} (h : line ∈ lines s) : OneLine line.toList := by
  obtain ⟨whole, hw, rfl⟩ := List.mem_map.mp (List.mem_filter.mp h).1
  rw [trim, String.toList_ofList]
  exact (oneLine_lines hw).mono (trimList_subset _ _)

theorem oneLine_exitText (code : Option Int) : OneLine (exitText code).toList := by
  have start : OneLine "ffmpeg exited with code ".toList := by decide +kernel
  unfold exitText
  rw [String.toList_append]
  apply start.append
  cases code with
  | none => exact oneLine_of_numeral (by decide)
  | some n => exact oneLine_of_numeral (numeral_int n)

theorem shorten_ne_nil {s : List Char} (some_text : s ≠ []) (limit : Nat) :
    shorten s limit ≠ [] := by
  unfold shorten
  split
  · exact some_text
  · simp

theorem summary_ne_empty (stderr : Option String) (code : Option Int) :
    summary stderr code ≠ "" := by
  intro none
  have nil := congrArg String.toList none
  rw [summary, String.toList_ofList] at nil
  refine shorten_ne_nil ?_ _ nil
  split
  · exact fun none => append_ne_empty_left (by decide) _ (String.toList_eq_nil_iff.mp none)
  · rename_i told
    simpa using told

theorem length_summary_le (stderr : Option String) (code : Option Int) :
    (summary stderr code).length ≤ limit := by
  rw [summary, String.length_ofList]
  exact length_shorten_le (by decide) _

theorem oneLine_summary (stderr : Option String) (code : Option Int) :
    OneLine (summary stderr code).toList := by
  rw [summary, String.toList_ofList]
  apply oneLine_shorten
  split
  · exact oneLine_exitText code
  · refine OneLine.intercalate (by decide) fun part hp => ?_
    obtain ⟨line, hl, rfl⟩ := List.mem_map.mp hp
    exact oneLine_shorten (oneLine_of_mem_lines (mem_of_mem_chosen hl)) _

end Diagnostic
end Splice
