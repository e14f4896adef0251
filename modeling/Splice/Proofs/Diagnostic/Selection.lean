import Mathlib.Data.List.Forall2
import Splice.Proofs.Diagnostic

/-! # What a diagnostic tells

A diagnostic is the last lines of the first class that has a line: lines with a word of failure that do
not only repeat an option's value, lines with such a word, lines that are not blank. Three cut lines fit
into the limit of the whole, so that nothing is cut twice; and lines outside the first class do not matter
where that class has a line.
-/

namespace Splice

theorem length_intercalate_le {α : Type} {sep : List α} {parts : List (List α)} {bound : Nat}
    (each : ∀ part ∈ parts, part.length ≤ bound) :
    (sep.intercalate parts).length ≤ parts.length * (bound + sep.length) := by
  induction parts with
  | nil => simp
  | cons part rest ih =>
      have first := each part List.mem_cons_self
      cases rest with
      | nil =>
          rw [List.intercalate_singleton, List.length_singleton]
          omega
      | cons next more =>
          have others := ih fun part mem => each part (List.mem_cons_of_mem _ mem)
          rw [List.intercalate_cons_cons, List.length_append, List.length_append, List.length_cons,
            Nat.succ_mul]
          omega

theorem Text.occursIn_iff {needle cs : List Char} : occursIn needle cs = true ↔ needle <:+: cs := by
  induction cs with
  | nil => rw [occursIn, List.isEmpty_iff, List.infix_nil]
  | cons c rest ih =>
      rw [occursIn, Bool.or_eq_true, List.isPrefixOf_iff_prefix, ih, List.infix_cons_iff]

/-- One list becomes another when items of a kind are put in and taken out. -/
inductive Edited {α : Type} (kind : α → Prop) : List α → List α → Prop
  | nil : Edited kind [] []
  | keep {before after : List α} (item : α) (rest : Edited kind before after) :
      Edited kind (item :: before) (item :: after)
  | insert {before after : List α} {item : α} (h : kind item) (rest : Edited kind before after) :
      Edited kind before (item :: after)
  | delete {before after : List α} {item : α} (h : kind item) (rest : Edited kind before after) :
      Edited kind (item :: before) after

theorem Edited.filter_eq {α : Type} {kind : α → Prop} {p : α → Bool} {before after : List α}
    (h : Edited kind before after) (other : ∀ item, kind item → ¬ p item = true) :
    before.filter p = after.filter p := by
  induction h with
  | nil => rfl
  | keep item rest ih => rw [List.filter_cons, List.filter_cons, ih]
  | insert h rest ih => rw [List.filter_cons_of_neg (other _ h), ih]
  | delete h rest ih => rw [List.filter_cons_of_neg (other _ h), ih]

namespace Diagnostic

open Text

/-! ## Classes of lines -/

/-- A line with a word of failure, in whatever case. -/
def HasKeyword (line : String) : Prop := ∃ word ∈ keywords, word.toList <:+: (lower line).toList

/-- A line that begins as those do that only repeat a value. -/
def Echoes (line : String) : Prop := ∃ start ∈ echoes, start.toList <+: (lower line).toList

theorem isFlagged_iff {line : String} : isFlagged line = true ↔ HasKeyword line := by
  simp only [isFlagged, List.any_eq_true, occursIn_iff, HasKeyword]

theorem isEcho_iff {line : String} : isEcho line = true ↔ Echoes line := by
  simp only [isEcho, List.any_eq_true, List.isPrefixOf_iff_prefix, Echoes]

theorem HasKeyword.ne_empty {line : String} (h : HasKeyword line) : line ≠ "" := by
  rintro rfl
  obtain ⟨word, known, within⟩ := h
  have none : (lower "").toList = [] := by decide
  rw [none, List.infix_nil, String.toList_eq_nil_iff] at within
  subst within
  revert known
  decide

/-- The classes of lines, from the one that tells most. -/
inductive Rank where
  | specific
  | flagged
  | other

namespace Rank

def Admits : Rank → String → Prop
  | .specific, line => HasKeyword line ∧ ¬ Echoes line
  | .flagged, line => HasKeyword line
  | .other, _ => True

instance : (rank : Rank) → DecidablePred rank.Admits
  | .specific, _ => decidable_of_iff (isFlagged _ = true ∧ isEcho _ ≠ true)
      (and_congr isFlagged_iff isEcho_iff.not)
  | .flagged, _ => decidable_of_iff _ isFlagged_iff
  | .other, _ => .isTrue trivial

/-- The classes that are asked before this one. -/
def better : Rank → List Rank
  | .specific => []
  | .flagged => [.specific]
  | .other => [.specific, .flagged]

end Rank

theorem filter_flagged (found : List String) :
    found.filter isFlagged = found.filter (Rank.flagged.Admits ·) :=
  List.filter_congr fun line _ => by rw [Bool.eq_iff_iff, isFlagged_iff, decide_eq_true_eq, Rank.Admits]

theorem filter_specific (found : List String) :
    (found.filter isFlagged).filter (!isEcho ·) = found.filter (Rank.specific.Admits ·) := by
  rw [List.filter_filter]
  refine List.filter_congr fun line _ => ?_
  rw [Bool.eq_iff_iff, decide_eq_true_eq, Rank.Admits, ← isFlagged_iff, ← isEcho_iff]
  simp [and_comm]

/-- The first class that has a line of these. -/
structure Rank.Best (rank : Rank) (found : List String) : Prop where
  occupied : ∃ line ∈ found, rank.Admits line
  first : ∀ better ∈ rank.better, ∀ line ∈ found, ¬ better.Admits line

theorem filter_ne_nil_iff {found : List String} {rank : Rank} :
    found.filter (rank.Admits ·) ≠ [] ↔ ∃ line ∈ found, rank.Admits line := by
  simp [List.filter_eq_nil_iff]

theorem exists_best {found : List String} (some_line : found ≠ []) :
    ∃ rank : Rank, rank.Best found ∧
      chosen found = lastOf lineCount (found.filter (rank.Admits ·)) := by
  unfold chosen
  dsimp only
  rw [filter_specific, filter_flagged]
  have absent {rank : Rank} (none : found.filter (rank.Admits ·) = []) :
      ∀ line ∈ found, ¬ rank.Admits line := by simpa [List.filter_eq_nil_iff] using none
  by_cases specific : found.filter (Rank.specific.Admits ·) = []
  · by_cases flagged : found.filter (Rank.flagged.Admits ·) = []
    · refine ⟨.other, ⟨?_, ?_⟩, ?_⟩
      · exact (List.exists_mem_of_ne_nil found some_line).imp fun line mem => ⟨mem, trivial⟩
      · simpa [Rank.better] using ⟨absent specific, absent flagged⟩
      · have all : found.filter (Rank.other.Admits ·) = found :=
          List.filter_eq_self.mpr fun line _ => decide_eq_true trivial
        rw [specific, flagged, all]
        rfl
    · refine ⟨.flagged, ⟨filter_ne_nil_iff.mp flagged, ?_⟩, ?_⟩
      · simpa [Rank.better] using absent specific
      · rw [specific, if_neg (by simp), if_pos (by simpa using flagged)]
  · refine ⟨.specific, ⟨filter_ne_nil_iff.mp specific, by simp [Rank.better]⟩, ?_⟩
    rw [if_pos (by simpa using specific)]

theorem chosen_of_specific {found : List String} (h : ∃ line ∈ found, Rank.specific.Admits line) :
    chosen found = lastOf lineCount (found.filter (Rank.specific.Admits ·)) := by
  unfold chosen
  dsimp only
  rw [filter_specific]
  rw [if_pos (by simpa using filter_ne_nil_iff.mpr h)]

/-! ## Pieces -/

/-- What is told of a line: the line, or its beginning and three points where it is too long. -/
def Piece (line piece : String) : Prop :=
  line.length ≤ 160 ∧ piece = line ∨
    160 < line.length ∧ piece.toList = line.toList.take 157 ++ ['.', '.', '.']

/-- A line as it is told. -/
def cut (line : String) : String := String.ofList (shorten line.toList lineLimit)

theorem piece_cut (line : String) : Piece line (cut line) := by
  unfold Piece cut shorten lineLimit
  rw [← String.length_toList]
  by_cases fits : line.toList.length ≤ 160
  · rw [if_pos fits, String.ofList_toList]
    exact .inl ⟨fits, rfl⟩
  · rw [if_neg fits, String.toList_ofList]
    exact .inr ⟨Nat.lt_of_not_le fits, rfl⟩

theorem Piece.length_le {line piece : String} (h : Piece line piece) : piece.length ≤ 160 := by
  rcases h with ⟨fits, rfl⟩ | ⟨-, cut⟩
  · exact fits
  · rw [← String.length_toList, cut, List.length_append, List.length_take]
    simp only [List.length_cons, List.length_nil]
    omega

theorem toList_intercalate_cut (kept : List String) : ("; ".intercalate (kept.map cut)).toList =
    [';', ' '].intercalate (kept.map fun line => shorten line.toList lineLimit) := by
  rw [String.toList_intercalate, List.map_map]
  have same : String.toList ∘ cut = fun line => shorten line.toList lineLimit :=
    funext fun line => String.toList_ofList
  rw [same]
  rfl

/-- What a diagnostic tells of the lines that are not blank: up to three last lines of the first class
that has one, in their order, each cut to its limit. -/
structure Digest (found : List String) (rank : Rank) (kept pieces : List String) : Prop where
  best : rank.Best found
  last : kept <:+ found.filter (rank.Admits ·)
  count : kept.length = min 3 (found.filter (rank.Admits ·)).length
  cut : List.Forall₂ Piece kept pieces

theorem Digest.few {found kept pieces : List String} {rank : Rank} (h : Digest found rank kept pieces) :
    pieces.length ≤ 3 := by
  rw [← h.cut.length_eq, h.count]
  exact Nat.min_le_left _ _

theorem Digest.kept_ne_nil {found kept pieces : List String} {rank : Rank}
    (h : Digest found rank kept pieces) : kept ≠ [] := by
  have some_line := List.length_pos_iff.mpr (filter_ne_nil_iff.mpr h.best.occupied)
  have count := h.count
  rw [← List.length_pos_iff]
  omega

theorem Digest.short {found kept pieces : List String} {rank : Rank} (h : Digest found rank kept pieces) :
    ∀ piece ∈ pieces, piece.length ≤ 160 := by
  have each := h.cut
  clear h
  induction each with
  | nil => simp
  | cons piece rest ih => exact List.forall_mem_cons.mpr ⟨piece.length_le, ih⟩

/-- Three pieces and what stands between them fit into the limit. -/
theorem Digest.fits {found kept pieces : List String} {rank : Rank} (h : Digest found rank kept pieces) :
    ("; ".intercalate pieces).length ≤ limit := by
  have few := h.few
  have each : ∀ part ∈ pieces.map String.toList, part.length ≤ 160 := by
    intro part mem
    obtain ⟨piece, told, rfl⟩ := List.mem_map.mp mem
    exact h.short piece told
  have bound : ("; ".toList.intercalate (pieces.map String.toList)).length ≤ _ :=
    length_intercalate_le each
  rw [← String.length_toList, String.toList_intercalate]
  have between : "; ".toList.length = 2 := rfl
  rw [between, List.length_map] at bound
  unfold limit
  omega

theorem length_lastOf {α : Type} (n : Nat) (xs : List α) : (lastOf n xs).length = min n xs.length := by
  rw [lastOf, List.length_drop]
  omega

theorem exists_digest {found : List String} (some_line : found ≠ []) :
    ∃ rank, Digest found rank (chosen found) ((chosen found).map cut) := by
  obtain ⟨rank, best, chosen_eq⟩ := exists_best some_line
  refine ⟨rank, best, ?_, ?_, ?_⟩
  · rw [chosen_eq]
    exact List.drop_suffix _ _
  · rw [chosen_eq, length_lastOf]
    rfl
  · rw [List.forall₂_map_right_iff]
    exact List.forall₂_same.mpr fun line _ => piece_cut line

/-! ## The lines that are told -/

/-- The lines that are not blank, without the blanks around them. -/
def visible (raw : List String) : List String := (raw.map trim).filter (!·.isEmpty)

theorem lines_of_lined {s : String} {raw : List String} (h : Lined s.toList (raw.map String.toList)) :
    lines s = visible raw := by
  rw [lines, lines_eq_of_lined h, visible]

theorem ne_empty_of_mem_visible {raw : List String} {line : String} (h : line ∈ visible raw) :
    line ≠ "" := by
  simpa using (List.mem_filter.mp h).2

theorem visible_ne_nil {raw : List String}
    (h : ∃ line ∈ raw, ∃ c ∈ line.toList, isBlank c = false) : visible raw ≠ [] := by
  obtain ⟨line, mem, c, within, shown⟩ := h
  have kept : c ∈ (trim line).toList := by
    rw [trim, String.toList_ofList]
    exact mem_trimList within shown
  have nonempty : trim line ≠ "" := by
    intro none
    simp [none] at kept
  exact List.ne_nil_of_mem (List.mem_filter.mpr ⟨List.mem_map_of_mem mem, by simpa using nonempty⟩)

/-- A line of the first class is none of the blank ones, so that it is enough to look for it among all
lines. -/
theorem filter_visible (raw : List String) : (visible raw).filter (Rank.specific.Admits ·) =
    (raw.filter (Rank.specific.Admits <| trim ·)).map trim := by
  rw [visible, List.filter_filter, List.filter_map]
  refine congrArg _ (List.filter_congr fun line _ => ?_)
  rw [Bool.eq_iff_iff, Function.comp_apply, Bool.and_eq_true, decide_eq_true_eq]
  exact and_iff_left_of_imp fun specific => by simpa using specific.1.ne_empty

theorem summary_of_chosen {stderr : Option String} {kept : List String}
    (h : chosen (lines (stderr.getD "")) = kept) (some_line : kept ≠ []) (code : Option Int) :
    summary stderr code = "; ".intercalate (kept.map cut) := by
  have told : ∀ line ∈ kept, cut line ≠ "" := by
    intro line mem none
    have among : line ∈ visible (Text.lines (stderr.getD "")) := mem_of_mem_chosen (h ▸ mem)
    have shown := ne_empty_of_mem_visible among
    refine shorten_ne_nil (fun nil => shown (String.toList_eq_nil_iff.mp nil)) lineLimit ?_
    rw [← String.toList_eq_nil_iff, cut, String.toList_ofList] at none
    exact none
  have joined : "; ".intercalate (kept.map cut) ≠ "" := by
    cases kept with
    | nil => exact absurd rfl some_line
    | cons line rest =>
        have first := told line List.mem_cons_self
        cases rest with
        | nil => simpa using first
        | cons next more =>
            rw [List.map_cons, List.map_cons, String.intercalate_cons_cons]
            exact append_ne_empty_left (append_ne_empty_left first _) _
  have whole : ("; ".intercalate (kept.map cut)).toList.length ≤ limit := by
    have found : lines (stderr.getD "") ≠ [] := by
      rintro none
      rw [none] at h
      exact some_line (h.symm.trans rfl)
    obtain ⟨rank, digest⟩ := exists_digest found
    rw [String.length_toList, ← h]
    exact digest.fits
  have filled : ¬ ("; ".intercalate (kept.map cut)).toList.isEmpty = true :=
    fun none => joined (String.toList_eq_nil_iff.mp (List.isEmpty_iff.mp none))
  rw [summary, h, ← toList_intercalate_cut, if_neg filled, shorten, if_pos whole, String.ofList_toList]

/-- The diagnostic of a text is not empty, has at most 500 characters, and is one line. If a line of the
text is not blank, the diagnostic is the cut last lines of the first class that has one, three at the most,
joined as they are. Where the first class has a line, no line of another kind matters, wherever it is put
in or taken out. -/
theorem summary_digest (stderr : Option String) (code : Option Int) :
    summary stderr code ≠ "" ∧ (summary stderr code).length ≤ 500 ∧
      OneLine (summary stderr code).toList ∧
      ∃ raw : List String, Lined (stderr.getD "").toList (raw.map String.toList) ∧
        ((∃ line ∈ raw, ∃ c ∈ line.toList, isBlank c = false) → ∃ rank kept pieces,
          Digest (visible raw) rank kept pieces ∧ pieces.length ≤ 3 ∧
            (∀ piece ∈ pieces, piece.length ≤ 160) ∧
            summary stderr code = "; ".intercalate pieces) ∧
        ∀ (stderr' : Option String) (code' : Option Int) (raw' : List String),
          Lined (stderr'.getD "").toList (raw'.map String.toList) →
          Edited (fun line => ¬ Rank.specific.Admits (trim line)) raw raw' →
          (∃ line ∈ raw, Rank.specific.Admits (trim line)) →
          summary stderr' code' = summary stderr code := by
  refine ⟨summary_ne_empty stderr code, length_summary_le stderr code, oneLine_summary stderr code,
    Text.lines (stderr.getD ""), lined_lines _, fun shown => ?_, ?_⟩
  · have found : lines (stderr.getD "") ≠ [] := visible_ne_nil shown
    obtain ⟨rank, digest⟩ := exists_digest found
    exact ⟨rank, _, _, digest, digest.few, digest.short,
      summary_of_chosen rfl digest.kept_ne_nil code⟩
  · intro stderr' code' raw' lined edited specific
    have alike : (lines (stderr'.getD "")).filter (Rank.specific.Admits ·) =
        (lines (stderr.getD "")).filter (Rank.specific.Admits ·) := by
      rw [lines_of_lined lined, lines_of_lined (lined_lines _), filter_visible, filter_visible]
      exact congrArg _ (edited.filter_eq fun line other => by simpa using other).symm
    have found : ∃ line ∈ lines (stderr.getD ""), Rank.specific.Admits line := by
      obtain ⟨line, mem, admits⟩ := specific
      have shown : trim line ≠ "" := admits.1.ne_empty
      exact ⟨trim line, List.mem_filter.mpr ⟨List.mem_map_of_mem mem, by simpa using shown⟩, admits⟩
    have found' : ∃ line ∈ lines (stderr'.getD ""), Rank.specific.Admits line := by
      rw [← filter_ne_nil_iff, alike, filter_ne_nil_iff]
      exact found
    have same : chosen (lines (stderr'.getD "")) = chosen (lines (stderr.getD "")) := by
      rw [chosen_of_specific found, chosen_of_specific found', alike]
    obtain ⟨line, mem, -⟩ := found
    obtain ⟨rank, digest⟩ := exists_digest (List.ne_nil_of_mem mem)
    rw [summary_of_chosen rfl digest.kept_ne_nil, summary_of_chosen same digest.kept_ne_nil]

/-- What is told of a failure between two lines of progress is told without them too. -/
theorem summary_digest_trial :
    (∃ rank kept pieces, Digest ["frame=1", "Error in input #0", "frame=2"] rank kept pieces ∧
      summary (some "frame=1\r\n Error in input #0\nframe=2") (some 1) = "; ".intercalate pieces) ∧
    summary (some " Error in input #0\n") none =
      summary (some "frame=1\r\n Error in input #0\nframe=2") (some 1) := by
  have read : Text.lines "frame=1\r\n Error in input #0\nframe=2" =
      ["frame=1", " Error in input #0", "frame=2"] := by
    decide +kernel
  have trimmed : visible ["frame=1", " Error in input #0", "frame=2"] =
      ["frame=1", "Error in input #0", "frame=2"] := by
    decide +kernel
  obtain ⟨-, -, -, raw, lined, told, same⟩ :=
    summary_digest (some "frame=1\r\n Error in input #0\nframe=2") (some 1)
  obtain rfl := read.symm.trans (lines_eq_of_lined lined)
  refine ⟨?_, ?_⟩
  · obtain ⟨rank, kept, pieces, digest, -, -, summary_eq⟩ :=
      told ⟨"frame=1", by simp, 'f', by decide, by decide⟩
    exact ⟨rank, kept, pieces, trimmed ▸ digest, summary_eq⟩
  · refine same (some " Error in input #0\n") none [" Error in input #0"] ?_ ?_ ?_
    · rw [lined_iff]
      decide +kernel
    · exact .delete (by decide +kernel) (.keep _ (.delete (by decide +kernel) .nil))
    · exact ⟨" Error in input #0", by simp, by decide +kernel⟩

end Diagnostic
end Splice
