import Mathlib.Data.List.Basic
import Splice.FilterGraph.Basic
import Splice.Proofs.Marks

/-! # Quotes in a graph's text

A graph's text is read from left to right. A single quote opens a run in which every character up to
the next single quote stands for itself; outside of quotes a backslash makes the next character stand
for itself. `Reads` says what a piece of text gives wherever it stands, so that a text is read piece
by piece.
-/

namespace Splice.FilterGraph

/-- A character of a graph's text after its quotes and backslashes are taken away. -/
inductive Symbol where
  /-- A character that was quoted or stood after a backslash. -/
  | literal (c : Char)
  /-- A character that stands open, and may be a sign of the graph. -/
  | bare (c : Char)
  deriving DecidableEq

def Symbol.char : Symbol → Char
  | .literal c => c
  | .bare c => c

def symbolText (symbols : List Symbol) : String := String.ofList (symbols.map Symbol.char)

@[simp] theorem char_literal (c : Char) : (Symbol.literal c).char = c := rfl

@[simp] theorem char_bare (c : Char) : (Symbol.bare c).char = c := rfl

theorem symbolText_map {symbol : Char → Symbol} (h : ∀ c, (symbol c).char = c) (s : String) :
    symbolText (s.toList.map symbol) = s := by
  simp [symbolText, Function.comp_def, h]

/-- A piece of text gives symbols wherever it stands, between the states of a scanner before it and
after it. -/
def Reads {σ : Type} (scan : σ → List Char → Option (List Symbol)) (before : σ) (piece : List Char)
    (symbols : List Symbol) (after : σ) : Prop :=
  ∀ rest, scan before (piece ++ rest) = (scan after rest).map (symbols ++ ·)

namespace Reads

variable {σ : Type} {scan : σ → List Char → Option (List Symbol)} {b m a : σ}

theorem nil : Reads scan m [] [] m := by
  intro rest
  simp

theorem append {front back : List Char} {x y : List Symbol} (hf : Reads scan b front x m)
    (hb : Reads scan m back y a) : Reads scan b (front ++ back) (x ++ y) a := by
  intro rest
  simp [hf (back ++ rest), hb rest, Function.comp_def]

theorem flatMap {α : Type} {piece : α → List Char} {symbols : α → List Symbol} {items : List α}
    (h : ∀ i ∈ items, Reads scan m (piece i) (symbols i) m) :
    Reads scan m (items.flatMap piece) (items.flatMap symbols) m := by
  induction items with
  | nil => exact nil
  | cons i rest ih =>
      exact append (h i (by simp)) (ih fun j hj => h j (List.mem_cons_of_mem i hj))

theorem map {symbol : Char → Symbol} {piece : List Char}
    (h : ∀ c ∈ piece, Reads scan m [c] [symbol c] m) :
    Reads scan m piece (piece.map symbol) m := by
  have items := flatMap h
  rwa [List.flatMap_singleton', ← List.map_eq_flatMap] at items

/-- Items with an open sign between them are read one by one. -/
theorem intercalate {α : Type} {sep : Char} (between : Reads scan m [sep] [.bare sep] m)
    {piece : α → List Char} {symbols : α → List Symbol} {items : List α}
    (each : ∀ i ∈ items, Reads scan m (piece i) (symbols i) m) :
    Reads scan m ([sep].intercalate (items.map piece))
      ([.bare sep].intercalate (items.map symbols)) m := by
  induction items with
  | nil => exact nil
  | cons i rest ih =>
      have first := each i (by simp)
      have later := ih fun j hj => each j (List.mem_cons_of_mem i hj)
      cases rest with
      | nil => simpa using first
      | cons j rest =>
          simp only [List.map_cons, List.intercalate_cons_cons] at later ⊢
          exact (first.append between).append later

theorem scan_eq (done : scan m [] = some []) {piece : List Char} {symbols : List Symbol}
    (h : Reads scan b piece symbols m) : scan b piece = some symbols := by
  simpa [done] using h []

end Reads

/-- Where the reader of a graph stands. -/
inductive Mode where
  | bare
  | quoted
  /-- After a backslash. -/
  | escaped
  deriving DecidableEq

/-- Take quotes and backslashes away. A text must not end inside quotes or after a backslash. -/
def scan? : Mode → List Char → Option (List Symbol)
  | .bare, [] => some []
  | .quoted, [] => none
  | .escaped, [] => none
  | .bare, c :: rest =>
    if c = '\'' then scan? .quoted rest
    else if c = '\\' then scan? .escaped rest
    else (scan? .bare rest).map (.bare c :: ·)
  | .quoted, c :: rest =>
    if c = '\'' then scan? .bare rest else (scan? .quoted rest).map (.literal c :: ·)
  | .escaped, c :: rest => (scan? .bare rest).map (.literal c :: ·)

def unquote? (text : String) : Option String := (scan? .bare text.toList).map symbolText

theorem reads_openQuote : Reads scan? .bare ['\''] [] .quoted := by
  intro rest
  simp [scan?]

theorem reads_closeQuote : Reads scan? .quoted ['\''] [] .bare := by
  intro rest
  simp [scan?]

theorem reads_escaped (c : Char) : Reads scan? .bare ['\\', c] [.literal c] .bare := by
  intro rest
  simp [scan?]

theorem reads_quoted {c : Char} (h : c ≠ '\'') :
    Reads scan? .quoted [c] [.literal c] .quoted := by
  intro rest
  simp [scan?, h]

theorem reads_bare {c : Char} (h : c ≠ '\'' ∧ c ≠ '\\') : Reads scan? .bare [c] [.bare c] .bare := by
  intro rest
  simp [scan?, h]

/-- The characters that have a meaning for a graph beside the comma. -/
def signs : List Char := ['\'', '\\', ';', '[', ']']

/-- A text that is read as a whole: it closes its quotes, and keeps all signs inside of them. -/
structure Closed (s : String) (symbols : List Symbol) : Prop where
  reads : Reads scan? .bare s.toList symbols .bare
  noSign : ∀ c ∈ signs, .bare c ∉ symbols

namespace Closed

theorem append {s t : String} {x y : List Symbol} (hs : Closed s x) (ht : Closed t y) :
    Closed (s ++ t) (x ++ y) := by
  refine ⟨?_, fun c hc hm => ?_⟩
  · rw [String.toList_append]
    exact hs.reads.append ht.reads
  · rcases List.mem_append.mp hm with h | h
    · exact hs.noSign c hc h
    · exact ht.noSign c hc h

theorem plain {s : String} (h : Avoids signs s) : Closed s (s.toList.map .bare) := by
  refine ⟨?_, fun c hc hm => ?_⟩
  · apply Reads.map
    intro c hc
    apply reads_bare
    constructor
    · rintro rfl
      exact h _ hc (by decide)
    · rintro rfl
      exact h _ hc (by decide)
  · obtain ⟨d, hd, same⟩ := List.mem_map.mp hm
    obtain rfl := Symbol.bare.inj same
    exact h d hd hc

/-- A quoted text may hold anything that can be read inside quotes. -/
theorem quoted {s : String} {chars : List Char}
    (h : Reads scan? .quoted s.toList (chars.map .literal) .quoted) :
    Closed ("'" ++ s ++ "'") (chars.map .literal) := by
  refine ⟨?_, fun c hc hm => by simp at hm⟩
  simpa using (reads_openQuote.append h).append reads_closeQuote

end Closed
end Splice.FilterGraph
