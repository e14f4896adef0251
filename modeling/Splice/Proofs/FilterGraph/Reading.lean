import Splice.Proofs.FilterGraph.Quoting
import Splice.Proofs.FilterGraph.WellFormed

/-! # Reading a graph

A reader of graph texts: an open `;` ends a chain, an open `,` ends a filter, and labels in open
brackets at the start and at the end of a chain are its pads. What is written from chains of closed
filters is read back as these chains, whatever stands inside the quotes.
-/

namespace Splice

namespace FilterGraph

/-- The pads at the start of a text, and what follows them. -/
def takePads : List Symbol → List String × List Symbol
  | .bare '[' :: rest =>
    let after := (rest.dropWhile (· != .bare ']')).tail
    (symbolText (rest.takeWhile (· != .bare ']')) :: (takePads after).1, (takePads after).2)
  | symbols => ([], symbols)
termination_by symbols => symbols.length
decreasing_by
  all_goals
    have shorter := (List.dropWhile_suffix (l := rest) (· != .bare ']')).length_le
    simp only [List.length_tail, List.length_cons]
    omega

/-- The filters of a text, with their quotes and backslashes taken away. -/
def readFilters (symbols : List Symbol) : List String :=
  (symbols.splitOn (.bare ',')).map symbolText

/-- Read a chain: pads, filters, pads. -/
def readChain? (symbols : List Symbol) : Option Chain :=
  let (inputs, rest) := takePads symbols
  let filters := rest.takeWhile (· != .bare '[')
  match takePads (rest.dropWhile (· != .bare '[')) with
  | (outputs, []) => some ⟨inputs, readFilters filters, outputs⟩
  | _ => none

def read? (text : String) : Option (List Chain) := do
  let symbols ← scan? .bare text.toList
  (symbols.splitOn (.bare ';')).mapM readChain?

/-- The symbols of a text alone; none if it cannot be read. -/
def symbolsOf (text : String) : List Symbol := (scan? .bare text.toList).getD []

/-- The filters that a text alone is read as. -/
def filtersOf (text : String) : List String := readFilters (symbolsOf text)

theorem Closed.symbolsOf_eq {s : String} {symbols : List Symbol} (h : Closed s symbols) :
    symbolsOf s = symbols := by
  rw [symbolsOf, h.reads.scan_eq rfl, Option.getD_some]

/-- A text that stays one piece among filters, and the text it is read as. -/
structure Piece (s read : String) : Prop where
  closed : Closed s (symbolsOf s)
  noComma : .bare ',' ∉ symbolsOf s
  reads : symbolText (symbolsOf s) = read

namespace Piece

theorem of_closed {s : String} {symbols : List Symbol} (h : Closed s symbols)
    (noComma : .bare ',' ∉ symbols) : Piece s (symbolText symbols) := by
  obtain rfl := h.symbolsOf_eq
  exact ⟨h, noComma, rfl⟩

theorem append {s t r u : String} (hs : Piece s r) (ht : Piece t u) : Piece (s ++ t) (r ++ u) := by
  have both : Piece _ _ := of_closed (hs.closed.append ht.closed) fun h =>
    (List.mem_append.mp h).elim hs.noComma ht.noComma
  have text : symbolText (symbolsOf s ++ symbolsOf t) = r ++ u := by
    rw [← hs.reads, ← ht.reads]
    simp [symbolText]
  rwa [text] at both

/-- A text without signs and commas is read as it is. -/
theorem plain {s : String} (h : Avoids (',' :: signs) s) : Piece s s := by
  have bare := Closed.plain (h.mono (List.subset_cons_self _ _))
  have piece := of_closed bare fun hm => by
    obtain ⟨c, hc, same⟩ := List.mem_map.mp hm
    obtain rfl := Symbol.bare.inj same
    exact h _ hc (by simp)
  rwa [symbolText_map char_bare] at piece

theorem quoted {s read : String}
    (h : Reads scan? .quoted s.toList (read.toList.map .literal) .quoted) :
    Piece ("'" ++ s ++ "'") read := by
  have piece := of_closed (Closed.quoted h) (by simp)
  rwa [symbolText_map char_literal] at piece

theorem quoted_plain {s : String} (h : Avoids ['\''] s) : Piece ("'" ++ s ++ "'") s := by
  apply quoted
  apply Reads.map
  intro c hc
  exact reads_quoted fun same => h c hc (by simp [same])

theorem intercalate {α : Type} {sep : String} (between : Piece sep sep) {text read : α → String}
    {items : List α} (each : ∀ i ∈ items, Piece (text i) (read i)) :
    Piece (sep.intercalate (items.map text)) (sep.intercalate (items.map read)) := by
  induction items with
  | nil =>
      have empty : Piece "" "" := plain (by decide)
      simpa using empty
  | cons i rest ih =>
      have first := each i (by simp)
      have later := ih fun j hj => each j (List.mem_cons_of_mem i hj)
      cases rest with
      | nil => simpa using first
      | cons j rest =>
          simp only [List.map_cons, String.intercalate_cons_cons] at later ⊢
          exact (first.append between).append later

theorem unquote? {s read : String} (h : Piece s read) : unquote? s = some read := by
  rw [FilterGraph.unquote?, h.closed.reads.scan_eq rfl, Option.map_some, h.reads]

end Piece

/-- A text of filters, and the filters it is read as. -/
structure Filters (s : String) (read : List String) : Prop where
  closed : Closed s (symbolsOf s)
  some_symbol : symbolsOf s ≠ []
  reads : filtersOf s = read

theorem Piece.filters {s read : String} (h : Piece s read) (nonempty : read ≠ "") :
    Filters s [read] := by
  refine ⟨h.closed, fun empty => nonempty ?_, ?_⟩
  · rw [← h.reads, empty]
    rfl
  · rw [filtersOf, readFilters, List.splitOn_eq_singleton h.noComma, List.map_singleton, h.reads]

theorem Filters.comma {s t : String} {x y : List String} (hs : Filters s x) (ht : Filters t y) :
    Filters (s ++ "," ++ t) (x ++ y) := by
  have comma : Closed "," [.bare ','] := Closed.plain (by decide)
  have all := (hs.closed.append comma).append ht.closed
  have symbols := all.symbolsOf_eq
  rw [← symbols] at all
  refine ⟨all, by simp [symbols, hs.some_symbol], ?_⟩
  rw [filtersOf, symbols, ← hs.reads, ← ht.reads, readFilters, List.append_assoc,
    List.singleton_append, List.splitOn_append_cons_self, List.map_append]
  rfl

end FilterGraph

namespace Chain

open FilterGraph

/-- A chain as it is read: its filters without quotes, and a text of several filters taken apart. -/
def unquoted (c : Chain) : Chain := { c with filters := c.filters.flatMap filtersOf }

/-- A chain that can be read back: its labels have no signs, and its filters keep theirs in quotes. -/
structure Readable (c : Chain) : Prop where
  pads : ∀ pad ∈ c.inputs ++ c.outputs, Avoids signs pad
  someFilter : c.filters ≠ []
  read : ∀ f ∈ c.filters, ∃ read, Filters f read

/-- The symbols of a pad between brackets. -/
def padSymbols (pad : String) : List Symbol :=
  .bare '[' :: (pad.toList.map .bare ++ [.bare ']'])

def filterSymbols (c : Chain) : List Symbol := [.bare ','].intercalate (c.filters.map symbolsOf)

def symbols (c : Chain) : List Symbol :=
  c.inputs.flatMap padSymbols ++ c.filterSymbols ++ c.outputs.flatMap padSymbols

end Chain

namespace FilterGraph

theorem reads_pads {pads : List String} (h : ∀ pad ∈ pads, Avoids signs pad) :
    Reads scan? .bare (String.join (pads.map padText)).toList (pads.flatMap Chain.padSymbols) .bare := by
  rw [String.toList_join, List.flatMap_map]
  apply Reads.flatMap
  intro pad hp
  have opened : Reads scan? .bare ['['] [.bare '['] .bare := reads_bare (by decide)
  have closed : Reads scan? .bare [']'] [.bare ']'] .bare := reads_bare (by decide)
  simpa [padText, Chain.padSymbols] using (opened.append (Closed.plain (h pad hp)).reads).append closed

theorem semicolon_not_mem_padSymbols {pad : String} (h : Avoids signs pad) :
    .bare ';' ∉ Chain.padSymbols pad := by
  intro hm
  have inside : ';' ∈ pad.toList := by simpa [Chain.padSymbols] using hm
  exact h ';' inside (by decide)

theorem takePads_of_head? {symbols : List Symbol} (h : symbols.head? ≠ some (.bare '[')) :
    takePads symbols = ([], symbols) := by
  apply takePads.eq_2
  rintro rest rfl
  exact h rfl

theorem takePads_pads {pads : List String} (h : ∀ pad ∈ pads, Avoids signs pad) {rest : List Symbol}
    (hr : rest.head? ≠ some (.bare '[')) :
    takePads (pads.flatMap Chain.padSymbols ++ rest) = (pads, rest) := by
  induction pads with
  | nil => exact takePads_of_head? hr
  | cons pad pads ih =>
      have label : ∀ s ∈ pad.toList.map Symbol.bare, (s != .bare ']') = true := by
        intro s hs
        obtain ⟨c, hc, rfl⟩ := List.mem_map.mp hs
        rw [bne_iff_ne]
        intro same
        obtain rfl := Symbol.bare.inj same
        exact h pad (by simp) _ hc (by decide)
      have later := ih fun other ho => h other (List.mem_cons_of_mem pad ho)
      simp only [List.flatMap_cons, Chain.padSymbols, List.cons_append, List.append_assoc,
        List.nil_append]
      rw [takePads, List.takeWhile_append_of_pos label, List.dropWhile_append_of_pos label]
      simp [later, symbolText_map char_bare]

theorem splitOn_intercalate_flatMap {α : Type} [BEq α] [LawfulBEq α] (a : α) {items : List (List α)}
    (some_item : items ≠ []) :
    ([a].intercalate items).splitOn a = items.flatMap (List.splitOn a) := by
  induction items with
  | nil => exact absurd rfl some_item
  | cons i rest ih =>
      cases rest with
      | nil => simp
      | cons j rest =>
          rw [List.intercalate_cons_cons, List.append_assoc, List.singleton_append,
            List.splitOn_append_cons_self, ih (by simp)]
          rfl

theorem mapM_map_eq_some {α β γ : Type} {f : α → β} {g : α → γ} {read : β → Option γ}
    {items : List α} (h : ∀ i ∈ items, read (f i) = some (g i)) :
    (items.map f).mapM read = some (items.map g) := by
  induction items with
  | nil => rfl
  | cons i rest ih =>
      have later := ih fun j hj => h j (List.mem_cons_of_mem i hj)
      simp [h i (by simp), later]

end FilterGraph

namespace Chain.Readable

open FilterGraph

variable {c : Chain}

theorem noSign_filterSymbols (h : c.Readable) {d : Char} (hd : d ∈ signs) :
    .bare d ∉ c.filterSymbols := by
  intro hm
  rcases mem_intercalate hm with hs | ⟨symbols, hs, hm⟩
  · obtain rfl := Symbol.bare.inj (List.mem_singleton.mp hs)
    exact absurd hd (by decide)
  · obtain ⟨f, hf, rfl⟩ := List.mem_map.mp hs
    obtain ⟨_, filters⟩ := h.read f hf
    exact filters.closed.noSign d hd hm

theorem filterSymbols_ne_nil (h : c.Readable) : c.filterSymbols ≠ [] := by
  obtain ⟨f, rest, filters⟩ := List.exists_cons_of_ne_nil h.someFilter
  obtain ⟨_, first⟩ := h.read f (by simp [filters])
  cases rest with
  | nil => simpa [filterSymbols, filters] using first.some_symbol
  | cons => simp [filterSymbols, filters]

theorem reads (h : c.Readable) : Reads scan? .bare c.text.toList c.symbols .bare := by
  have inputs := reads_pads fun pad hp => h.pads pad (List.mem_append_left _ hp)
  have outputs := reads_pads fun pad hp => h.pads pad (List.mem_append_right _ hp)
  have comma : Reads scan? .bare [','] [.bare ','] .bare := reads_bare (by decide)
  have filters := Reads.intercalate comma fun f hf => (h.read f hf).choose_spec.closed.reads
  simpa [Chain.text, symbols, filterSymbols, String.toList_intercalate] using
    (inputs.append filters).append outputs

theorem noSemicolon (h : c.Readable) : .bare ';' ∉ c.symbols := by
  have pads : ∀ pads ⊆ c.inputs ++ c.outputs, .bare ';' ∉ pads.flatMap padSymbols := by
    intro pads hs hm
    obtain ⟨pad, hp, hm⟩ := List.mem_flatMap.mp hm
    exact semicolon_not_mem_padSymbols (h.pads pad (hs hp)) hm
  simp only [symbols, List.mem_append, not_or]
  exact ⟨⟨pads _ (List.subset_append_left ..), h.noSign_filterSymbols (by decide)⟩,
    pads _ (List.subset_append_right ..)⟩

theorem readFilters_filterSymbols (h : c.Readable) :
    readFilters c.filterSymbols = c.filters.flatMap filtersOf := by
  have some_item : c.filters.map symbolsOf ≠ [] := by simpa using h.someFilter
  rw [readFilters, filterSymbols, splitOn_intercalate_flatMap _ some_item, List.flatMap_map,
    List.map_flatMap]
  rfl

theorem readChain?_symbols (h : c.Readable) : readChain? c.symbols = some c.unquoted := by
  have noBracket : ∀ s ∈ c.filterSymbols, (s != .bare '[') = true := by
    intro s hs
    rw [bne_iff_ne]
    rintro rfl
    exact h.noSign_filterSymbols (by decide) hs
  have head : (c.filterSymbols ++ c.outputs.flatMap padSymbols).head? ≠ some (.bare '[') := by
    obtain ⟨s, rest, filters⟩ := List.exists_cons_of_ne_nil h.filterSymbols_ne_nil
    have := noBracket s (by simp [filters])
    simpa [filters] using this
  have inputs := takePads_pads (fun pad hp => h.pads pad (List.mem_append_left _ hp)) head
  have outputs := @takePads_pads c.outputs (fun pad hp => h.pads pad (List.mem_append_right _ hp)) []
    (by simp)
  -- what follows the filters starts with a bracket, if there is anything
  have filters : (c.outputs.flatMap padSymbols).takeWhile (· != .bare '[') = [] ∧
      (c.outputs.flatMap padSymbols).dropWhile (· != .bare '[') = c.outputs.flatMap padSymbols := by
    cases c.outputs with
    | nil => simp
    | cons pad pads => simp [padSymbols]
  rw [List.append_nil] at outputs
  simp only [readChain?, symbols, List.append_assoc, inputs]
  rw [List.takeWhile_append_of_pos noBracket, List.dropWhile_append_of_pos noBracket, filters.1,
    filters.2, outputs]
  simp only [List.append_nil, h.readFilters_filterSymbols]
  rfl

end Chain.Readable

namespace FilterGraph

/-- A graph of readable chains is read back as these chains. -/
theorem read?_intercalate {chains : List Chain} (some_chain : chains ≠ [])
    (readable : ∀ c ∈ chains, c.Readable) :
    read? (";".intercalate (chains.map Chain.text)) = some (chains.map Chain.unquoted) := by
  have semicolon : Reads scan? .bare [';'] [.bare ';'] .bare := reads_bare (by decide)
  have symbols := (Reads.intercalate semicolon fun c hc => (readable c hc).reads).scan_eq rfl
  have noSemicolon : ∀ l ∈ chains.map Chain.symbols, .bare ';' ∉ l := by
    intro l hl
    obtain ⟨c, hc, rfl⟩ := List.mem_map.mp hl
    exact (readable c hc).noSemicolon
  have text : (";".intercalate (chains.map Chain.text)).toList =
      [';'].intercalate (chains.map fun c => c.text.toList) := by
    simp [String.toList_intercalate, Function.comp_def]
  rw [read?, text, symbols]
  simp only [Option.bind_eq_bind, Option.bind_some]
  rw [List.splitOn_intercalate _ noSemicolon (by simpa using some_chain)]
  exact mapM_map_eq_some fun c hc => (readable c hc).readChain?_symbols

end FilterGraph
end Splice
