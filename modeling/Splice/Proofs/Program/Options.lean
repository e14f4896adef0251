import Splice.Proofs.Program.Reading

/-! # The options of filters

A filter that was read from a graph is a name, an `=` and options. What a chain says of some matter is
what its filters of one name say, and these are found however the chain was put together.
-/

namespace Splice

namespace FilterGraph

/-- The name of a filter: what stands before the first `=`. -/
def filterName (filter : String) : List Char := filter.toList.takeWhile (· != '=')

/-- What stands after the first `=`. -/
def filterOptions (filter : String) : String :=
  String.ofList (filter.toList.dropWhile (· != '=')).tail

/-- The options of each filter of a name among several; none for one whose options cannot be read. -/
def optionsNamed (name : String) (filters : List String) :
    List (Option (List (String × String))) :=
  (filters.filter (filterName · == name.toList)).map fun f => Overlay.optionsOf? (filterOptions f)

section

variable (name : String)

@[simp] theorem optionsNamed_nil : optionsNamed name [] = [] := rfl

@[simp] theorem optionsNamed_append (front back : List String) :
    optionsNamed name (front ++ back) = optionsNamed name front ++ optionsNamed name back := by
  simp [optionsNamed]

theorem optionsNamed_flatMap {α : Type} (f : α → List String) (items : List α) :
    optionsNamed name (items.flatMap f) = items.flatMap fun i => optionsNamed name (f i) := by
  induction items with
  | nil => rfl
  | cons i rest ih => simp [ih]

/-- A text of options that is read as one filter. -/
theorem optionsNamed_of_piece {f own options : String} (h : Piece f (own ++ "=" ++ options))
    (noEquals : '=' ∉ own.toList) :
    optionsNamed name (filtersOf f) =
      if own = name then [Overlay.optionsOf? options] else [] := by
  have before : ∀ c ∈ own.toList, (c != '=') = true := by
    intro c hc
    rw [bne_iff_ne]
    rintro rfl
    exact noEquals hc
  have named : filterName (own ++ "=" ++ options) = own.toList := by
    simp [filterName, List.takeWhile_append_of_pos before]
  have given : filterOptions (own ++ "=" ++ options) = options := by
    simp [filterOptions, List.dropWhile_append_of_pos before]
  have sameName : (filterName (own ++ "=" ++ options) == name.toList) = decide (own = name) := by
    rw [named, Bool.eq_iff_iff, beq_iff_eq, decide_eq_true_iff]
    exact String.toList_inj
  rw [(h.filters (by simp)).reads, optionsNamed, List.filter_singleton, sameName]
  by_cases same : own = name
  · rw [if_pos same, decide_eq_true same, cond_true, List.map_singleton, given]
  · rw [if_neg same, decide_eq_false same, cond_false, List.map_nil]

/-- A text of two filters that an open comma stands between. -/
theorem optionsNamed_comma {s t : String} {x y : List String} (hs : Filters s x) (ht : Filters t y) :
    optionsNamed name (filtersOf (s ++ "," ++ t)) =
      optionsNamed name (filtersOf s) ++ optionsNamed name (filtersOf t) := by
  rw [(hs.comma ht).reads, optionsNamed_append, hs.reads, ht.reads]

/-- A filter of another name, whatever its options are. -/
theorem optionsNamed_other (own : String) {f : String} (plain : Avoids (',' :: signs) f)
    (nonempty : f ≠ "") (named : filterName f = own.toList) (other : own ≠ name) :
    optionsNamed name (filtersOf f) = [] := by
  have different : (filterName f == name.toList) = false := by
    rw [named, beq_eq_false_iff_ne]
    exact fun h => other (String.toList_injective h)
  rw [((Piece.plain plain).filters nonempty).reads, optionsNamed, List.filter_singleton, different]
  rfl

/-- A filter of options that keep their marks in quotes. -/
theorem optionsNamed_options (own : String) (plain : Avoids ('=' :: Overlay.marks) own)
    {os : List Overlay.DrawOption} (some_option : os ≠ []) (tidy : ∀ o ∈ os, o.Tidy) :
    optionsNamed name (filtersOf (own ++ "=" ++ ":".intercalate (os.map Overlay.DrawOption.text))) =
      if own = name then [some (os.map fun o => (o.name, o.value))] else [] := by
  have start : Avoids Overlay.marks (own ++ "=") :=
    Avoids.append_iff.mpr ⟨plain.mono (List.subset_cons_self _ _), by decide⟩
  have noEquals : '=' ∉ own.toList := fun h => plain '=' h (by simp)
  rw [optionsNamed_of_piece name (Overlay.piece_options start tidy) noEquals,
    Overlay.optionsOf?_intercalate some_option tidy]

end

/-- The options of each filter of a name in texts of filters. -/
def optionsIn (name : String) (texts : List String) : List (Option (List (String × String))) :=
  texts.flatMap fun f => optionsNamed name (filtersOf f)

@[simp] theorem optionsIn_nil (name : String) : optionsIn name [] = [] := rfl

@[simp] theorem optionsIn_cons (name f : String) (rest : List String) :
    optionsIn name (f :: rest) = optionsNamed name (filtersOf f) ++ optionsIn name rest :=
  List.flatMap_cons

@[simp] theorem optionsIn_append (name : String) (front back : List String) :
    optionsIn name (front ++ back) = optionsIn name front ++ optionsIn name back :=
  List.flatMap_append

end FilterGraph

/-- The options of each filter of a name in a chain. -/
def Chain.optionsNamed (c : Chain) (name : String) : List (Option (List (String × String))) :=
  FilterGraph.optionsNamed name c.filters

theorem Chain.optionsNamed_unquoted (c : Chain) (name : String) :
    c.unquoted.optionsNamed name = FilterGraph.optionsIn name c.filters :=
  FilterGraph.optionsNamed_flatMap name FilterGraph.filtersOf c.filters

end Splice
