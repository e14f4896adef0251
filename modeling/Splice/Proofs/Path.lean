import Splice.Path

/-! # Paths and their texts

A tidy path is the path that its own text denotes. A text that is added at the end of another one, and
has no slash, goes to the last step of the path.
-/

namespace Splice

namespace Text

variable {p : Char → Bool}

theorem splitRuns_plain {cs : List Char} (plain : ∀ c ∈ cs, p c = false) :
    splitRuns p cs = [cs] := by
  induction cs with
  | nil => rfl
  | cons c rest ih =>
      rw [splitRuns, if_neg (by simp [plain c]), ih fun d hd => plain d (List.mem_cons_of_mem c hd)]
      rfl

theorem splitRuns_ne_nil (p : Char → Bool) (cs : List Char) : splitRuns p cs ≠ [] := by
  induction cs with
  | nil => simp [splitRuns]
  | cons c rest ih =>
      rw [splitRuns]
      split
      · simp
      · cases runs : splitRuns p rest with
        | nil => exact absurd runs ih
        | cons run more => simp [consWord]

theorem splitRuns_separator {c : Char} (separator : p c = true) (cs rest : List Char) :
    splitRuns p (cs ++ c :: rest) = splitRuns p cs ++ splitRuns p rest := by
  induction cs with
  | nil => simp [splitRuns, separator]
  | cons d ds ih =>
      rw [List.cons_append, splitRuns, splitRuns, ih]
      split
      · rfl
      · cases runs : splitRuns p ds with
        | nil => exact absurd runs (splitRuns_ne_nil p ds)
        | cons run more => rfl

theorem splitRuns_intercalate {c : Char} (separator : p c = true) {runs : List (List Char)}
    (some_run : runs ≠ []) (plain : ∀ run ∈ runs, ∀ d ∈ run, p d = false) :
    splitRuns p ([c].intercalate runs) = runs := by
  induction runs with
  | nil => exact absurd rfl some_run
  | cons run rest ih =>
      cases rest with
      | nil => simpa using splitRuns_plain (plain run (by simp))
      | cons next rest =>
          rw [List.intercalate_cons_cons, List.append_assoc, List.singleton_append,
            splitRuns_separator separator, splitRuns_plain (plain run (by simp)), List.singleton_append,
            ih (by simp) fun r hr => plain r (List.mem_cons_of_mem run hr)]

/-- What has no separator goes to the last run. -/
theorem splitRuns_append (p : Char → Bool) (cs : List Char) :
    ∃ front last, ∀ suffix, (∀ c ∈ suffix, p c = false) →
      splitRuns p (cs ++ suffix) = front ++ [last ++ suffix] := by
  induction cs with
  | nil => exact ⟨[], [], fun suffix plain => splitRuns_plain plain⟩
  | cons c rest ih =>
      obtain ⟨front, last, split⟩ := ih
      by_cases separator : p c = true
      · refine ⟨[] :: front, last, fun suffix plain => ?_⟩
        rw [List.cons_append, splitRuns, if_pos separator, split suffix plain]
        rfl
      · cases front with
        | nil =>
            refine ⟨[], c :: last, fun suffix plain => ?_⟩
            rw [List.cons_append, splitRuns, if_neg separator, split suffix plain]
            rfl
        | cons run front =>
            refine ⟨(c :: run) :: front, last, fun suffix plain => ?_⟩
            rw [List.cons_append, splitRuns, if_neg separator, split suffix plain]
            rfl

theorem not_mem_splitRuns {cs run : List Char} (h : run ∈ splitRuns p cs) : ∀ c ∈ run, p c = false := by
  induction cs generalizing run with
  | nil =>
      obtain rfl : run = [] := by simpa [splitRuns] using h
      simp
  | cons c rest ih =>
      rw [splitRuns] at h
      split at h
      · rcases List.mem_cons.mp h with rfl | h
        · simp
        · exact ih h
      · rename_i plain
        cases runs : splitRuns p rest with
        | nil =>
            obtain rfl : run = [c] := by simpa [runs, consWord] using h
            simpa using plain
        | cons first others =>
            rw [runs] at h ih
            rcases List.mem_cons.mp h with rfl | h
            · intro d hd
              rcases List.mem_cons.mp hd with rfl | hd
              · simpa using plain
              · exact ih (by simp) d hd
            · exact ih (List.mem_cons_of_mem first h)

end Text

namespace Path

/-- Whether a step of a path can be read back from the path's text. -/
def IsTidyStep (part : String) : Prop := isStep part = true ∧ '/' ∉ part.toList

/-- All steps can be read back from the text. -/
def Tidy (p : Path) : Prop := ∀ part ∈ p.parts, IsTidyStep part

theorem isStep_iff {part : String} : isStep part = true ↔ part ≠ "" ∧ part ≠ "." := by
  simp [isStep]

theorem ofText_tidy (s : String) : (ofText s).Tidy := by
  intro part h
  obtain ⟨mem, step⟩ := List.mem_filter.mp h
  obtain ⟨run, hr, rfl⟩ := List.mem_map.mp mem
  refine ⟨step, fun slash => ?_⟩
  have plain := Text.not_mem_splitRuns hr '/' (by simpa using slash)
  simp at plain

theorem Tidy.join {a b : Path} (ha : a.Tidy) (hb : b.Tidy) : (a.join b).Tidy := by
  unfold Path.join
  split
  · exact hb
  · intro part h
    exact (List.mem_append.mp h).elim (ha part) (hb part)

theorem rootOf_append (cs : List Char) {suffix : List Char} (plain : suffix.head? ≠ some '/') :
    rootOf (cs ++ suffix) = rootOf cs := by
  have none_here : suffix.takeWhile (· == '/') = [] := by
    cases suffix with
    | nil => rfl
    | cons c rest => exact List.takeWhile_cons_of_neg (by simpa using plain)
  have same : (cs ++ suffix).takeWhile (· == '/') = cs.takeWhile (· == '/') := by
    induction cs with
    | nil => exact none_here
    | cons c rest ih => rw [List.cons_append, List.takeWhile_cons, List.takeWhile_cons, ih]
  rw [rootOf, same, rootOf]

theorem rootOf_rootText (root : PathRoot) {cs : List Char} (plain : cs.head? ≠ some '/') :
    rootOf ((rootText root).toList ++ cs) = root := by
  rw [rootOf_append _ plain]
  cases root <;> rfl

/-- Every slash at the beginning ends a run of nothing. -/
theorem splitRuns_rootText (root : PathRoot) (cs : List Char) :
    Text.splitRuns (· == '/') ((rootText root).toList ++ cs) =
      ((rootText root).toList.map fun _ => []) ++ Text.splitRuns (· == '/') cs := by
  cases root <;> rfl

theorem toList_intercalate (parts : List String) :
    ("/".intercalate parts).toList = ['/'].intercalate (parts.map String.toList) := by
  rw [String.toList_intercalate]
  rfl

theorem intercalate_append_singleton (xs : List (List Char)) (sep y : List Char) :
    sep.intercalate (xs ++ [y]) = sep.intercalate (xs ++ [[]]) ++ y := by
  induction xs with
  | nil => simp
  | cons x rest ih =>
      cases rest with
      | nil => simp [List.intercalate_cons_cons]
      | cons next more =>
          simp only [List.cons_append] at ih ⊢
          rw [List.intercalate_cons_cons, List.intercalate_cons_cons, ih]
          simp

/-- What is added to the last step of a path goes to the end of its text. -/
theorem text_last (root : PathRoot) (front : List String) :
    ∃ stem, ∀ last : String, text ⟨root, front ++ [last]⟩ = stem ++ last := by
  refine ⟨rootText root ++ String.ofList (['/'].intercalate (front.map String.toList ++ [[]])),
    fun last => ?_⟩
  apply String.toList_injective
  rw [text, if_neg (by simp), String.toList_append, toList_intercalate, List.map_append,
    List.map_singleton, intercalate_append_singleton]
  simp

/-- Only the text of a top ends in a slash. -/
theorem exists_text_eq {p : Path} (tidy : p.Tidy) (below : p.isAbsolute = true → p.parts ≠ []) :
    ∃ (front : List Char) (c : Char), c ≠ '/' ∧ p.text.toList = front ++ [c] := by
  obtain ⟨root, parts⟩ := p
  rcases List.eq_nil_or_concat parts with rfl | ⟨front, last, rfl⟩
  · cases root with
    | none => exact ⟨[], '.', by decide, by decide⟩
    | one => exact absurd rfl (below rfl)
    | two => exact absurd rfl (below rfl)
  · obtain ⟨step, slash⟩ := tidy last (by simp)
    have filled : last.toList ≠ [] := fun none =>
      (isStep_iff.mp step).1 (String.toList_eq_nil_iff.mp none)
    obtain ⟨chars, c, split⟩ := (List.eq_nil_or_concat last.toList).resolve_left filled
    rw [List.concat_eq_append] at split
    obtain ⟨stem, text⟩ := text_last root front
    refine ⟨stem.toList ++ chars, c, fun same => slash (by rw [split, same]; simp), ?_⟩
    rw [List.concat_eq_append, text, String.toList_append, split, List.append_assoc]

theorem not_endsWith_slash {p : Path} (tidy : p.Tidy) (below : p.isAbsolute = true → p.parts ≠ []) :
    p.text.endsWith "/" = false := by
  obtain ⟨front, c, plain, text⟩ := exists_text_eq tidy below
  rw [String.endsWith_eq_endsWith_toSlice, String.Slice.endsWith_string_eq_false_iff]
  rintro ⟨before, whole⟩
  have whole : before ++ ['/'] = front ++ [c] := by
    rw [← text]
    simpa using whole
  exact plain (List.singleton_inj.mp (List.append_inj_right' whole rfl)).symm

theorem text_ne_empty {p : Path} (tidy : p.Tidy) (below : p.isAbsolute = true → p.parts ≠ []) :
    p.text.isEmpty = false := by
  obtain ⟨front, c, -, text⟩ := exists_text_eq tidy below
  rw [← Bool.not_eq_true, String.isEmpty_iff, ← String.toList_eq_nil_iff, text]
  simp

/-- A tidy path is denoted by its text. -/
theorem ofText_text {p : Path} (tidy : p.Tidy) : ofText p.text = p := by
  obtain ⟨root, parts⟩ := p
  cases parts with
  | nil => cases root <;> decide
  | cons first rest =>
      have notPoint : ¬ (root = .none ∧ first :: rest = []) := by simp
      have plain : ∀ run ∈ (first :: rest).map String.toList, ∀ c ∈ run, (c == '/') = false := by
        intro run hr c hc
        obtain ⟨part, hp, rfl⟩ := List.mem_map.mp hr
        have free := (tidy part hp).2
        simp only [beq_eq_false_iff_ne]
        rintro rfl
        exact free hc
      have head : (['/'].intercalate ((first :: rest).map String.toList)).head? ≠ some '/' := by
        obtain ⟨step, free⟩ := tidy first (by simp)
        cases chars : first.toList with
        | nil => exact absurd (String.toList_eq_nil_iff.mp chars) (isStep_iff.mp step).1
        | cons c cs =>
            have other : c ≠ '/' := by
              rintro rfl
              simp [chars] at free
            cases rest with
            | nil => simpa [chars] using other
            | cons second more => simpa [chars, List.intercalate_cons_cons] using other
      have runs := Text.splitRuns_intercalate (p := (· == '/')) (c := '/') rfl (by simp) plain
      have steps : (first :: rest).filter isStep = first :: rest :=
        List.filter_eq_self.mpr fun part hp => (tidy part hp).1
      rw [ofText, text, if_neg notPoint, String.toList_append, toList_intercalate,
        rootOf_rootText root head, splitRuns_rootText, runs, List.map_append, List.map_map,
        List.map_map, List.filter_append]
      have rebuilt : String.ofList ∘ String.toList = id := funext fun _ => String.ofList_toList
      rw [rebuilt, List.map_id, steps]
      cases root <;> simp [rootText, isStep]

theorem append_ne_of_length_lt {s a b : String} (short : s.length < b.length) : a ++ b ≠ s := by
  rintro rfl
  rw [String.length_append] at short
  omega

/-- The path of a text with more at its end, which has no slash: only the last step depends on it. -/
theorem ofText_append (s : String) :
    ∃ root front last, ∀ suffix : String, '/' ∉ suffix.toList → 1 < suffix.length →
      ofText (s ++ suffix) = ⟨root, front ++ [last ++ suffix]⟩ := by
  obtain ⟨front, last, split⟩ := Text.splitRuns_append (· == '/') s.toList
  refine ⟨rootOf s.toList, (front.map String.ofList).filter isStep, String.ofList last,
    fun suffix plain long => ?_⟩
  have runs := split suffix.toList fun c hc => by
    apply beq_false_of_ne
    rintro rfl
    exact plain hc
  have first : suffix.toList.head? ≠ some '/' := fun slash => plain (List.mem_of_head? slash)
  have step : isStep (String.ofList last ++ suffix) = true :=
    isStep_iff.mpr ⟨append_ne_of_length_lt (by rw [String.length_empty]; omega),
      append_ne_of_length_lt long⟩
  have rebuilt : String.ofList (last ++ suffix.toList) = String.ofList last ++ suffix := by simp
  rw [ofText, String.toList_append, runs, rootOf_append _ first, List.map_append, List.filter_append,
    List.map_singleton, rebuilt, List.filter_cons_of_pos step, List.filter_nil]

/-- The path of a text that ends in a slash and a step. -/
theorem ofText_directory (s : String) {name : String} (tidy : IsTidyStep name) :
    ∃ root front, ofText (s ++ "/" ++ name) = ⟨root, front ++ [name]⟩ := by
  obtain ⟨step, plain⟩ := tidy
  have chars : (s ++ "/" ++ name).toList = s.toList ++ '/' :: name.toList := by simp
  have last : Text.splitRuns (· == '/') name.toList = [name.toList] := by
    apply Text.splitRuns_plain
    intro c hc
    apply beq_false_of_ne
    rintro rfl
    exact plain hc
  refine ⟨rootOf (s ++ "/" ++ name).toList,
    ((Text.splitRuns (· == '/') s.toList).map String.ofList).filter isStep, ?_⟩
  rw [ofText, chars, Text.splitRuns_separator (p := (· == '/')) rfl, last, List.map_append,
    List.filter_append, List.map_singleton, String.ofList_toList, List.filter_cons_of_pos step,
    List.filter_nil]

theorem locate_append_singleton {root : PathRoot} {front : List String} {name : String}
    (plain : name ≠ "..") {here : Location} :
    locate here ⟨root, front ++ [name]⟩ = locate here ⟨root, front⟩ ++ [name] := by
  simp [locate, isAbsolute, List.foldl_append, step, plain]

theorem locate_of_last (root : PathRoot) (front : List String) {name : String} (plain : name ≠ "..")
    (here : Location) : ∃ above, locate here ⟨root, front ++ [name]⟩ = above ++ [name] :=
  ⟨locate here ⟨root, front⟩, locate_append_singleton plain⟩

/-- What holds of the steps of a place from one on, and of the steps down of a path, holds of those of the
place that the path leads to. -/
theorem forall_drop_locate {P : String → Prop} {here : Location} {p : Path} (count : Nat)
    (before : ∀ part ∈ here.drop count, P part) (taken : ∀ part ∈ p.parts, part ≠ ".." → P part) :
    ∀ part ∈ (p.locate here).drop count, P part := by
  have steps : ∀ (parts : List String) (l : Location), (∀ part ∈ parts, part ≠ ".." → P part) →
      (∀ part ∈ l.drop count, P part) → ∀ part ∈ (parts.foldl step l).drop count, P part := by
    intro parts
    induction parts with
    | nil => exact fun _ _ kept => kept
    | cons part rest ih =>
        intro l taken kept
        rw [List.forall_mem_cons] at taken
        refine ih (step l part) taken.2 fun other mem => ?_
        rw [step] at mem
        split at mem
        · exact kept other (((List.dropLast_sublist l).drop count).subset mem)
        · rename_i down
          rw [List.drop_append] at mem
          cases List.mem_append.mp mem with
          | inl old => exact kept other old
          | inr new =>
              rw [List.mem_singleton.mp (List.mem_of_mem_drop new)]
              exact taken.1 down
  unfold locate
  split
  · exact steps p.parts [] taken (by simp)
  · exact steps p.parts here taken before

theorem forall_locate {P : String → Prop} {here : Location} {p : Path} (before : ∀ part ∈ here, P part)
    (taken : ∀ part ∈ p.parts, part ≠ ".." → P part) : ∀ part ∈ p.locate here, P part :=
  forall_drop_locate 0 before taken

/-- Steps up are taken at once: a place has none if it is reached from one that has none. -/
theorem up_not_mem_locate {here : Location} (plain : ".." ∉ here) (p : Path) : ".." ∉ p.locate here := by
  have down : ∀ part ∈ p.locate here, part ≠ ".." :=
    forall_locate (fun part mem same => plain (same ▸ mem)) fun _ _ => id
  exact fun up => down ".." up rfl

/-- The absolute path of a place leads there. -/
theorem locate_ofLocation {l : Location} (plain : ".." ∉ l) (here : Location) :
    (ofLocation l).locate here = l := by
  have taken : ∀ (parts : List String), ".." ∉ parts → ∀ above : Location,
      parts.foldl step above = above ++ parts := by
    intro parts
    induction parts with
    | nil => simp
    | cons part rest ih =>
        intro h above
        simp only [List.mem_cons, not_or] at h
        rw [List.foldl_cons, step, if_neg (Ne.symm h.1), ih h.2]
        simp
  simpa [locate, ofLocation, isAbsolute] using taken l plain []

end Path
end Splice
