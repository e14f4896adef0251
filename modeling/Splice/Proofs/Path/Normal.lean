import Mathlib.Logic.Relation
import Splice.Proofs.Path

/-! # Normal forms of steps

The steps of a text are what stands between its slashes. Empty steps and points lead nowhere, a step up
takes back the name before it, and at the top there is no way up. Steps that are shortened by these four
rules until none applies are the names of one place, in whatever order the rules were taken.
-/

namespace Splice.Path

variable {l k : Location} {steps : List String}

/-- What stands between the slashes of a text. -/
def pieces (s : String) : List String := (s.toList.splitOn '/').map String.ofList

/-- The steps from the top that a text stands for in a directory; with a slash at its beginning it
starts anew. -/
def stepsFrom (here : Location) (s : String) : List String :=
  if s.toList.head? = some '/' then pieces s else here ++ pieces s

/-- A step that leads to something in a directory. -/
def IsName (part : String) : Prop := part ≠ "" ∧ part ≠ "." ∧ part ≠ ".."

instance (part : String) : Decidable (IsName part) := by unfold IsName; infer_instance

/-- One rule taken once. -/
inductive Shortens : List String → List String → Prop
  | empty (front back : List String) : Shortens (front ++ "" :: back) (front ++ back)
  | point (front back : List String) : Shortens (front ++ "." :: back) (front ++ back)
  | up (front back : List String) {name : String} (named : IsName name) :
    Shortens (front ++ name :: ".." :: back) (front ++ back)
  | top (back : List String) : Shortens (".." :: back) back

/-- Steps from the top can be shortened to a place, which is names only. -/
def NormalForm (steps : List String) (l : Location) : Prop :=
  Relation.ReflTransGen Shortens steps l ∧ ∀ part ∈ l, IsName part

/-- A place is strictly below another one. -/
def Below (root l : Location) : Prop := ∃ first rest, l = root ++ first :: rest

/-- Where steps lead from a place if each is taken at once. -/
def follow (l : Location) (steps : List String) : Location := (steps.filter isStep).foldl step l

theorem follow_append (l : Location) (front back : List String) :
    follow l (front ++ back) = follow (follow l front) back := by
  simp [follow, List.filter_append, List.foldl_append]

theorem IsName.isStep {part : String} (h : IsName part) : isStep part = true := isStep_iff.mpr ⟨h.1, h.2.1⟩

theorem follow_names (names : ∀ part ∈ steps, IsName part) (l : Location) : follow l steps = l ++ steps := by
  induction steps generalizing l with
  | nil => simp [follow]
  | cons part rest ih =>
      have named := names part (by simp)
      have first : follow l [part] = l ++ [part] := by simp [follow, named.isStep, step, named.2.2]
      rw [← List.singleton_append, follow_append, first,
        ih fun other h => names other (List.mem_cons_of_mem part h), List.append_assoc]

/-- No rule changes where steps lead from the top. -/
theorem follow_shortens {a b : List String} (h : Shortens a b) : follow [] a = follow [] b := by
  cases h with
  | empty front back => simp [follow, isStep]
  | point front back => simp [follow, isStep]
  | up front back named => simp [follow, named.isStep, step, named.2.2, isStep_iff.mpr]
  | top back => simp [follow, step, isStep_iff.mpr]

theorem names_follow (names : ∀ part ∈ l, IsName part) (steps : List String) :
    ∀ part ∈ follow l steps, IsName part := by
  induction steps generalizing l with
  | nil => simpa [follow] using names
  | cons part rest ih =>
      rw [← List.singleton_append, follow_append]
      apply ih
      by_cases taken : isStep part = true
      · intro other h
        simp only [follow, List.filter_cons_of_pos taken, List.filter_nil, List.foldl_cons,
          List.foldl_nil, step] at h
        split at h
        · exact names other (List.dropLast_subset l h)
        · rcases List.mem_append.mp h with h | h
          · exact names other h
          · obtain rfl := List.mem_singleton.mp h
            obtain ⟨some_char, no_point⟩ := isStep_iff.mp taken
            exact ⟨some_char, no_point, ‹_›⟩
      · simpa [follow, List.filter_cons_of_neg taken] using names

/-- The rules lead where following leads. The induction is on the steps that are still to be taken; the
place reached so far stands in front of them. -/
theorem shortens_follow (names : ∀ part ∈ l, IsName part) (steps : List String) :
    Relation.ReflTransGen Shortens (l ++ steps) (follow l steps) := by
  induction steps generalizing l with
  | nil => simpa [follow] using .refl
  | cons part rest ih =>
      by_cases empty : part = ""
      · subst empty
        exact .head (.empty l rest) (by simpa [follow, isStep] using ih names)
      by_cases point : part = "."
      · subst point
        exact .head (.point l rest) (by simpa [follow, isStep] using ih names)
      have taken : isStep part = true := isStep_iff.mpr ⟨empty, point⟩
      by_cases up : part = ".."
      · subst up
        have same : follow l (".." :: rest) = follow l.dropLast rest := by
          simp [follow, List.filter_cons_of_pos taken, step]
        rw [same]
        rcases List.eq_nil_or_concat l with rfl | ⟨front, name, rfl⟩
        · exact .head (.top rest) (ih (l := []) (by simp))
        · rw [List.concat_eq_append] at names ⊢
          have named : IsName name := names name (by simp)
          rw [List.append_assoc, List.singleton_append, List.dropLast_concat]
          exact .head (.up front rest named) (ih fun other h => names other (List.mem_append_left _ h))
      · have same : follow l (part :: rest) = follow (l ++ [part]) rest := by
          simp [follow, List.filter_cons_of_pos taken, step, up]
        rw [same, List.append_cons]
        refine ih fun other h => ?_
        rcases List.mem_append.mp h with h | h
        · exact names other h
        · obtain rfl := List.mem_singleton.mp h
          exact ⟨empty, point, up⟩

/-- The one normal form of steps is the place that they lead to from the top. -/
theorem normalForm_iff : NormalForm steps l ↔ l = follow [] steps := by
  constructor
  · rintro ⟨shortened, names⟩
    have kept : follow [] steps = follow [] l := by
      induction shortened using Relation.ReflTransGen.head_induction_on with
      | refl => rfl
      | head rule _ ih => rw [follow_shortens rule, ih]
    rw [kept, follow_names names, List.nil_append]
  · rintro rfl
    exact ⟨shortens_follow (l := []) (by simp) steps, names_follow (by simp) steps⟩

theorem NormalForm.unique (h : NormalForm steps l) (h' : NormalForm steps k) : l = k :=
  (normalForm_iff.mp h).trans (normalForm_iff.mp h').symm

/-! ## Places of texts -/

theorem splitRuns_eq_splitOn (c : Char) (cs : List Char) :
    Text.splitRuns (· == c) cs = cs.splitOn c := by
  induction cs with
  | nil => rfl
  | cons d rest ih =>
      rw [Text.splitRuns, ih, List.splitOn, List.splitOn, List.splitOnP_cons_eq_if_modifyHead]
      split
      · rfl
      · cases runs : List.splitOnP (· == c) rest with
        | nil => exact absurd runs (List.splitOnP_ne_nil _ _)
        | cons run more => rfl

theorem ofText_parts (s : String) : (ofText s).parts = (pieces s).filter isStep := by
  rw [ofText, splitRuns_eq_splitOn, pieces]

theorem isAbsolute_ofText (s : String) :
    (ofText s).isAbsolute = true ↔ s.toList.head? = some '/' := by
  rw [isAbsolute, ofText]
  cases chars : s.toList with
  | nil => simp [rootOf]
  | cons c rest =>
      by_cases slash : c = '/'
      · subst slash
        simp only [rootOf, List.takeWhile_cons_of_pos (p := (· == '/')) (a := '/') rfl, List.length_cons,
          List.head?_cons, iff_true, bne_iff_ne, ne_eq]
        split <;> simp_all
      · simp [rootOf, slash]

/-- A path leads from a directory to the normal form of its steps. -/
theorem normalForm_locate {here : Location} (names : ∀ part ∈ here, IsName part) (s : String) :
    NormalForm (stepsFrom here s) ((ofText s).locate here) := by
  rw [normalForm_iff, locate, ofText_parts, stepsFrom]
  by_cases slash : s.toList.head? = some '/'
  · rw [if_pos ((isAbsolute_ofText s).mpr slash), if_pos slash]
    rfl
  · rw [if_neg (mt (isAbsolute_ofText s).mp slash), if_neg slash, follow_append,
      follow_names names, List.nil_append]
    rfl

end Splice.Path
