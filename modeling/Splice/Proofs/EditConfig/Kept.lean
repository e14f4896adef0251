import Splice.EditConfig.Text
import Splice.Proofs.Outcome
import Splice.Proofs.Yaml.Pieces

/-! # Configurations after a change of spelling

A configuration that was written and read back has texts for some of its numbers. Sections read the same
from it: a number may be given as a text, and a name is what a value is displayed as.
-/

namespace Splice

namespace Yaml

theorem json_number {x : Binary64} (finite : x.isFinite = true) : Json.number x = x.text := by
  cases x with
  | finite => rfl
  | _ => cases finite

/-- What is kept of a number is the number, or its text if there is no point in it. -/
theorem kept_float (x : Binary64) : kept (.float x) = .float x ∨
    kept (.float x) = .text (Json.number x) ∧ '.' ∉ (Json.number x).toList := by
  have scalar := kept_leaf (v := .float x) (by trivial)
  rw [scalar, keptScalar]
  split
  · exact .inl rfl
  · rename_i none
    exact .inr ⟨rfl, none⟩

/-- A number whose word has no point is not zero, and its word is not empty. -/
theorem isZero_of_not_point {x : Binary64} (h : '.' ∉ (Json.number x).toList) :
    x.isZero = false ∧ (Json.number x).isEmpty = false := by
  have word := (isReadable_float x).1
  obtain ⟨c, cs, split, -⟩ := word.start
  refine ⟨?_, ?_⟩
  · refine eq_false_of_ne_true fun zero => h ?_
    cases x with
    | finite negative units fits =>
        obtain rfl : units = 0 := by
          cases units with
          | zero => rfl
          | succ => cases zero
        show '.' ∈ (Binary64.finite negative 0 fits).text.toList
        rw [Binary64.toList_text]
        exact List.mem_append_right _ (by decide)
    | _ => cases zero
  · refine eq_false_of_ne_true fun none => ?_
    rw [String.isEmpty_iff.mp none] at split
    cases split

theorem isEmpty_kept (v : Value) : (kept v).isEmpty = v.isEmpty := by
  cases v with
  | list items => cases items <;> rfl
  | mapping entries => cases entries <;> rfl
  | float x =>
      cases kept_float x with
      | inl same => rw [same]
      | inr text =>
          obtain ⟨zero, filled⟩ := isZero_of_not_point text.2
          rw [text.1]
          exact filled.trans zero.symm
  | _ => rfl

end Yaml

namespace EditConfig

open Outcome Yaml

/-! ## Readings that go over -/

/-- What one reading gives another gives as well, changed in some way. -/
def Carries {ε α β : Type} (f : α → β) (x : Except ε α) (y : Except ε β) : Prop :=
    ∀ a, x = .ok a → y = .ok (f a)

section

variable {ε α β γ δ : Type} {f : α → β} {g : γ → δ} {x : Except ε α} {y : Except ε β}

theorem carries_refl (x : Except ε α) : Carries id x x := fun _ h => h

theorem carries_error (e : ε) : Carries f (.error e) y := nofun

theorem carries_throw (e : ε) (k : γ → Except ε α) : Carries f (throw e >>= k) y := nofun

theorem Carries.bind {k : α → Except ε γ} {k' : β → Except ε δ} (h : Carries f x y)
    (later : ∀ a, x = .ok a → Carries g (k a) (k' (f a))) : Carries g (x >>= k) (y >>= k') := by
  intro c done
  obtain ⟨a, first, rest⟩ := bind_eq_ok.mp done
  exact bind_eq_ok.mpr ⟨f a, h a first, later a first c rest⟩

end

/-- The keys whose values are read as names. -/
def nameKeys : List String := ["audio_source", "kind", "intensity", "font_size", "weight"]

/-- A value that is displayed in the same way after it was written and read back: one that is kept, or
any number but an infinite one. -/
def IsNameKept (v : Value) : Prop := kept v = v ∨ ∃ x, v = .float x ∧ ∀ negative, x ≠ .infinite negative

/-- The names in a mapping are kept. -/
def AreNamesKept (entries : List (Value × Value)) : Prop :=
  ∀ e ∈ entries, ∀ key, e.1 = .text key → canonicalKey key ∈ nameKeys → IsNameKept e.2

/-- The entries of a section with what is kept of their values. -/
def keptSection (s : Section) : Section := s.map fun e => (e.1, kept e.2)

theorem lookup_map {s : Section} (name : String) :
    (s.map fun e => (e.1, kept e.2)).lookup name = (s.lookup name).map kept := by
  induction s with
  | nil => rfl
  | cons e s ih =>
      obtain ⟨key, v⟩ := e
      rw [List.map_cons, List.lookup_cons, List.lookup_cons, ih]
      cases name == key <;> rfl

theorem get?_keptSection (s : Section) (name : String) :
    (keptSection s).get? name = (s.get? name).map kept := by
  rw [Section.get?, keptSection, ← List.map_reverse, lookup_map]
  rfl

theorem getD_kept (v : Option Value) : (v.map kept).getD .null = kept (v.getD .null) := by
  cases v <;> rfl

theorem carries_canonicalEntries (entries : List (Value × Value)) :
    Carries keptSection (canonicalEntries entries) (canonicalEntries (keptEntries entries)) := by
  induction entries with
  | nil => exact fun s h => by cases h; rfl
  | cons e entries ih =>
      obtain ⟨k, v⟩ := e
      intro s h
      cases k with
      | text key =>
          obtain ⟨rest, found, rfl⟩ := map_eq_ok.mp h
          have name : keyName (.text key) = key := keyName_eq rfl
          rw [keptEntries, canonicalEntries, name, ih rest found]
          simp only [Except.map, keptSection, List.map_cons]
      | _ => cases h

/-- The names in a section are kept. -/
def HoldsNames (s : Section) : Prop := ∀ name ∈ nameKeys, ∀ v, s.get? name = some v → IsNameKept v

/-- A part of a configuration that can be written and read back, with the names in it. -/
def IsStored (v : Option Value) : Prop :=
  ∀ w, v = some w → Readable w ∧ ∀ inner, w = .mapping inner → AreNamesKept inner

variable {v : Option Value} {s : Section} {name : String}

theorem exists_of_mem {entries : List (Value × Value)} (h : canonicalEntries entries = .ok s) :
    ∀ d ∈ s, ∃ key, (.text key, d.2) ∈ entries ∧ canonicalKey key = d.1 := by
  induction entries generalizing s with
  | nil =>
      cases h
      exact List.forall_mem_nil _
  | cons e entries ih =>
      obtain ⟨k, v⟩ := e
      cases k with
      | text key =>
          obtain ⟨rest, found, rfl⟩ := map_eq_ok.mp h
          intro d mem
          obtain rfl | mem := List.mem_cons.mp mem
          · refine ⟨key, List.mem_cons_self, ?_⟩
            dsimp only
          obtain ⟨key', mem', same⟩ := ih found d mem
          exact ⟨key', List.mem_cons_of_mem _ mem', same⟩
      | _ => cases h

/-- What a section has under a name stands in the mapping under a spelling of the name. -/
theorem exists_of_get? {entries : List (Value × Value)} (h : canonicalEntries entries = .ok s)
    {v : Value}
    (found : s.get? name = some v) : ∃ key, (.text key, v) ∈ entries ∧ canonicalKey key = name := by
  obtain ⟨before, after, split, -⟩ := List.lookup_eq_some_iff.mp found
  apply exists_of_mem h (name, v)
  rw [← List.mem_reverse, split]
  exact List.mem_append_right _ List.mem_cons_self

theorem AreNamesKept.section {entries : List (Value × Value)} (h : AreNamesKept entries)
    (found : canonicalEntries entries = .ok s) : HoldsNames s := by
  intro name mem v given
  obtain ⟨key, entry, same⟩ := exists_of_get? found given
  exact h _ entry key rfl (same ▸ mem)

theorem carries_section (h : IsStored v) :
    Carries (Option.map keptSection) (section? v name) (section? (v.map kept) name) := by
  cases v with
  | none => exact fun s h => by cases h; rfl
  | some w =>
      cases w with
      | null => exact fun s h => by cases h; rfl
      | mapping entries =>
          intro found done
          cases read : canonicalEntries entries with
          | ok s =>
              have same := carries_canonicalEntries entries s read
              simp only [section?, Value.opened, read] at done
              cases done
              simp only [Option.map_some, kept, section?, Value.opened, same]
          | error key =>
              simp only [section?, Value.opened, read] at done
              cases done
      | knot => exact absurd (h _ rfl).1 id
      | _ => exact carries_error _

theorem holdsNames_section (h : IsStored v) (found : section? v name = .ok (some s)) : HoldsNames s := by
  cases v with
  | none => cases found
  | some w =>
      cases w with
      | mapping entries =>
          cases read : canonicalEntries entries with
          | ok t =>
              simp only [section?, Value.opened, read] at found
              cases found
              exact ((h _ rfl).2 entries rfl).section read
          | error key =>
              simp only [section?, Value.opened, read] at found
              cases found
      | knot => exact absurd (h _ rfl).1 id
      | _ => cases found

/-! ## The parts of a section -/

theorem carries_boolean (v : Option Value) (name : String) :
    Carries id (boolean v name) (boolean (v.map kept) name) := by
  cases v with
  | none => exact carries_refl _
  | some w =>
      cases w with
      | bool b => exact carries_refl _
      | _ => exact carries_error _

theorem finite_eq_ok {v : Value} {x : Binary64} :
    finite v name = .ok x ↔ numberOf? v = some x ∧ x.isFinite = true := by
  rw [finite]
  cases numberOf? v with
  | none => simp
  | some y =>
      by_cases valid : y.isFinite = true
      · simp only [valid, if_true, Except.ok.injEq, Option.some.injEq]
        constructor
        · rintro rfl
          exact ⟨rfl, valid⟩
        · exact fun h => h.1
      · simp only [valid, if_false, reduceCtorEq, Option.some.injEq, false_iff, not_and]
        rintro rfl
        exact valid

theorem carries_finite (v : Value) (name : String) :
    Carries id (finite v name) (finite (kept v) name) := by
  intro x h
  obtain ⟨number, valid⟩ := finite_eq_ok.mp h
  apply finite_eq_ok.mpr
  refine ⟨?_, valid⟩
  cases v with
  | float y =>
      cases kept_float y with
      | inl same =>
          rw [same]
          exact number
      | inr text =>
          obtain rfl : y = x := Option.some.inj number
          rw [text.1, json_number valid]
          exact Binary64.number?_text valid
  | list => cases number
  | mapping => cases number
  | _ => exact number

theorem carries_finite_getD (v : Option Value) (d : Value) (name : String) :
    Carries id (finite (v.getD d) name) (finite ((v.map kept).getD d) name) := by
  cases v with
  | none =>
      rw [Option.map_none]
      exact carries_refl _
  | some w => exact carries_finite w name

theorem nameOf_filled {v : Value} (filled : v.isEmpty = false) (writable : v.isWritable = true)
    (d : String) :
    nameOf (some v) d = .ok (Text.lower (Text.trim v.display)) := by
  have kept : (some v).filter (!·.isEmpty) = some v := by simp [filled]
  rw [nameOf, kept]
  exact if_pos writable

/-- A name that is kept is read as the same name. -/
theorem shown_kept {v : Value} (h : IsNameKept v) :
    Text.lower (Text.trim (kept v).display) = Text.lower (Text.trim v.display) := by
  obtain same | ⟨x, rfl, bounded⟩ := h
  · rw [same]
  cases kept_float x with
  | inl same => rw [same]
  | inr text =>
      have number : (Value.float x).display = x.text := rfl
      have word : (Value.text (Json.number x)).display = Json.number x := rfl
      rw [text.1, number, word]
      cases x with
      | nan =>
          have capital : Text.trim "NaN" = "NaN" ∧ Text.lower "NaN" = "nan" := by decide +kernel
          have small : Text.trim "nan" = "nan" ∧ Text.lower "nan" = "nan" := by decide +kernel
          show Text.lower (Text.trim "NaN") = Text.lower (Text.trim "nan")
          rw [capital.1, capital.2, small.1, small.2]
      | infinite negative => exact absurd rfl (bounded negative)
      | finite => rw [json_number rfl]

theorem isWritable_kept {v : Value} (h : IsNameKept v) (writable : v.isWritable = true) :
    (kept v).isWritable = true := by
  obtain same | ⟨x, rfl, -⟩ := h
  · rwa [same]
  · cases kept_float x with
    | inl same => rwa [same]
    | inr text =>
        rw [text.1]
        rfl

theorem carries_nameOf {v : Option Value} (h : ∀ w, v = some w → IsNameKept w) (d : String) :
    Carries id (nameOf v d) (nameOf (v.map kept) d) := by
  cases v with
  | none => exact carries_refl _
  | some w =>
      have kind := h w rfl
      rw [Option.map_some]
      by_cases blank : w.isEmpty = true
      · have blank' : (kept w).isEmpty = true := (isEmpty_kept w).trans blank
        simp only [nameOf, Option.filter_some, blank, blank', Bool.not_true, Bool.false_eq_true,
          if_false]
        exact carries_refl _
      have filled := eq_false_of_ne_true blank
      have filled' : (kept w).isEmpty = false := (isEmpty_kept w).trans filled
      by_cases writable : w.isWritable = true
      · rw [nameOf_filled filled writable, nameOf_filled filled' (isWritable_kept kind writable),
          shown_kept kind]
        exact carries_refl _
      · have before : nameOf (some w) d = .error .unwritable := by
          simp only [nameOf, Option.filter_some, filled, writable, Bool.not_false, if_true,
            Bool.false_eq_true, if_false]
        rw [before]
        exact carries_error _

/-! ## Sections -/

theorem carries_trim (h : IsStored v) (name : String) :
    Carries id (readTrim v name) (readTrim (v.map kept) name) := by
  unfold readTrim
  apply (carries_section h).bind
  intro s _
  cases s with
  | none => exact carries_refl _
  | some s =>
      simp only [Option.map_some, get?_keptSection]
      apply (carries_boolean _ _).bind
      intro useFull _
      apply (carries_finite_getD _ _ _).bind
      intro start _
      simp only [id]
      split
      · exact carries_throw _ _
      · rw [getD_kept]
        cases (s.get? "end").getD .null with
        | null => exact carries_refl _
        | list => exact carries_throw _ _
        | mapping => exact carries_throw _ _
        | float x =>
            have finish := carries_finite (.float x) (name ++ ".end")
            cases kept_float x with
            | inl same =>
                rw [same]
                exact carries_refl _
            | inr text =>
                rw [text.1] at finish ⊢
                exact finish.bind fun _ _ => carries_refl _
        | _ => exact carries_refl _

/-- A part that holds no text is read as a section. -/
theorem effect_of_section (h : ∀ kind, v ≠ some (.text kind)) :
    readEffect v name = section? v name >>= fun
    | none => pure none
    | some s => do
      let kind ← nameOf (s.get? "kind") "none"
      let intensity ← nameOf (s.get? "intensity") "medium"
      return some ⟨kind, intensity⟩ := by
  cases v with
  | none => rfl
  | some w =>
      cases w with
      | text kind => exact absurd rfl (h kind)
      | _ => rfl

theorem transition_of_section (h : ∀ kind, v ≠ some (.text kind)) :
    readTransition v = section? v "transition" >>= fun
    | none => pure none
    | some s => do
      let kind ← nameOf (s.get? "kind") "cut"
      let length ← finite ((s.get? "duration_ms").getD (.int 0)) "transition.duration_ms"
      return some ⟨kind, length⟩ := by
  cases v with
  | none => rfl
  | some w =>
      cases w with
      | text kind => exact absurd rfl (h kind)
      | _ => rfl

/-- Only a text is kept as a text, or a number, which is no section. -/
theorem text_or_section (v : Option Value) : (∃ kind, v = some (.text kind) ∧ v.map kept = v) ∨
    (∃ x, v = some (.float x)) ∨
    (∀ kind, v ≠ some (.text kind)) ∧ ∀ kind, v.map kept ≠ some (.text kind) := by
  cases v with
  | none => exact .inr (.inr ⟨nofun, nofun⟩)
  | some w =>
      cases w with
      | text kind => exact .inl ⟨kind, rfl, rfl⟩
      | float x => exact .inr (.inl ⟨x, rfl⟩)
      | _ => exact .inr (.inr ⟨nofun, nofun⟩)

theorem HoldsNames.carries (h : HoldsNames s) {name : String} (mem : name ∈ nameKeys) (d : String) :
    Carries id (nameOf (s.get? name) d) (nameOf ((keptSection s).get? name) d) := by
  rw [get?_keptSection]
  exact carries_nameOf (h name mem) d

theorem carries_effect (h : IsStored v) (name : String) :
    Carries id (readEffect v name) (readEffect (v.map kept) name) := by
  obtain ⟨kind, -, same⟩ | ⟨x, rfl⟩ | ⟨before, after⟩ := text_or_section v
  · rw [same]
    exact carries_refl _
  · exact carries_error _
  rw [effect_of_section before, effect_of_section after]
  apply (carries_section h).bind
  intro s found
  cases s with
  | none => exact carries_refl _
  | some s =>
      have names := holdsNames_section h found
      apply (names.carries (by decide) _).bind
      intro kind _
      apply (names.carries (by decide) _).bind
      intro intensity _
      exact carries_refl _

theorem carries_transition (h : IsStored v) :
    Carries id (readTransition v) (readTransition (v.map kept)) := by
  obtain ⟨kind, -, same⟩ | ⟨x, rfl⟩ | ⟨before, after⟩ := text_or_section v
  · rw [same]
    exact carries_refl _
  · exact carries_error _
  rw [transition_of_section before, transition_of_section after]
  apply (carries_section h).bind
  intro s found
  cases s with
  | none => exact carries_refl _
  | some s =>
      have names := holdsNames_section h found
      apply (names.carries (by decide) _).bind
      intro kind _
      rw [get?_keptSection]
      apply (carries_finite_getD _ _ _).bind
      intro length _
      exact carries_refl _

/-- A colour is a text, and so is kept. -/
theorem colorValue_kept {v : Option Value} {c : Color} (h : Color.ofValue (colorValue v) = .ok c) :
    colorValue (v.map kept) = colorValue v := by
  cases v with
  | none => rfl
  | some w =>
      rw [Option.map_some, colorValue, colorValue, isEmpty_kept]
      split
      · rfl
      · rename_i filled
        rw [colorValue, if_neg filled] at h
        cases w with
        | text => rfl
        | _ => cases h

theorem carries_textStyle (h : IsStored v) :
    Carries id (readTextStyle v) (readTextStyle (v.map kept)) := by
  unfold readTextStyle
  apply (carries_section h).bind
  intro s found
  cases s with
  | none => exact carries_refl _
  | some s =>
      have names := holdsNames_section h found
      simp only [Option.map_some]
      apply (names.carries (by decide) _).bind
      intro fontSize _
      simp only [id]
      split
      · exact carries_throw _ _
      apply (names.carries (by decide) _).bind
      intro weight _
      simp only [id]
      split
      · exact carries_throw _ _
      cases color : Color.ofValue (colorValue (s.get? "color")) with
      | error e => exact carries_error _
      | ok c =>
          simp only [get?_keptSection, colorValue_kept color, color]
          apply (carries_boolean _ _).bind
          intro background _
          exact carries_refl _

theorem carries_percent (s : Section) (axis : String) :
    Carries id (percent s axis) (percent (keptSection s) axis) := by
  unfold percent
  rw [get?_keptSection]
  exact (carries_finite_getD _ _ _).bind fun _ _ => carries_refl _

theorem carries_textPosition (h : IsStored v) :
    Carries id (readTextPosition v) (readTextPosition (v.map kept)) := by
  unfold readTextPosition
  apply (carries_section h).bind
  intro s _
  cases s with
  | none => exact carries_refl _
  | some s =>
      apply (carries_percent s _).bind
      intro x _
      apply (carries_percent s _).bind
      intro y _
      exact carries_refl _

theorem readAudioSource_eq_ok {w : Value} (filled : w ≠ .null) {a : AudioSource} :
    readAudioSource (some w) = .ok a ↔
    AudioSource.ofName? (Text.lower (Text.trim w.display)) = some a := by
  rw [readAudioSource, Option.getD_some]
  split
  · exact absurd rfl filled
  · cases AudioSource.ofName? (Text.lower (Text.trim w.display)) with
    | none => simp
    | some b => simp

theorem kept_ne_null {w : Value} (filled : w ≠ .null) : kept w ≠ .null := by
  cases w with
  | null => exact absurd rfl filled
  | float x =>
      cases kept_float x with
      | inl same =>
          rw [same]
          exact nofun
      | inr text =>
          rw [text.1]
          exact nofun
  | _ => nofun

theorem carries_audioSource {v : Option Value} (h : ∀ w, v = some w → IsNameKept w) :
    Carries id (readAudioSource v) (readAudioSource (v.map kept)) := by
  cases v with
  | none => exact carries_refl _
  | some w =>
      by_cases filled : w = .null
      · rw [filled]
        exact carries_refl _
      · intro a found
        rw [Option.map_some, id, readAudioSource_eq_ok (kept_ne_null filled), shown_kept (h w rfl)]
        exact (readAudioSource_eq_ok filled).mp found

/-! ## The whole -/

/-- A configuration that can be written and read back, with the names in it and in its sections. -/
structure Storable (entries : List (Value × Value)) : Prop where
  readable : ReadableEntries entries
  names : AreNamesKept entries
  sections : ∀ e ∈ entries, ∀ inner, e.2 = .mapping inner → AreNamesKept inner

theorem readable_of_mem {entries : List (Value × Value)} (h : ReadableEntries entries) :
    ∀ e ∈ entries, Readable e.2 := by
  induction entries with
  | nil => exact List.forall_mem_nil _
  | cons e entries ih =>
      obtain ⟨k, v⟩ := e
      obtain ⟨-, -, value, others⟩ := h
      exact List.forall_mem_cons.mpr ⟨value, ih others⟩

theorem Storable.isStored {entries : List (Value × Value)} (h : Storable entries)
    (found : canonicalEntries entries = .ok s) (name : String) : IsStored (s.get? name) := by
  intro w given
  obtain ⟨key, mem, -⟩ := exists_of_get? found given
  exact ⟨readable_of_mem h.readable _ mem, h.sections _ mem⟩

theorem unknownKeys_keptSection (s : Section) : unknownKeys (keptSection s) = unknownKeys s := by
  rw [unknownKeys, unknownKeys, keptSection, List.map_map]
  rfl

/-- What is kept of a configuration is the same configuration. -/
theorem carries_ofEntries {entries : List (Value × Value)} (h : Storable entries) :
    Carries id (ofEntries entries) (ofEntries (keptEntries entries)) := by
  unfold ofEntries
  cases found : canonicalEntries entries with
  | error key => exact carries_error _
  | ok s =>
      have parts := h.isStored found
      rw [carries_canonicalEntries entries s found]
      dsimp only
      rw [unknownKeys_keptSection]
      split
      · exact carries_throw _ _
      simp only [get?_keptSection]
      apply (carries_trim (parts _) _).bind
      intro hookTrim _
      apply (carries_trim (parts _) _).bind
      intro demoTrim _
      apply (carries_transition (parts _)).bind
      intro transition _
      apply (carries_effect (parts _) _).bind
      intro hookEffect _
      apply (carries_effect (parts _) _).bind
      intro demoEffect _
      apply (carries_textStyle (parts _)).bind
      intro textStyle _
      apply (carries_textPosition (parts _)).bind
      intro textPosition _
      apply (carries_audioSource (h.names.section found _ (by decide))).bind
      intro audioSource _
      exact carries_refl _

end EditConfig
end Splice
