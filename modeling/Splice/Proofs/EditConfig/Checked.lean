import Splice.Failure
import Splice.Proofs.Binary64.Order
import Splice.Proofs.Outcome

/-! # What a reading checks

A configuration that was read can be relied on: its windows, lengths and percentages are numbers in their
ranges, its names are known ones, and its colour has a form for the engine. A value that is no text gives
a configuration or a fault of one, unless a whole number in it is too long to be written.
-/

namespace Splice

namespace Value

theorem areWritableEntries_iff {entries : List (Value × Value)} :
    areWritableEntries entries = true ↔
      ∀ e ∈ entries, e.1.isWritable = true ∧ e.2.isWritable = true := by
  induction entries with
  | nil => simp [areWritableEntries]
  | cons e rest ih => simp [areWritableEntries, ih, and_assoc]

variable {id : Nat} {whole : Value}

mutual
theorem isWritable_tie (around : whole.isWritable = true) {v : Value} (h : v.isWritable = true) :
    (tie id whole v).isWritable = true := by
  cases v with
  | list items =>
      simp only [tie, isWritable] at h ⊢
      exact areWritable_tieAll around h
  | pairs entries =>
      simp only [tie, isWritable] at h ⊢
      exact areWritableEntries_tieEntries around h
  | mapping entries =>
      simp only [tie, isWritable] at h ⊢
      exact areWritableEntries_tieEntries around h
  | knot i v =>
      simp only [tie, isWritable] at h ⊢
      exact isWritable_tie around h
  | again i =>
      simp only [tie]
      split
      · exact around
      · exact h
  | null | bool | int | float | text | bytes | date | timestamp | set => exact h

theorem areWritable_tieAll (around : whole.isWritable = true) {items : List Value}
    (h : areWritable items = true) : areWritable (tieAll id whole items) = true := by
  cases items with
  | nil => exact h
  | cons v rest =>
      simp only [areWritable, tieAll, Bool.and_eq_true] at h ⊢
      exact ⟨isWritable_tie around h.1, areWritable_tieAll around h.2⟩

theorem areWritableEntries_tieEntries (around : whole.isWritable = true)
    {entries : List (Value × Value)} (h : areWritableEntries entries = true) :
    areWritableEntries (tieEntries id whole entries) = true := by
  cases entries with
  | nil => exact h
  | cons e rest =>
      simp only [areWritableEntries, tieEntries, Bool.and_eq_true] at h ⊢
      exact ⟨⟨isWritable_tie around h.1.1, isWritable_tie around h.1.2⟩,
        areWritableEntries_tieEntries around h.2⟩
end

theorem isWritable_opened {v : Value} (h : v.isWritable = true) : v.opened.isWritable = true := by
  cases v with
  | knot id v =>
      have inner : v.isWritable = true := by simpa [isWritable] using h
      exact isWritable_tie h inner
  | _ => exact h

end Value

/-! ## Configurations that can be relied on -/

/-- A window starts at a time from zero on; it may be open only if it is not used. -/
structure Trim.Valid (t : Trim) : Prop where
  start : t.start.isFinite = true
  positive : 0 ≤ t.start
  finish : ∀ x, t.finish = some x → x.isFinite = true
  closed : t.finish = none → t.useFullClip = true
  active : t.active = !t.useFullClip

structure TextStyle.Valid (s : TextStyle) : Prop where
  fontSize : s.fontSize ∈ fontSizes.map (·.1)
  weight : s.weight ∈ ["normal", "bold"]
  color : ∃ c, Color.ofValue s.color = .ok c

/-- A place in the frame. -/
structure TextPosition.Valid (p : TextPosition) : Prop where
  x : 0 ≤ p.xPercent ∧ p.xPercent ≤ 100
  y : 0 ≤ p.yPercent ∧ p.yPercent ≤ 100

structure EditConfig.Valid (c : EditConfig) : Prop where
  hookTrim : ∀ t, c.hookTrim = some t → t.Valid
  demoTrim : ∀ t, c.demoTrim = some t → t.Valid
  transition : ∀ t, c.transition = some t → t.milliseconds.isFinite = true
  textStyle : ∀ s, c.textStyle = some s → s.Valid
  textPosition : ∀ p, c.textPosition = some p → p.Valid
  audioSource : AudioSource.ofName? c.audioSource.name = some c.audioSource

namespace EditConfig

section Steps

variable {α β : Type} {writable : Prop} {P : α → Prop} {Q : β → Prop}

/-- A step of a reading gives values of a kind only; and if what is read is writable, every fault of the
step can be told. -/
structure Checks (writable : Prop) (P : α → Prop) (x : Except Fault α) : Prop where
  value : ∀ a, x = .ok a → P a
  told : writable → ∀ f, x = .error f → f.isWritable = true

theorem checks_ok {a : α} (h : P a) : Checks writable P (.ok a) where
  value _ same := Except.ok.inj same ▸ h
  told _ _ same := by cases same

theorem checks_error {f : Fault} (h : writable → f.isWritable = true) :
    Checks writable P (.error f) where
  value _ same := by cases same
  told w _ same := Except.error.inj same ▸ h w

theorem Checks.bind {x : Except Fault α} {g : α → Except Fault β} (first : Checks writable P x)
    (later : ∀ a, P a → Checks writable Q (g a)) : Checks writable Q (x >>= g) where
  value b same := by
    obtain ⟨a, ended, rest⟩ := Outcome.bind_eq_ok.mp same
    exact (later a (first.value a ended)).value b rest
  told w f same := by
    rcases Outcome.bind_eq_error.mp same with failed | ⟨a, ended, failed⟩
    · exact first.told w f failed
    · exact (later a (first.value a ended)).told w f failed

theorem Checks.weaken {x : Except Fault α} (h : Checks writable P x) {less : Prop}
    (implies : less → writable) : Checks less P x :=
  ⟨h.value, fun w => h.told (implies w)⟩

/-- A check that fails ends the reading. -/
theorem checks_throw {f : Fault} {g : α → Except Fault β} (h : writable → f.isWritable = true) :
    Checks writable Q (throw f >>= g) :=
  checks_error h

end Steps

/-! ## Sections -/

/-- All values of a section are writable. -/
def Section.Writable (s : Section) : Prop := ∀ e ∈ s, e.2.isWritable = true

theorem Section.Writable.get? {s : Section} (h : s.Writable) {name : String} {v : Value}
    (found : s.get? name = some v) : v.isWritable = true := by
  obtain ⟨front, back, split, -⟩ := List.lookup_eq_some_iff.mp found
  exact h (name, v) (List.mem_reverse.mp (split ▸ by simp))

theorem Section.Writable.getD {s : Section} (h : s.Writable) (name : String) (default : Value)
    (known : default.isWritable = true) : ((s.get? name).getD default).isWritable = true := by
  cases found : s.get? name with
  | none => exact known
  | some v => exact h.get? found

theorem canonicalEntries_writable {entries : List (Value × Value)}
    (writable : ∀ e ∈ entries, e.1.isWritable = true ∧ e.2.isWritable = true) :
    (∀ s, canonicalEntries entries = .ok s → Section.Writable s) ∧
      ∀ key, canonicalEntries entries = .error key → key.isWritable = true := by
  induction entries with
  | nil =>
      refine ⟨fun s same => ?_, fun key same => ?_⟩
      · obtain rfl := Except.ok.inj same
        exact nofun
      · cases same
  | cons e rest ih =>
      obtain ⟨k, v⟩ := e
      obtain ⟨values, keys⟩ := ih fun e he => writable e (List.mem_cons_of_mem _ he)
      have first := writable (k, v) (by simp)
      cases k with
      | text key =>
          simp only [canonicalEntries]
          refine ⟨fun s same => ?_, fun key same => ?_⟩
          · obtain ⟨t, read, rfl⟩ := Outcome.map_eq_ok.mp same
            intro e he
            rcases List.mem_cons.mp he with rfl | he
            · exact first.2
            · exact values t read e he
          · cases read : canonicalEntries rest with
            | ok t => simp [read, Except.map] at same
            | error k =>
                obtain rfl : k = key := by simpa [read, Except.map] using same
                exact keys k read
      | _ =>
          refine ⟨fun s same => ?_, fun key same => ?_⟩
          · cases same
          · obtain rfl := Except.error.inj same
            exact first.1

/-- The value of an entry is writable, if it is there. -/
def Input (value : Option Value) : Prop := ∀ v, value = some v → v.isWritable = true

variable {value : Option Value}

theorem checks_section (value : Option Value) (name : String) : Checks (Input value)
    (fun found => Input value → ∀ s, found = some s → s.Writable) (section? value name) := by
  unfold section?
  split
  · exact checks_ok fun _ _ none => by cases none
  · rename_i v
    have known : Input (some v) → v.opened.isWritable = true := fun w =>
      Value.isWritable_opened (w v rfl)
    split
    · exact checks_ok fun _ _ none => by cases none
    · rename_i entries opened
      rw [opened] at known
      simp only [Value.isWritable, Value.areWritableEntries_iff] at known
      split
      · rename_i s read
        refine checks_ok fun w t same => ?_
        obtain rfl := Option.some.inj same
        exact (canonicalEntries_writable (known w)).1 s read
      · rename_i key read
        exact checks_error fun w => (canonicalEntries_writable (known w)).2 key read
    · exact checks_error fun w => w v rfl

/-! ## Entries -/

section Entries

variable {writable : Prop} {v : Value} {name default : String}

theorem checks_finite (h : writable → v.isWritable = true) :
    Checks writable (fun x => x.isFinite = true) (finite v name) := by
  unfold finite
  split
  · exact checks_error h
  · split
    · exact checks_ok ‹_›
    · exact checks_error h

theorem checks_boolean (h : writable → Input value) :
    Checks writable (fun _ => True) (boolean value name) := by
  unfold boolean
  split
  · exact checks_ok trivial
  · exact checks_ok trivial
  · exact checks_error fun w => h w _ rfl

theorem checks_nameOf (h : writable → Input value) :
    Checks writable (fun _ => True) (nameOf value default) := by
  unfold nameOf
  split
  · exact checks_ok trivial
  · rename_i v found
    split
    · exact checks_ok trivial
    · rename_i long
      exact checks_error fun w => absurd (h w v (Option.filter_eq_some_iff.mp found).1) long

end Entries

/-! ## The sections of a configuration -/

theorem checks_readTrim (value : Option Value) (name : String) : Checks (Input value)
    (fun found => ∀ t, found = some t → t.Valid) (readTrim value name) := by
  refine (checks_section value name).bind fun found known => ?_
  cases found with
  | none => exact checks_ok fun _ none => by cases none
  | some s =>
      have known : Input value → s.Writable := fun w => known w s rfl
      refine (checks_boolean fun w v => (known w).get?).bind fun useFull _ => ?_
      refine (checks_finite fun w => (known w).getD _ (.float 0) (by simp only [Value.isWritable])).bind
        fun start finite => ?_
      dsimp only
      split
      · exact checks_throw fun _ => rfl
      · rename_i positive
        have positive := (Binary64.not_lt_iff_le (Binary64.ne_nan_of_isFinite finite)
          Binary64.zero_ne_nan).mp positive
        split
        · split
          · rename_i full
            refine checks_ok fun t same => ?_
            obtain rfl := Option.some.inj same
            exact ⟨finite, positive, fun x none => (Option.some_ne_none x none.symm).elim, fun _ => rfl, rfl⟩
          · exact checks_error fun _ => rfl
        · refine (checks_finite fun w => (known w).getD "end" .null rfl).bind fun finish ended => ?_
          refine checks_ok fun t same => ?_
          obtain rfl := Option.some.inj same
          refine ⟨finite, positive, fun x same => ?_, nofun, ?_⟩
          · exact Option.some.inj same ▸ ended
          · cases useFull <;> rfl

theorem checks_readEffect (value : Option Value) (name : String) :
    Checks (Input value) (fun _ => True) (readEffect value name) := by
  unfold readEffect
  split
  · exact checks_ok trivial
  · refine (checks_section value name).bind fun found known => ?_
    cases found with
    | none => exact checks_ok trivial
    | some s =>
        have known : Input value → s.Writable := fun w => known w s rfl
        refine (checks_nameOf fun w v => (known w).get?).bind fun kind _ => ?_
        refine (checks_nameOf fun w v => (known w).get?).bind fun intensity _ => ?_
        exact checks_ok trivial

theorem checks_readTransition (value : Option Value) : Checks (Input value)
    (fun found => ∀ t, found = some t → t.milliseconds.isFinite = true) (readTransition value) := by
  unfold readTransition
  split
  · refine checks_ok fun t same => ?_
    obtain rfl := Option.some.inj same
    simp only [Binary64.zero_eq, Binary64.isFinite]
  · refine (checks_section value "transition").bind fun found known => ?_
    cases found with
    | none => exact checks_ok fun _ none => by cases none
    | some s =>
        have known : Input value → s.Writable := fun w => known w s rfl
        refine (checks_nameOf fun w v => (known w).get?).bind fun kind _ => ?_
        refine (checks_finite fun w => (known w).getD _ (.int 0) (by decide +kernel)).bind
          fun length finite => ?_
        refine checks_ok fun t same => ?_
        obtain rfl := Option.some.inj same
        exact finite

theorem checks_readTextStyle (value : Option Value) : Checks (Input value)
    (fun found => ∀ s, found = some s → s.Valid) (readTextStyle value) := by
  refine (checks_section value "text_style").bind fun found known => ?_
  cases found with
  | none => exact checks_ok fun _ none => by cases none
  | some s =>
      have known : Input value → s.Writable := fun w => known w s rfl
      refine (checks_nameOf fun w v => (known w).get?).bind fun fontSize _ => ?_
      dsimp only
      split
      · exact checks_throw fun _ => rfl
      · rename_i sized
        refine (checks_nameOf fun w v => (known w).get?).bind fun weight _ => ?_
        split
        · exact checks_throw fun _ => rfl
        · rename_i weighted
          split
          · exact checks_error fun _ => rfl
          · rename_i color read
            refine (checks_boolean fun w v => (known w).get?).bind fun background _ => ?_
            refine checks_ok fun t same => ?_
            obtain rfl := Option.some.inj same
            refine ⟨?_, ?_, color, read⟩
            · obtain ⟨size, found⟩ := Option.ne_none_iff_exists'.mp (mt Option.isNone_iff_eq_none.mpr sized)
              obtain ⟨front, back, split, -⟩ := List.lookup_eq_some_iff.mp found
              exact List.mem_map.mpr ⟨(fontSize, size), split ▸ by simp, rfl⟩
            · simp only [ne_eq, not_and_or, not_not] at weighted
              simpa using weighted

theorem checks_percent {writable : Prop} {s : Section} (h : writable → s.Writable) (axis : String) :
    Checks writable (fun x => 0 ≤ x ∧ x ≤ 100) (percent s axis) := by
  refine (checks_finite fun w => (h w).getD _ (.float 50) (by simp only [Value.isWritable])).bind
    fun x _ => ?_
  split
  · exact checks_ok ‹_›
  · exact checks_error fun _ => rfl

theorem checks_readTextPosition (value : Option Value) : Checks (Input value)
    (fun found => ∀ p, found = some p → p.Valid) (readTextPosition value) := by
  refine (checks_section value "text_position").bind fun found known => ?_
  cases found with
  | none => exact checks_ok fun _ none => by cases none
  | some s =>
      have known : Input value → s.Writable := fun w => known w s rfl
      refine (checks_percent known "x_percent").bind fun x across => ?_
      refine (checks_percent known "y_percent").bind fun y down => ?_
      refine checks_ok fun p same => ?_
      obtain rfl := Option.some.inj same
      exact ⟨across, down⟩

theorem checks_readAudioSource (value : Option Value) :
    Checks (Input value) (fun _ => True) (readAudioSource value) := by
  unfold readAudioSource
  split
  · exact checks_ok trivial
  · rename_i v other
    split
    · exact checks_ok trivial
    · refine checks_error fun w => ?_
      cases value with
      | none => exact absurd rfl other
      | some v => exact w v rfl

theorem checks_ofEntries (entries : List (Value × Value)) :
    Checks ((Value.mapping entries).isWritable = true) Valid (ofEntries entries) := by
  have parts : (Value.mapping entries).isWritable = true →
      ∀ e ∈ entries, e.1.isWritable = true ∧ e.2.isWritable = true := fun w =>
    Value.areWritableEntries_iff.mp (by simpa only [Value.isWritable] using w)
  unfold ofEntries
  split
  · exact checks_error fun w => (canonicalEntries_writable (parts w)).2 _ ‹_›
  · rename_i s read
    dsimp only
    split
    · exact checks_throw fun _ => rfl
    · have input : (Value.mapping entries).isWritable = true → ∀ name, Input (s.get? name) :=
        fun w name v => ((canonicalEntries_writable (parts w)).1 s read).get?
      refine ((checks_readTrim _ _).weaken fun w => input w _).bind fun hookTrim hook => ?_
      refine ((checks_readTrim _ _).weaken fun w => input w _).bind fun demoTrim demo => ?_
      refine ((checks_readTransition _).weaken fun w => input w _).bind fun transition blend => ?_
      refine ((checks_readEffect _ _).weaken fun w => input w _).bind fun hookEffect _ => ?_
      refine ((checks_readEffect _ _).weaken fun w => input w _).bind fun demoEffect _ => ?_
      refine ((checks_readTextStyle _).weaken fun w => input w _).bind fun textStyle style => ?_
      refine ((checks_readTextPosition _).weaken fun w => input w _).bind fun textPosition place => ?_
      refine ((checks_readAudioSource _).weaken fun w => input w _).bind fun audioSource _ => ?_
      exact checks_ok ⟨hook, demo, blend, style, place, by cases audioSource <;> rfl⟩

theorem default_valid : Valid {} where
  hookTrim _ none := by cases none
  demoTrim _ none := by cases none
  transition _ none := by cases none
  textStyle _ none := by cases none
  textPosition _ none := by cases none
  audioSource := rfl

theorem checks_ofValue (v : Value) : Checks (v.isWritable = true) Valid (ofValue v) := by
  unfold ofValue
  split
  · exact checks_ok default_valid
  · rename_i entries opened
    exact (checks_ofEntries entries).weaken fun w => opened ▸ Value.isWritable_opened w
  · exact checks_error fun _ => rfl

/-! ## The whole -/

theorem ofFault_eq_ok {x : Except Fault EditConfig} {c : EditConfig} :
    ofFault x = .ok c ↔ x = .ok c := by
  cases x <;> simp [ofFault]

theorem valid_ofText {s : String} {c : EditConfig} (h : ofText s = .ok c) : c.Valid := by
  unfold ofText at h
  split at h
  · obtain rfl := Except.ok.inj h
    exact default_valid
  · split at h
    · exact (checks_ofValue _).value c (ofFault_eq_ok.mp h)
    · cases h
    · cases h

theorem read_of_not_text {v : Value} (other : ∀ s, v ≠ .text s) : read v = ofFault (ofValue v) := by
  cases v with
  | text s => exact absurd rfl (other s)
  | _ => rfl

/-- Whatever a configuration was read from, it can be relied on. -/
theorem valid_of_read {v : Value} {c : EditConfig} (h : read v = .ok c) : c.Valid := by
  by_cases other : ∀ s, v ≠ .text s
  · rw [read_of_not_text other] at h
    exact (checks_ofValue v).value c (ofFault_eq_ok.mp h)
  · obtain ⟨s, text⟩ := not_forall.mp other
    obtain rfl := not_not.mp text
    exact valid_ofText h

/-- A number is no window. -/
theorem ofValue_number_window (n : Int) : ofValue (.mapping [(.text "hook_trim", .int n)]) =
    .error (.sectionNotMapping "hook_trim" (.int n)) := by
  have key : canonicalKey "hook_trim" = "hook_trim" := by decide +kernel
  have read : canonicalEntries [(.text "hook_trim", .int n)] = .ok [("hook_trim", .int n)] := by
    rw [canonicalEntries, canonicalEntries, key]
    rfl
  have known : unknownKeys [("hook_trim", .int n)] = [] := by
    simp [unknownKeys, sectionNames, List.eraseDups]
  simp only [ofValue, Value.opened, ofEntries, read, known]
  rfl

/-- A configuration whose window is a whole number of 4301 digits. -/
def overlong : Value := .mapping [(.text "hook_trim", .int (Nat.pow 10 4300 : Nat))]

end EditConfig
end Splice
