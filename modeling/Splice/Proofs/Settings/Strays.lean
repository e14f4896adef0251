import Splice.Proofs.Outcome
import Splice.Settings.Load

/-! # What a file of settings can say beside faults

Most of what a file says wrongly is told as a fault of the settings. `Strays` lists the rest: a text that
is no value, and the entries that give no setting for a reason that is not told. Reading a file fails
without a fault exactly with the first of them. A setting is left empty only by an entry without a value.
-/

namespace Splice

theorem FileFault.kind_ne (f : FileFault) : f.kind ≠ "ConfigError" := by
  cases f <;> decide

namespace Settings

/-! ## Values that are not told of -/

variable {here : Location} {directory : Path} {paths key value : Value} {e : ReadError}

/-- Why a value that is there cannot be the content of a setting, if that is not told as a fault of the
settings. -/
inductive Unfit (here : Location) (directory : Path) : SettingKind → Value → ReadError → Prop where
  | longText {v : Value} : v.isWritable = false → Unfit here directory .text v .unwritable
  | longNumber {v : Value} : toNumber v = .error .invalid → v.isWritable = false →
      Unfit here directory .number v .unwritable
  | longWhole {v : Value} : toWhole v = .error .invalid → v.isWritable = false →
      Unfit here directory .whole v .unwritable
  | large {n : Int} : (Binary64.ofInt n).isFinite = false → Unfit here directory .number (.int n) .tooLarge
  | infinite (negative : Bool) : Unfit here directory .whole (.float (.infinite negative)) .infinite
  | noText {v : Value} : (∀ s, v ≠ .text s) → Unfit here directory .path v .wrongType
  | badPath {s : String} {f : FileFault} : (Path.ofText s).isAbsolute = false →
      FileFault.ofSteps? (Path.ofText s) = some f → Unfit here directory .path (.text s) (.badPath f s)

@[simp] theorem orInvalid_eq_error {α : Type} {o : Option α} {e : ConvertError} :
    orInvalid o = .error e ↔ o = none ∧ e = .invalid := by
  cases o <;> simp [orInvalid, eq_comm]

theorem toNumber_eq_tooLarge : toNumber value = .error .tooLarge ↔
    ∃ n, value = .int n ∧ (Binary64.ofInt n).isFinite = false := by
  cases value <;> simp [toNumber]

theorem toNumber_ne_infinite : toNumber value ≠ .error .infinite := by
  cases value with
  | int n => cases finite : (Binary64.ofInt n).isFinite <;> simp [toNumber, finite]
  | _ => simp [toNumber]

theorem toWhole_float (x : Binary64) : toWhole (.float x) = match x with
    | .nan => .error .invalid
    | .infinite _ => .error .infinite
    | .finite negative units _ =>
      .ok (Int.tdiv (Binary64.signedUnits negative units) Binary64.unitsPerOne) := by
  cases x <;> rfl

theorem toWhole_eq_infinite : toWhole value = .error .infinite ↔
    ∃ negative, value = .float (.infinite negative) := by
  cases value with
  | float x =>
      rw [toWhole_float]
      cases x with
      | nan | infinite => simp
      | finite => exact ⟨nofun, nofun⟩
  | _ => simp [toWhole]

theorem toWhole_ne_tooLarge : toWhole value ≠ .error .tooLarge := by
  cases value with
  | float x =>
      rw [toWhole_float]
      cases x <;> nofun
  | _ => simp [toWhole]

theorem convert_eq_error {α : Type} {x : Except ConvertError α} (stray : ∀ f, e ≠ .fault f) :
    content.convert key value x = .error e ↔
      x = .error .invalid ∧ value.isWritable = false ∧ e = .unwritable ∨
        x = .error .tooLarge ∧ e = .tooLarge ∨ x = .error .infinite ∧ e = .infinite := by
  cases x with
  | ok a => simp [content.convert]
  | error c =>
      cases c with
      | invalid =>
          have named : Except.error (ReadError.fault (.invalid key value)) ≠ (.error e : Except _ α) :=
            fun same => stray _ (Except.error.inj same).symm
          cases written : value.isWritable <;> simp [content.convert, written, named, eq_comm]
      | tooLarge | infinite => simpa [content.convert] using eq_comm

theorem toPath_eq_error :
    toPath here directory value = .error e ↔ Unfit here directory .path value e := by
  constructor
  · intro failed
    cases value with
    | text s =>
        simp only [toPath] at failed
        split at failed
        · cases failed
        · split at failed
          · obtain rfl := Except.error.inj failed
            exact .badPath (eq_false_of_ne_true ‹_›) ‹_›
          · cases failed
    | _ =>
        obtain rfl := Except.error.inj failed
        exact .noText nofun
  · rintro (_ | _ | _ | _ | _ | noText | ⟨relative, bad⟩)
    · cases value with
      | text s => exact absurd rfl (noText s)
      | _ => rfl
    · simp [toPath, relative, bad]

theorem content_eq_error {kind : SettingKind} (stray : ∀ f, e ≠ .fault f) :
    content here directory key value kind = .error e ↔ Unfit here directory kind value e := by
  cases kind with
  | text =>
      constructor
      · intro failed
        simp only [content] at failed
        split at failed
        · cases failed
        · obtain rfl := Except.error.inj failed
          exact .longText (eq_false_of_ne_true ‹_›)
      · rintro ⟨long⟩
        simp [content, long]
  | number =>
      rw [content, convert_eq_error stray, toNumber_eq_tooLarge]
      constructor
      · rintro (⟨invalid, long, rfl⟩ | ⟨⟨n, rfl, large⟩, rfl⟩ | ⟨infinite, -⟩)
        · exact .longNumber invalid long
        · exact .large large
        · exact absurd infinite toNumber_ne_infinite
      · rintro (_ | ⟨invalid, long⟩ | _ | large | _ | _ | _)
        · exact .inl ⟨invalid, long, rfl⟩
        · exact .inr (.inl ⟨⟨_, rfl, large⟩, rfl⟩)
  | whole =>
      rw [content, convert_eq_error stray, toWhole_eq_infinite]
      constructor
      · rintro (⟨invalid, long, rfl⟩ | ⟨large, -⟩ | ⟨⟨negative, rfl⟩, rfl⟩)
        · exact .longWhole invalid long
        · exact absurd large toWhole_ne_tooLarge
        · exact .infinite negative
      · rintro (_ | _ | ⟨invalid, long⟩ | _ | _ | _ | _)
        · exact .inl ⟨invalid, long, rfl⟩
        · exact .inr (.inr ⟨⟨_, rfl⟩, rfl⟩)
  | path => exact toPath_eq_error

/-! ## Entries -/

/-- Why an entry gives no setting, if that is not told as a fault of the settings. -/
inductive Stray (here : Location) (directory : Path) (paths : Value) :
    Value × Value → ReadError → Prop where
  | key {key value : Value} : key.isWritable = false → Stray here directory paths (key, value) .unwritable
  | expansion {key : Value} {s : String} {t : Setting} : key.isWritable = true →
      Setting.ofName? (keyName key) = some t → PathVariable.substitute paths s = .error .wrongType →
      Stray here directory paths (key, .text s) .wrongType
  | value {key value given : Value} {t : Setting} {e : ReadError} : key.isWritable = true →
      Setting.ofName? (keyName key) = some t → expand paths key value = .ok given → given ≠ .null →
      Unfit here directory t.kind given e → Stray here directory paths (key, value) e

theorem expand_eq_error (stray : ∀ f, e ≠ .fault f) : expand paths key value = .error e ↔
    ∃ s, value = .text s ∧ PathVariable.substitute paths s = .error .wrongType ∧ e = .wrongType := by
  cases value with
  | text s =>
      cases read : PathVariable.substitute paths s with
      | ok u => simp [expand, read]
      | error f =>
          cases f with
          | unknown name =>
              have named : ReadError.fault (.unknownVariable key (.unknown name)) ≠ e :=
                (stray _).symm
              simp [expand, read, named]
          | wrongType => simp [expand, read, eq_comm]
  | _ => simp [expand]

theorem expand_eq_null (h : expand paths key value = .ok .null) : value = .null := by
  cases value with
  | text s =>
      simp only [expand] at h
      split at h <;> cases h
  | _ => exact Except.ok.inj h

/-- What a value gives a setting: null gives it nothing. -/
def give (here : Location) (directory : Path) (key : Value) (t : Setting) :
    Value → Except ReadError Assignment
  | .null => .ok ⟨t, none⟩
  | v => (content here directory key v t.kind).map fun c => ⟨t, some c⟩

theorem give_eq {t : Setting} (there : value ≠ .null) : give here directory key t value =
    (content here directory key value t.kind).map fun c => ⟨t, some c⟩ := by
  cases value with
  | null => exact absurd rfl there
  | _ => rfl

theorem give_eq_ok {t : Setting} {a : Assignment} (h : give here directory key t value = .ok a) :
    a.setting = t ∧ (a.content = none → value = .null) := by
  by_cases there : value = .null
  · rw [there] at h
    obtain rfl := Except.ok.inj h
    exact ⟨rfl, fun _ => there⟩
  · rw [give_eq there, Outcome.map_eq_ok] at h
    obtain ⟨c, -, rfl⟩ := h
    exact ⟨rfl, nofun⟩

theorem give_eq_error {t : Setting} (stray : ∀ f, e ≠ .fault f) :
    give here directory key t value = .error e ↔ value ≠ .null ∧ Unfit here directory t.kind value e := by
  by_cases there : value = .null
  · simp [there, give]
  · rw [give_eq there, Outcome.map_eq_error, content_eq_error stray]
    exact ⟨fun unfit => ⟨there, unfit⟩, And.right⟩

theorem assignment_eq (entry : Value × Value) : assignment here directory paths entry =
    if entry.1.isWritable = false then .error .unwritable
    else match Setting.ofName? (keyName entry.1) with
      | none => .error (.fault (.unknownKey entry.1))
      | some t => expand paths entry.1 entry.2 >>= give here directory entry.1 t := by
  unfold assignment
  cases written : entry.1.isWritable with
  | false => rfl
  | true =>
      cases Setting.ofName? (keyName entry.1) with
      | none => rfl
      | some t =>
          simp only [Bool.not_true, Bool.false_eq_true, if_false, Bool.true_eq_false]
          congr 1

/-- An entry that gives a setting nothing has no value. -/
theorem assignment_eq_none {entry : Value × Value} {t : Setting}
    (h : assignment here directory paths entry = .ok ⟨t, none⟩) :
    Setting.ofName? (keyName entry.1) = some t ∧ entry.2 = .null := by
  rw [assignment_eq] at h
  split at h
  · cases h
  · split at h
    · cases h
    · rename_i named known
      obtain ⟨given, expanded, h⟩ := Outcome.bind_eq_ok.mp h
      obtain ⟨rfl, empty⟩ := give_eq_ok h
      refine ⟨known, ?_⟩
      exact expand_eq_null (empty rfl ▸ expanded)

theorem assignment_eq_error {entry : Value × Value} (stray : ∀ f, e ≠ .fault f) :
    assignment here directory paths entry = .error e ↔ Stray here directory paths entry e := by
  obtain ⟨key, value⟩ := entry
  rw [assignment_eq]
  dsimp only
  -- A key is written before it is looked up, and its value is looked at only if it names a setting.
  cases written : key.isWritable with
  | false =>
      rw [if_pos rfl]
      constructor
      · intro failed
        obtain rfl := Except.error.inj failed
        exact .key written
      · rintro (_ | ⟨long, -, -⟩ | ⟨long, -, -, -, -⟩)
        · rfl
        · exact absurd (long.symm.trans written) (by decide)
        · exact absurd (long.symm.trans written) (by decide)
  | true =>
      rw [if_neg (by decide)]
      cases known : Setting.ofName? (keyName key) with
      | none => 
        dsimp only
        constructor
        · intro failed
          exact absurd (Except.error.inj failed).symm (stray _)
        · rintro (long | ⟨-, named, -⟩ | ⟨-, named, -, -, -⟩)
          · exact absurd (long.symm.trans written) (by decide)
          · exact absurd (named.symm.trans known) nofun
          · exact absurd (named.symm.trans known) nofun
      | some t =>
        dsimp only
        rw [Outcome.bind_eq_error, expand_eq_error stray]
        constructor
        · rintro (⟨s, rfl, failed, rfl⟩ | ⟨given, expanded, failed⟩)
          · exact .expansion written known failed
          · obtain ⟨there, unfit⟩ := (give_eq_error stray).mp failed
            exact .value written known expanded there unfit
        · rintro (long | ⟨-, named, failed⟩ | ⟨-, named, expanded, there, unfit⟩)
          · exact absurd (long.symm.trans written) (by decide)
          · exact .inl ⟨_, rfl, failed, rfl⟩
          · obtain rfl := Option.some.inj (named.symm.trans known)
            exact .inr ⟨_, expanded, (give_eq_error stray).mpr ⟨there, unfit⟩⟩

/-! ## Files -/

variable {file : Path} {text : String}

/-- A text is read as a mapping with some entries, or as nothing. -/
def Reads (text : String) (entries : List (Value × Value)) : Prop :=
  ∃ v, Yaml.read (Text.ofFile text) = .ok v ∧ entries? v = some entries

/-- The entries that give settings. -/
def settingEntries (entries : List (Value × Value)) : List (Value × Value) :=
  entries.filter (!isDefinition ·.1)

/-- What a file can say that is not told as a fault of the settings: it cannot be read as a value at all,
or the first entry that gives no setting does so for a reason that is not told. -/
inductive Strays (here : Location) (file : Path) (text : String) : ReadError → Prop where
  | malformed {e : Yaml.Error} : Yaml.read (Text.ofFile text) = .error e → Strays here file text (.yaml e)
  | entry {entries before after : List (Value × Value)} {entry : Value × Value} {e : ReadError} :
      Reads text entries → settingEntries entries = before ++ entry :: after →
      (∀ b ∈ before, ∃ a, assignment here file.parent (definitions entries) b = .ok a) →
      Stray here file.parent (definitions entries) entry e → Strays here file text e

theorem Unfit.not_fault {kind : SettingKind} (h : Unfit here directory kind value e) (f : Fault) :
    e ≠ .fault f := by
  cases h <;> nofun

theorem Stray.not_fault {entry : Value × Value} (h : Stray here directory paths entry e) (f : Fault) :
    e ≠ .fault f := by
  cases h with
  | key | expansion => nofun
  | value _ _ _ _ unfit => exact unfit.not_fault f

/-- None of this is told as a fault of the settings. -/
theorem Strays.not_fault (h : Strays here file text e) (f : Fault) : e ≠ .fault f := by
  cases h with
  | malformed => nofun
  | entry _ _ _ stray => exact stray.not_fault f

theorem ofFile_eq_error (stray : ∀ f, e ≠ .fault f) :
    ofFile here file text = .error e ↔ Strays here file text e := by
  unfold ofFile
  constructor
  · intro failed
    split at failed
    · rename_i v read
      unfold ofValue at failed
      split at failed
      · rename_i entries opened
        obtain ⟨before, entry, after, split, fine, failed⟩ := Outcome.mapM_eq_error.mp failed
        exact .entry ⟨v, read, opened⟩ split fine ((assignment_eq_error stray).mp failed)
      · exact absurd (Except.error.inj failed).symm (stray _)
    · obtain rfl := Except.error.inj failed
      exact .malformed ‹_›
  · rintro (malformed | ⟨⟨v, read, opened⟩, split, fine, failed⟩)
    · rw [malformed]
    · rw [read]
      dsimp only
      rw [ofValue, opened]
      exact Outcome.mapM_eq_error.mpr ⟨_, _, _, split, fine, (assignment_eq_error stray).mpr failed⟩

theorem ReadError.kind_ne (stray : ∀ f, e ≠ .fault f) : e.kind ≠ "ConfigError" := by
  cases e with
  | fault f => exact absurd rfl (stray f)
  | yaml e => cases e <;> simp [ReadError.kind, Yaml.Error.kind]
  | badPath f _ => exact f.kind_ne
  | _ => simp [ReadError.kind]

/-- A file has an entry that leaves a setting empty. -/
def LeavesEmpty (text : String) (t : Setting) : Prop :=
  ∃ entries, Reads text entries ∧ ∃ entry ∈ settingEntries entries,
    Setting.ofName? (keyName entry.1) = some t ∧ entry.2 = .null

theorem leavesEmpty_of_ofFile {as : List Assignment} {t : Setting} (h : ofFile here file text = .ok as)
    (given : ⟨t, none⟩ ∈ as) : LeavesEmpty text t := by
  unfold ofFile at h
  split at h
  · rename_i v read
    unfold ofValue at h
    split at h
    · rename_i entries opened
      obtain ⟨entry, mem, assigned⟩ := (Outcome.mapM_eq_ok h).2 _ given
      exact ⟨entries, ⟨v, read, opened⟩, entry, mem, assignment_eq_none assigned⟩
    · cases h
  · cases h

end Settings
end Splice
