import Mathlib.Data.List.Basic
import Splice.Proofs.Settings.Outcome

/-! # Where each setting comes from

A setting is what its variable of the environment gives, else what the last entry of the file that names it
gives, else its default. No variable changes a setting other than its own, and a path that comes from the
file is absolute.
-/

namespace Splice

open Splice.Action Machine

namespace Setting

/-- No two settings are read from one variable. -/
theorem environmentName_injective : Function.Injective environmentName := by
  intro t u same
  have apart : ∀ t ∈ all, ∀ u ∈ all, t.environmentName = u.environmentName → t = u := by decide
  exact apart t (by cases t <;> decide) u (by cases u <;> decide) same

end Setting

namespace Settings

/-! ## The last assignment -/

section Assignments

variable {s : Settings} {t : Setting} {a : Assignment} {as : List Assignment}

@[simp] theorem get_assign_same (s : Settings) (a : Assignment) :
    (s.assign a).get a.setting = a.content := by
  simp [assign]

theorem get_assign_ne (h : a.setting ≠ t) : (s.assign a).get t = s.get t := by
  simp [assign, h]

theorem get_assignAll_unnamed (h : ∀ a ∈ as, a.setting ≠ t) : (s.assignAll as).get t = s.get t := by
  induction as generalizing s with
  | nil => rfl
  | cons a rest ih =>
      obtain ⟨other, others⟩ := List.forall_mem_cons.mp h
      exact (ih (s := s.assign a) others).trans (get_assign_ne other)

/-- The last assignment to a setting decides. -/
theorem get_assignAll_last (before : List Assignment) {after : List Assignment}
    (last : ∀ b ∈ after, b.setting ≠ a.setting) :
    (s.assignAll (before ++ a :: after)).get a.setting = a.content := by
  have split : s.assignAll (before ++ a :: after) =
      ((s.assignAll before).assign a).assignAll after := by
    simp only [assignAll, List.foldl_append, List.foldl_cons]
  rw [split, get_assignAll_unnamed last, get_assign_same]

/-- Where all assignments to a setting agree, it does not matter which one is the last. -/
theorem get_assignAll_of_mem (mem : a ∈ as) (only : ∀ b ∈ as, b.setting = a.setting → b = a) :
    (s.assignAll as).get a.setting = a.content := by
  induction as generalizing s with
  | nil => cases mem
  | cons b rest ih =>
      by_cases later : ∃ c ∈ rest, c.setting = a.setting
      · obtain ⟨c, among, same⟩ := later
        obtain rfl := only c (List.mem_cons_of_mem b among) same
        exact ih (s := s.assign b) among fun d hd => only d (List.mem_cons_of_mem b hd)
      · have unnamed : ∀ c ∈ rest, c.setting ≠ a.setting := fun c hc same => later ⟨c, hc, same⟩
        obtain rfl : a = b := (List.mem_cons.mp mem).resolve_right fun hr => unnamed a hr rfl
        exact get_assignAll_last [] unnamed

end Assignments

/-! ## The environment -/

section Environment

variable {environment : String → Option String}

/-- Every variable of a setting that is set and not empty can be read as its content. -/
def Parses (environment : String → Option String) : Prop :=
  ∀ (t : Setting) (value : String), environment t.environmentName = some value → value ≠ "" →
    (parse value t.kind).isSome = true

/-- A variable of the environment that is set, with the content that it gives. -/
def IsSet (environment : String → Option String) (t : Setting) (content : t.kind.Content) : Prop :=
  ∃ value, environment t.environmentName = some value ∧ value ≠ "" ∧ parse value t.kind = some content

theorem fromVariable_of_isUnset {t : Setting} (h : IsUnset environment t) :
    fromVariable environment t = .ok none := by
  unfold fromVariable
  cases given : environment t.environmentName with
  | none => rfl
  | some value =>
      obtain rfl := h value given
      rfl

theorem fromVariable_of_isSet {t : Setting} {content : t.kind.Content} (h : IsSet environment t content) :
    fromVariable environment t = .ok (some ⟨t, some content⟩) := by
  obtain ⟨value, given, filled, parsed⟩ := h
  unfold fromVariable
  rw [given, Option.filter_some_pos (by simpa [String.isEmpty_iff] using filled)]
  simp only [parsed]

/-- A variable is unset or set, if it can be read. -/
theorem Parses.cases (h : Parses environment) (t : Setting) :
    IsUnset environment t ∨ ∃ content, IsSet environment t content := by
  by_cases set : ∃ value, environment t.environmentName = some value ∧ value ≠ ""
  · obtain ⟨value, given, filled⟩ := set
    obtain ⟨content, parsed⟩ := Option.isSome_iff_exists.mp (h t value given filled)
    exact .inr ⟨content, value, given, filled, parsed⟩
  · exact .inl fun value given => by_contra fun filled => set ⟨value, given, filled⟩

/-- An environment can be read if each of its variables can. -/
theorem parses_iff : Parses environment ↔ ∃ as, ofEnvironment environment = .ok as := by
  constructor
  · intro h
    cases made : ofEnvironment environment with
    | ok as => exact ⟨as, rfl⟩
    | error e =>
        rw [ofEnvironment_eq, Outcome.bind_eq_error] at made
        rcases made with failed | ⟨_, -, ⟨⟩⟩
        obtain ⟨_, t, _, -, -, failed⟩ := Outcome.mapM_eq_error.mp failed
        rcases h.cases t with unset | ⟨content, set⟩
        · cases (fromVariable_of_isUnset unset).symm.trans failed
        · cases (fromVariable_of_isSet set).symm.trans failed
  · rintro ⟨as, h⟩ t value given filled
    rw [ofEnvironment_eq, Outcome.bind_eq_ok] at h
    obtain ⟨_, met, -⟩ := h
    obtain ⟨o, -, read⟩ := (Outcome.mapM_eq_ok met).1 t (by cases t <;> decide)
    unfold fromVariable at read
    rw [given, Option.filter_some_pos (by simpa [String.isEmpty_iff] using filled)] at read
    dsimp only at read
    split at read
    · simp only [*, Option.isSome_some]
    · cases read

/-- The environment makes of a setting what its variable says, and leaves it without one. -/
theorem get_ofEnvironment {as : List Assignment} (h : ofEnvironment environment = .ok as) (s : Settings)
    (t : Setting) : (∀ content, IsSet environment t content → (s.assignAll as).get t = some content) ∧
      (IsUnset environment t → (s.assignAll as).get t = s.get t) := by
  rw [ofEnvironment_eq, Outcome.bind_eq_ok] at h
  obtain ⟨given, met, h⟩ := h
  obtain rfl := Except.ok.inj h
  obtain ⟨each, back⟩ := Outcome.mapM_eq_ok met
  have own : ∀ b ∈ given.filterMap id, fromVariable environment b.setting = .ok (some b) := by
    intro b mem
    obtain ⟨_, among, rfl⟩ := List.mem_filterMap.mp mem
    obtain ⟨u, -, read⟩ := back _ among
    rw [(fromVariable_eq_ok read).1, read]
  constructor
  · intro content set
    obtain ⟨o, among, read⟩ := each t (by cases t <;> decide)
    obtain rfl := Except.ok.inj (read.symm.trans (fromVariable_of_isSet set))
    refine get_assignAll_of_mem (a := ⟨t, some content⟩) (List.mem_filterMap.mpr ⟨_, among, rfl⟩) ?_
    rintro b mem rfl
    exact Option.some.inj (Except.ok.inj ((own b mem).symm.trans (fromVariable_of_isSet set)))
  · intro unset
    refine get_assignAll_unnamed ?_
    rintro b mem rfl
    cases (own b mem).symm.trans (fromVariable_of_isUnset unset)

end Environment

/-! ## The file -/

section File

variable {here : Location} {directory : Path} {paths : Value} {s : Settings} {t : Setting}

/-- The key of an entry is the name of a setting, in one of its spellings. -/
def Names (t : Setting) (entry : Value × Value) : Prop := Setting.ofName? (keyName entry.1) = some t

instance (t : Setting) (entry : Value × Value) : Decidable (Names t entry) :=
  inferInstanceAs (Decidable (_ = _))

/-- An entry that can be read names the setting that it is given to. -/
theorem names_of_assignment {entry : Value × Value} {a : Assignment}
    (h : assignment here directory paths entry = .ok a) : Names a.setting entry := by
  rw [assignment_eq] at h
  split at h
  · cases h
  · split at h
    · cases h
    · rename_i known
      obtain ⟨v, -, h⟩ := Outcome.bind_eq_ok.mp h
      obtain ⟨rfl, -⟩ := give_eq_ok h
      exact known

/-- What an entry gives a setting is the content of some value. -/
theorem content_of_assignment {entry : Value × Value} {c : t.kind.Content}
    (h : assignment here directory paths entry = .ok ⟨t, some c⟩) :
    ∃ v, content here directory entry.1 v t.kind = .ok c := by
  have named : Setting.ofName? (keyName entry.1) = some t := names_of_assignment h
  rw [assignment_eq, named] at h
  split at h
  · cases h
  · obtain ⟨v, -, h⟩ := Outcome.bind_eq_ok.mp h
    by_cases there : v = .null
    · rw [there] at h
      cases h
    · rw [give_eq there] at h
      obtain ⟨c', made, given⟩ := Outcome.map_eq_ok.mp h
      obtain rfl : c' = c := by simpa using given
      exact ⟨v, made⟩

/-- A path that a value gives is absolute. -/
theorem isAbsolute_of_toPath {value : Value} {p : Path} (h : toPath here directory value = .ok p) :
    p.isAbsolute = true := by
  cases value with
  | text s =>
      simp only [toPath] at h
      split at h
      · obtain rfl := Except.ok.inj h
        assumption
      · split at h
        · cases h
        · obtain rfl := Except.ok.inj h
          rfl
  | _ => cases h

/-- What entries make of a setting: the last one that names it decides, and without one it stays. -/
theorem get_entries {entries : List (Value × Value)} {as : List Assignment}
    (h : entries.mapM (assignment here directory paths) = .ok as) :
    (∀ before entry after, entries = before ++ entry :: after → Names t entry →
      (∀ later ∈ after, ¬ Names t later) →
        assignment here directory paths entry = .ok ⟨t, (s.assignAll as).get t⟩) ∧
      ((∀ entry ∈ entries, ¬ Names t entry) → (s.assignAll as).get t = s.get t) := by
  constructor
  · rintro before entry after rfl named unnamed
    obtain ⟨bs, a, cs, rfl, read, rest⟩ := Outcome.mapM_split h
    obtain rfl : t = a.setting := Option.some.inj (named.symm.trans (names_of_assignment read))
    rw [get_assignAll_last, read]
    intro c mem same
    obtain ⟨later, among, given⟩ := (Outcome.mapM_eq_ok rest).2 c mem
    exact unnamed later among (same ▸ names_of_assignment given)
  · intro unnamed
    refine get_assignAll_unnamed ?_
    rintro a mem rfl
    obtain ⟨entry, among, read⟩ := (Outcome.mapM_eq_ok h).2 a mem
    exact unnamed entry among (names_of_assignment read)

theorem ofFile_eq_ok {file : Path} {text : String} {entries : List (Value × Value)} {as : List Assignment}
    (reads : Reads text entries) (h : ofFile here file text = .ok as) :
    (settingEntries entries).mapM (assignment here file.parent (definitions entries)) = .ok as := by
  obtain ⟨v, read, opened⟩ := reads
  unfold ofFile at h
  rw [read] at h
  dsimp only at h
  unfold ofValue at h
  rwa [opened] at h

end File

/-- The assignments of what was found in a file, none without one. -/
def found (here : Location) : Option (Path × String) → Except ReadError (List Assignment)
  | none => .ok []
  | some (file, text) => ofFile here file text

/-- The assignments of a file and those of the environment make the settings. -/
theorem load_eq_ok {here : Location} {installed : Installed} (source : Option (Path × String))
    {environment : String → Option String} {as : List Assignment} {given : Settings}
    (h : found here source = .ok as) : load installed here source environment = .ok given ↔
      ∃ es, ofEnvironment environment = .ok es ∧
        given = ((default installed).assignAll as).assignAll es := by
  have split : load installed here source environment =
      found here source >>= fun fromFile => ofEnvironment environment >>= fun fromEnvironment =>
        .ok (((default installed).assignAll fromFile).assignAll fromEnvironment) := by
    rw [load_eq]
    cases source <;> rfl
  rw [split, h, Outcome.ok_bind, Outcome.bind_eq_ok]
  simp only [Except.ok.injEq, eq_comm]

/-- The settings that are paths. -/
def paths (s : Settings) : List (Setting × Option Path) :=
  [(.temporary, s.get .temporary), (.database, s.get .database), (.storage, s.get .storage)]

/-- A setting of paths has a content of its own kind. -/
theorem mem_paths {s : Settings} {t : Setting} {p : Path} : (t, some p) ∈ s.paths ↔
    ∃ path : t.kind = .path, s.get t = some (path ▸ p) := by
  constructor
  · intro mem
    simp only [paths, List.mem_cons, List.not_mem_nil, or_false, Prod.mk.injEq] at mem
    rcases mem with ⟨rfl, held⟩ | ⟨rfl, held⟩ | ⟨rfl, held⟩
    all_goals exact ⟨rfl, held.symm⟩
  · rintro ⟨path, held⟩
    cases t with
    | temporary | database | storage => simp [paths, held]
    | _ => cases path

/-- A path that the entries of a file give is absolute. -/
theorem isAbsolute_of_entries {here : Location} {directory : Path} {definitions : Value} {s : Settings}
    {t : Setting} {p : Path} {entries : List (Value × Value)} {as : List Assignment}
    (walked : entries.mapM (assignment here directory definitions) = .ok as)
    (mem : (t, some p) ∈ (s.assignAll as).paths) (named : ∃ entry ∈ entries, Names t entry) :
    p.isAbsolute = true := by
  obtain ⟨path, held⟩ := mem_paths.mp mem
  rcases get_assignAll held with given | ⟨-, unnamed⟩
  · obtain ⟨entry, -, read⟩ := (Outcome.mapM_eq_ok walked).2 _ given
    obtain ⟨v, made⟩ := content_of_assignment read
    cases t with
    | temporary | database | storage => exact isAbsolute_of_toPath made
    | _ => cases path
  · obtain ⟨entry, among, named⟩ := named
    obtain ⟨a, given, read⟩ := (Outcome.mapM_eq_ok walked).1 entry among
    exact absurd (Option.some.inj ((names_of_assignment read).symm.trans named)) (unnamed a given)

end Settings

/-! ## The settings of a run -/

namespace Surroundings

open Settings

/-- A run's file of settings is accepted: it holds entries, each of which is read as an assignment. Without
a file there are no entries. -/
inductive Accepted (m : Machine) : Option Path → List (Value × Value) →
    (Value × Value → Except ReadError Assignment) → Prop where
  | absent {directory : Path} {paths : Value} : Accepted m none [] (assignment m.here directory paths)
  | file {p : Path} {text : String} {entries : List (Value × Value)} {as : List Assignment} :
      Opened m p text → Reads text entries → ofFile m.here p text = .ok as →
      Accepted m (some p) (settingEntries entries) (assignment m.here p.parent (definitions entries))

section

variable {m n : Machine} {file : Option Path} {entries : List (Value × Value)}
  {read : Value × Value → Except ReadError Assignment}

/-- The assignments of a file and those of the environment make the settings of a run. -/
theorem Accepted.exists_assignments (accepted : Accepted m file entries read) :
    ∃ directory paths as, read = assignment m.here directory paths ∧ entries.mapM read = .ok as ∧
      ∀ (s : Surroundings) (given : Settings) (n : Machine), Ends (s.settings file) m given n ↔
        (∃ es, ofEnvironment s.environment = .ok es ∧
          given = ((default s.installed).assignAll as).assignAll es) ∧ n = m := by
  cases accepted with
  | absent =>
      refine ⟨_, _, [], rfl, rfl, fun s given n => ?_⟩
      rw [settings_none, ends_finish, load_eq_ok none rfl]
  | file opened reads accepted =>
      refine ⟨_, _, _, rfl, ofFile_eq_ok reads accepted, fun s given n => ?_⟩
      rw [settings_some, ← load_eq_ok (some (_, _)) accepted, ← ends_finish]
      constructor
      · intro ended
        obtain ⟨text, k, unique, done⟩ := ends_bind.mp ended
        obtain ⟨rfl, rfl⟩ := unique.unique opened.ends
        exact done
      · exact fun done => ends_bind.mpr ⟨_, m, opened.ends, done⟩

end

/-- A file that is accepted and an environment that can be read give settings. A setting is what its
variable gives; else what the last entry of the file that names it is read as; else its default. Another
environment gives no other content but to the settings whose variables it gives another text. A path that
comes from the file is absolute. -/
theorem settings_precedence {s : Surroundings} {file : Option Path} {m : Machine}
    {entries : List (Value × Value)} {read : Value × Value → Except ReadError Assignment}
    (accepted : Accepted m file entries read) (parses : Parses s.environment) :
    ∃ given, Ends (s.settings file) m given m ∧
      (∀ t content, IsSet s.environment t content → given.get t = some content) ∧
      (∀ t, IsUnset s.environment t →
        (∀ before entry after, entries = before ++ entry :: after → Names t entry →
          (∀ later ∈ after, ¬ Names t later) → read entry = .ok ⟨t, given.get t⟩) ∧
        ((∀ entry ∈ entries, ¬ Names t entry) → given.get t = (default s.installed).get t)) ∧
      (∀ name environment given' n, (∀ other, other ≠ name → environment other = s.environment other) →
        Ends (Surroundings.settings ⟨s.installed, environment⟩ file) m given' n →
          ∀ t, given'.get t ≠ given.get t → t.environmentName = name ∧
            ∀ u, given'.get u ≠ given.get u → u = t) ∧
      ∀ t p, (t, some p) ∈ given.paths → IsUnset s.environment t → (∃ entry ∈ entries, Names t entry) →
        p.isAbsolute = true := by
  obtain ⟨directory, definitions, as, rfl, walked, settles⟩ := accepted.exists_assignments
  obtain ⟨es, made⟩ := parses_iff.mp parses
  have fromFile (t : Setting) := get_entries (s := default s.installed) (t := t) walked
  have fromVariable := get_ofEnvironment made ((default s.installed).assignAll as)
  refine ⟨_, (settles s _ m).mpr ⟨⟨es, made, rfl⟩, rfl⟩, fun t => (fromVariable t).1, fun t unset => ?_,
    fun name environment given' n same ended => ?_, fun t p mem unset named => ?_⟩
  · rw [(fromVariable t).2 unset]
    exact fromFile t
  · obtain ⟨⟨es', (made' : ofEnvironment environment = .ok es'), rfl⟩, -⟩ := (settles _ given' n).mp ended
    have own (t : Setting) (changed : (((default s.installed).assignAll as).assignAll es').get t ≠
        (((default s.installed).assignAll as).assignAll es).get t) : t.environmentName = name := by
      refine by_contra fun other => changed ?_
      obtain ⟨set', unset'⟩ := get_ofEnvironment made' ((default s.installed).assignAll as) t
      have kept : environment t.environmentName = s.environment t.environmentName := same _ other
      rcases parses.cases t with unset | ⟨content, set⟩
      · rw [(fromVariable t).2 unset]
        exact unset' (by rwa [IsUnset, kept])
      · rw [(fromVariable t).1 content set]
        exact set' content (by rwa [IsSet, kept])
    intro t changed
    refine ⟨own t changed, fun u changed' => Setting.environmentName_injective ?_⟩
    rw [own t changed, own u changed']
  · refine isAbsolute_of_entries (s := default s.installed) walked ?_ named
    rw [mem_paths] at mem ⊢
    exact mem.imp fun path held => ((fromVariable t).2 unset).symm.trans held

/-- A file with two spellings of one setting, under an environment with a text and an empty one. -/
def layers : String := "tmp-dir: /a\nTMP_DIR: /b\nvideo_crf: 20\n"

def layered : Surroundings where
  installed := ⟨none, "ffmpeg", fun _ => false⟩
  environment name :=
    if name = "HOOKCUT_FFMPEG" then some "/opt/ffmpeg"
    else if name = "HOOKCUT_TMP_DIR" then some ""
    else none

theorem layered_parses : Parses layered.environment := by
  intro t value given filled
  cases t with
  | engine => rfl
  | _ => simp_all [layered, Setting.environmentName]

/-- The three entries of the file, and the path that the second one gives. -/
theorem layers_accepted : ∃ first second third read,
    Accepted (stating layers) (some (.ofText "s.yaml")) [first, second, third] read ∧
      Names .temporary first ∧ Names .temporary second ∧ Names .quality third ∧
      ∀ c, read second = .ok ⟨.temporary, c⟩ → c = some (Path.ofText "/b") := by
  have known : ((Yaml.read (Text.ofFile layers)).toOption.bind entries?).any (fun entries =>
      decide ((settingEntries entries).length = 3 ∧
        (∀ e ∈ (settingEntries entries).take 2, Names .temporary e) ∧
        ∀ e ∈ (settingEntries entries).drop 2, Names .quality e) &&
      (settingEntries entries)[1]?.any fun second =>
        (assignment [] (Path.ofText "s.yaml").parent (definitions entries) second).toOption.any fun a =>
          decide (((default layered.installed).assign a).get .temporary = some (Path.ofText "/b"))) =
      true := by
    decide +kernel
  obtain ⟨entries, found, known⟩ := Option.any_eq_true _ _ |>.mp known
  obtain ⟨v, read, opened⟩ := Option.bind_eq_some_iff.mp found
  obtain ⟨as, accepted⟩ : ∃ as, ofFile [] (.ofText "s.yaml") layers = .ok as :=
    Outcome.exists_eq_ok (by decide +kernel)
  obtain ⟨parts, given⟩ := Bool.and_eq_true_iff.mp known
  obtain ⟨three, temporary, quality⟩ := of_decide_eq_true parts
  obtain ⟨first, second, third, split⟩ := List.length_eq_three.mp three
  rw [split] at temporary quality given
  have held : Accepted (stating layers) (some (.ofText "s.yaml")) (settingEntries entries) _ :=
    .file ⟨rfl, rfl⟩ ⟨v, Outcome.eq_ok_of_toOption read, opened⟩ accepted
  refine ⟨first, second, third, _, split ▸ held, temporary first (by simp), temporary second (by simp),
    quality third (by simp), fun c made => ?_⟩
  have made : assignment [] (Path.ofText "s.yaml").parent (definitions entries) second =
    .ok ⟨.temporary, c⟩ := made
  have same := get_assign_same (default layered.installed) ⟨.temporary, c⟩
  simp only [List.getElem?_cons_succ, List.getElem?_cons_zero, Option.any_some, made] at given
  simpa [Except.toOption, same] using given

theorem settings_precedence_layers : ∃ given,
    Ends (layered.settings (some (.ofText "s.yaml"))) (stating layers) given (stating layers) ∧
      given.get .engine = some "/opt/ffmpeg" ∧ given.get .temporary = some (Path.ofText "/b") ∧
      given.get .preset = some "medium" := by
  obtain ⟨first, second, third, read, accepted, one, two, three, path⟩ := layers_accepted
  obtain ⟨given, ended, set, unset, -, -⟩ := settings_precedence accepted layered_parses
  have empty (t : Setting) (h : t ≠ .engine) : IsUnset layered.environment t := by
    intro value held
    cases t with
    | engine => exact absurd rfl h
    | temporary => simpa [layered, Setting.environmentName, eq_comm] using held
    | _ => simp [layered, Setting.environmentName] at held
  have third_only (t : Setting) (h : t ≠ .quality) : ¬ Names t third :=
    fun named => h (Option.some.inj (named.symm.trans three))
  refine ⟨given, ended, set .engine "/opt/ffmpeg" ⟨"/opt/ffmpeg", by decide, by decide, rfl⟩, path _ ?_, ?_⟩
  · exact (unset .temporary (empty _ nofun)).1 [first] second [third] rfl two
      (List.forall_mem_singleton.mpr (third_only _ nofun))
  · have apart (entry : Value × Value) (named : Names .temporary entry) : ¬ Names .preset entry :=
      fun other => nomatch Option.some.inj (named.symm.trans other)
    exact (unset .preset (empty _ nofun)).2 (List.forall_mem_cons.mpr ⟨apart first one,
      List.forall_mem_cons.mpr ⟨apart second two, List.forall_mem_singleton.mpr (third_only _ nofun)⟩⟩)

end Surroundings
end Splice
