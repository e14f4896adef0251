import Splice.Proofs.Frame
import Splice.Proofs.Settings.Strays

/-! # How the settings are read

A run starts with settings, or it is told what is wrong with them, or its file refuses: it cannot be
opened, or it strays. A setting is set to nothing only where the file leaves it empty, or where its default
is nothing.
-/

namespace Splice

open Splice.Action Machine

namespace Settings

/-! ## Settings given anew -/

/-- What a setting ends up with was given to it, or it had that and was given nothing else. -/
theorem get_assignAll {s : Settings} {as : List Assignment} {t : Setting} {c : Option t.kind.Content}
    (h : (s.assignAll as).get t = c) :
    (⟨t, c⟩ : Assignment) ∈ as ∨ s.get t = c ∧ ∀ a ∈ as, a.setting ≠ t := by
  -- The last assignment wins, so the settings before it are whatever the earlier ones made of them.
  induction as generalizing s with
  | nil => exact .inr ⟨h, List.forall_mem_nil _⟩
  | cons a rest ih =>
      rcases ih (s := s.assign a) h with given | ⟨kept, others⟩
      · exact .inl (List.mem_cons_of_mem a given)
      · by_cases same : a.setting = t
        · obtain ⟨named, content⟩ := a
          obtain rfl : named = t := same
          obtain rfl : content = c := by simpa [assign] using kept
          exact .inl List.mem_cons_self
        · have before : s.get t = c := by simpa [assign, same] using kept
          exact .inr ⟨before, List.forall_mem_cons.mpr ⟨same, others⟩⟩

/-- The settings that need no content. -/
def optional : List Setting := [.publicBase, .regularFont, .boldFont]

theorem get_default {installed : Installed} {t : Setting} (h : (default installed).get t = none) :
    t ∈ optional := by
  cases t with
  | publicBase | regularFont | boldFont => decide
  | _ => cases h

/-! ## The environment -/

/-- A variable of the environment that is absent or empty. -/
def IsUnset (environment : String → Option String) (t : Setting) : Prop :=
  ∀ value, environment t.environmentName = some value → value = ""

variable {environment : String → Option String}

/-- The content that the environment gives a setting, if its variable is set. -/
def fromVariable (environment : String → Option String) (t : Setting) :
    Except ReadError (Option Assignment) :=
  match (environment t.environmentName).filter (!·.isEmpty) with
  | none => .ok none
  | some value =>
    match parse value t.kind with
    | some content => .ok (some (⟨t, some content⟩ : Assignment))
    | none => .error (.fault (.unparseable t value))

theorem ofEnvironment_eq : ofEnvironment environment = (do
    let given ← Setting.all.mapM (fromVariable environment)
    return given.filterMap id) := rfl

theorem isUnset_of_fromVariable {t : Setting} (h : fromVariable environment t = .ok none) :
    IsUnset environment t := by
  intro value given
  unfold fromVariable at h
  rw [given] at h
  by_cases empty : value = ""
  · exact empty
  · rw [Option.filter_some_pos (by simpa [String.isEmpty_iff] using empty)] at h
    dsimp only at h
    split at h <;> cases h

theorem fromVariable_eq_ok {t : Setting} {a : Assignment}
    (h : fromVariable environment t = .ok (some a)) : a.setting = t ∧ a.content ≠ none := by
  unfold fromVariable at h
  split at h
  · cases h
  · split at h
    · obtain rfl := Option.some.inj (Except.ok.inj h)
      exact ⟨rfl, nofun⟩
    · cases h

theorem fromVariable_eq_error {t : Setting} {e : ReadError}
    (h : fromVariable environment t = .error e) : ∃ f, e = .fault f := by
  unfold fromVariable at h
  split at h
  · cases h
  · split at h
    · cases h
    · exact ⟨_, (Except.error.inj h).symm⟩

/-- The environment gives no setting nothing, and names each one whose variable is set. -/
theorem ofEnvironment_eq_ok {as : List Assignment} (h : ofEnvironment environment = .ok as) :
    (∀ a ∈ as, a.content ≠ none) ∧ ∀ t, (∀ a ∈ as, a.setting ≠ t) → IsUnset environment t := by
  rw [ofEnvironment_eq, Outcome.bind_eq_ok] at h
  obtain ⟨given, met, h⟩ := h
  obtain rfl := Except.ok.inj h
  obtain ⟨each, back⟩ := Outcome.mapM_eq_ok met
  constructor
  · intro a mem
    obtain ⟨_, among, rfl⟩ := List.mem_filterMap.mp mem
    obtain ⟨t, -, parsed⟩ := back _ among
    exact (fromVariable_eq_ok parsed).2
  · intro t unnamed
    obtain ⟨o, among, parsed⟩ := each t (by cases t <;> decide)
    cases o with
    | none => exact isUnset_of_fromVariable parsed
    | some a =>
        have mem : a ∈ given.filterMap id := List.mem_filterMap.mpr ⟨_, among, rfl⟩
        exact absurd (fromVariable_eq_ok parsed).1 (unnamed a mem)

theorem ofEnvironment_eq_error {e : ReadError} (h : ofEnvironment environment = .error e) :
    ∃ f, e = .fault f := by
  rw [ofEnvironment_eq, Outcome.bind_eq_error] at h
  rcases h with failed | ⟨_, -, ⟨⟩⟩
  obtain ⟨_, t, _, -, -, failed⟩ := Outcome.mapM_eq_error.mp failed
  exact fromVariable_eq_error failed

/-! ## File and environment -/

section Load

variable {here : Location} {e : ReadError} {installed : Installed} {source : Option (Path × String)}

theorem load_eq : load installed here source environment =
    (match source with
      | none => .ok []
      | some (file, text) => ofFile here file text) >>= fun fromFile =>
        ofEnvironment environment >>= fun fromEnvironment =>
          .ok (((default installed).assignAll fromFile).assignAll fromEnvironment) := by
  cases source <;> rfl

/-- The reading fails with what is no fault of the settings exactly if the file says so. -/
theorem load_eq_error (stray : ∀ f, e ≠ .fault f) : load installed here source environment = .error e ↔
    ∃ file text, source = some (file, text) ∧ Strays here file text e := by
  rw [load_eq, Outcome.bind_eq_error]
  constructor
  · rintro (failed | ⟨_, -, failed⟩)
    · cases source with
      | none => cases failed
      | some f => exact ⟨f.1, f.2, rfl, (ofFile_eq_error stray).mp failed⟩
    · rcases Outcome.bind_eq_error.mp failed with failed | ⟨_, -, ⟨⟩⟩
      obtain ⟨f, rfl⟩ := ofEnvironment_eq_error failed
      exact absurd rfl (stray f)
  · rintro ⟨file, text, rfl, strays⟩
    exact .inl ((ofFile_eq_error stray).mpr strays)

/-- A setting without a content needs none, or its variable is not set and the file leaves it empty. -/
theorem get_load {s : Settings} {t : Setting} (h : load installed here source environment = .ok s)
    (empty : s.get t = none) : t ∈ optional ∨
      IsUnset environment t ∧ ∃ file text, source = some (file, text) ∧ LeavesEmpty text t := by
  rw [load_eq] at h
  obtain ⟨fromFile, read, h⟩ := Outcome.bind_eq_ok.mp h
  obtain ⟨fromEnvironment, given, h⟩ := Outcome.bind_eq_ok.mp h
  obtain rfl := Except.ok.inj h
  obtain ⟨filled, named⟩ := ofEnvironment_eq_ok given
  rcases get_assignAll empty with nothing | ⟨empty, unnamed⟩
  · exact absurd rfl (filled _ nothing)
  · rcases get_assignAll empty with nothing | ⟨empty, -⟩
    · refine .inr ⟨named t unnamed, ?_⟩
      cases source with
      | none =>
          obtain rfl := Except.ok.inj read
          cases nothing
      | some f => exact ⟨f.1, f.2, rfl, leavesEmpty_of_ofFile read nothing⟩
    · exact .inl (get_default empty)

end Load

end Settings

/-! ## The settings of a run -/

namespace Surroundings

open Settings

variable {m : Machine} {p : Path}

/-- Why there is no content of a file of settings. -/
inductive Unopened (m : Machine) (p : Path) : Failure → Prop where
  | absent : m.tree.isThere m.here p = .ok false → Unopened m p (.settings (.missing p))
  | unasked {fault : FileFault} : m.tree.isThere m.here p = .error fault →
      Unopened m p (.file ⟨fault, p.text⟩)
  | unread {fault : FileFault} : m.tree.isThere m.here p = .ok true → m.tree.read m.here p = .error fault →
      Unopened m p (.file ⟨fault, p.text⟩)

/-- A file of settings that is there and has a text. -/
def Opened (m : Machine) (p : Path) (text : String) : Prop :=
  m.tree.isThere m.here p = .ok true ∧ m.tree.read m.here p = .ok text

theorem unopened_or_opened (m : Machine) (p : Path) :
    (∃ f, Unopened m p f) ∨ ∃ text, Opened m p text := by
  cases asked : m.tree.isThere m.here p with
  | error fault => exact .inl ⟨_, .unasked asked⟩
  | ok there =>
      cases there with
      | false => exact .inl ⟨_, .absent asked⟩
      | true =>
          cases read : m.tree.read m.here p with
          | error fault => exact .inl ⟨_, .unread asked read⟩
          | ok text => exact .inr ⟨text, asked, read⟩

theorem Unopened.fails {f : Failure} (h : Unopened m p f) : Fails (fileContent p) m f m := by
  unfold fileContent
  cases h with
  | absent absent =>
      refine fails_bind.mpr (.inr ⟨false, m, ends_askTree_of absent, ?_⟩)
      exact fails_bind.mpr (.inl (fails_throw.mpr ⟨rfl, rfl⟩))
  | unasked failed => exact fails_bind.mpr (.inl (fails_askTree_of failed))
  | unread there failed =>
      have read : Fails (askTree p.text fun t here => t.read here p) m _ m := fails_askTree_of failed
      exact fails_bind.mpr (.inr ⟨true, m, ends_askTree_of there, read⟩)

theorem Opened.ends {text : String} (h : Opened m p text) : Ends (fileContent p) m text m := by
  have read : Ends (askTree p.text fun t here => t.read here p) m text m := ends_askTree_of h.2
  exact ends_bind.mpr ⟨true, m, ends_askTree_of h.1, read⟩

theorem ends_fileContent {text : String} {n : Machine} :
    Ends (fileContent p) m text n ↔ Opened m p text ∧ n = m := by
  constructor
  · intro ended
    rcases unopened_or_opened m p with ⟨f, unopened⟩ | ⟨other, opened⟩
    · cases (Gives.unique (gives_ok.mpr ended) (gives_error.mpr unopened.fails)).1
    · obtain ⟨rfl, rfl⟩ := ended.unique opened.ends
      exact ⟨opened, rfl⟩
  · rintro ⟨opened, rfl⟩
    exact opened.ends

theorem fails_fileContent {f : Failure} {n : Machine} :
    Fails (fileContent p) m f n ↔ Unopened m p f ∧ n = m := by
  constructor
  · intro failed
    rcases unopened_or_opened m p with ⟨g, unopened⟩ | ⟨text, opened⟩
    · obtain ⟨same, rfl⟩ := Gives.unique (gives_error.mpr failed) (gives_error.mpr unopened.fails)
      obtain rfl := Except.error.inj same
      exact ⟨unopened, rfl⟩
    · cases (Gives.unique (gives_error.mpr failed) (gives_ok.mpr opened.ends)).1
  · rintro ⟨unopened, rfl⟩
    exact unopened.fails

/-! ### The settings of a run -/

/-- How a file of settings fails a run, if that is not told as a fault of the settings. -/
inductive Refuses (m : Machine) (p : Path) : Failure → Prop where
  | unopened {f : Failure} : Unopened m p f → Refuses m p f
  | stray {text : String} {e : ReadError} : Opened m p text → Strays m.here p text e →
      Refuses m p (.settings e)

theorem Refuses.kind_ne {f : Failure} (h : Refuses m p f) : f.kind ≠ "ConfigError" := by
  cases h with
  | unopened unopened =>
      cases unopened with
      | absent => simp [Failure.kind, ReadError.kind]
      | unasked | unread => exact FileFault.kind_ne _
  | stray _ strays => exact ReadError.kind_ne strays.not_fault

section

variable {s : Surroundings} {source : Option (Path × String)} {n : Machine}

/-- The settings of what was found in a file, if there is one. -/
def finish (s : Surroundings) (source : Option (Path × String)) : Action Settings := do
  let m ← get
  Machine.lift .settings (Settings.load s.installed m.here source s.environment)

theorem settings_none (s : Surroundings) : s.settings none = s.finish none := rfl

theorem settings_some (s : Surroundings) (p : Path) :
    s.settings (some p) = fileContent p >>= fun text => s.finish (some (p, text)) := by
  simp only [settings, finish, pure_bind]

theorem ends_finish {given : Settings} : Ends (s.finish source) m given n ↔
    Settings.load s.installed m.here source s.environment = .ok given ∧ n = m := by
  simp only [finish, ends_bind, ends_get, ends_lift]
  constructor
  · rintro ⟨_, _, ⟨rfl, rfl⟩, done⟩
    exact done
  · intro done
    exact ⟨m, m, ⟨rfl, rfl⟩, done⟩

theorem fails_finish {f : Failure} : Fails (s.finish source) m f n ↔
    ∃ e, Settings.load s.installed m.here source s.environment = .error e ∧ f = .settings e ∧ n = m := by
  simp only [finish, fails_bind, not_fails_get, ends_get, fails_lift, false_or]
  constructor
  · rintro ⟨_, _, ⟨rfl, rfl⟩, done⟩
    exact done
  · intro done
    exact ⟨m, m, ⟨rfl, rfl⟩, done⟩

theorem keeps_finish : Keeps Eq (s.finish source) :=
  keeps_iff.mpr ⟨fun _ _ _ ended => (ends_finish.mp ended).2.symm, fun _ _ _ failed => by
    obtain ⟨_, -, -, same⟩ := fails_finish.mp failed
    exact same.symm⟩

/-- Reading the settings changes nothing. -/
theorem keeps_settings (s : Surroundings) (file : Option Path) : Keeps Eq (s.settings file) := by
  cases file with
  | none =>
      rw [settings_none]
      exact keeps_finish
  | some p =>
      rw [settings_some]
      have read : Keeps Eq (fileContent p) := by
        refine keeps_iff.mpr ⟨fun _ _ _ ended => ?_, fun _ _ _ failed => ?_⟩
        · exact (ends_fileContent.mp ended).2.symm
        · exact (fails_fileContent.mp failed).2.symm
      exact keeps_bind read fun _ => keeps_finish

theorem get_settings {file : Option Path} {given : Settings} {t : Setting}
    (h : Ends (s.settings file) m given n) (empty : given.get t = none) : t ∈ optional ∨
      IsUnset s.environment t ∧ ∃ p text, file = some p ∧ Opened m p text ∧ LeavesEmpty text t := by
  cases file with
  | none =>
      rw [settings_none] at h
      refine (get_load (ends_finish.mp h).1 empty).imp id ?_
      rintro ⟨-, _, _, ⟨⟩, -⟩
  | some p =>
      rw [settings_some] at h
      obtain ⟨text, k, read, done⟩ := ends_bind.mp h
      obtain ⟨opened, rfl⟩ := ends_fileContent.mp read
      refine (get_load (ends_finish.mp done).1 empty).imp id ?_
      rintro ⟨unset, _, _, ⟨⟩, leaves⟩
      exact ⟨unset, p, text, rfl, opened, leaves⟩

theorem fails_settings {file : Option Path} {f : Failure} (h : Fails (s.settings file) m f n) :
    f.kind = "ConfigError" ∨ ∃ p, file = some p ∧ Refuses m p f := by
  -- What is read after a file was opened, or without one.
  have finished {source : Option (Path × String)} {k : Machine}
      (failed : Fails (s.finish source) k f n) : f.kind = "ConfigError" ∨
        ∃ p text e, source = some (p, text) ∧ Strays k.here p text e ∧ f = .settings e := by
    obtain ⟨e, unread, rfl, -⟩ := fails_finish.mp failed
    by_cases told : ∃ fault, e = .fault fault
    · obtain ⟨fault, rfl⟩ := told
      exact .inl rfl
    · obtain ⟨p, text, found, strays⟩ := (load_eq_error fun fault same => told ⟨fault, same⟩).mp unread
      exact .inr ⟨p, text, e, found, strays, rfl⟩
  cases file with
  | none =>
      rw [settings_none] at h
      refine (finished h).imp id ?_
      rintro ⟨_, _, _, ⟨⟩, -⟩
  | some p =>
      rw [settings_some] at h
      rcases fails_bind.mp h with unread | ⟨text, k, read, failed⟩
      · exact .inr ⟨p, rfl, .unopened (fails_fileContent.mp unread).1⟩
      · obtain ⟨opened, rfl⟩ := ends_fileContent.mp read
        refine (finished failed).imp id ?_
        rintro ⟨_, _, _, ⟨⟩, strays, rfl⟩
        exact ⟨p, rfl, .stray opened strays⟩

theorem Refuses.fails {f : Failure} (h : Refuses m p f) (s : Surroundings) :
    Fails (s.settings (some p)) m f m := by
  rw [settings_some]
  cases h with
  | unopened unopened => exact fails_bind.mpr (.inl unopened.fails)
  | stray opened strays =>
      have failed : Settings.load s.installed m.here _ s.environment = .error _ :=
        (load_eq_error strays.not_fault).mpr ⟨_, _, rfl, strays⟩
      exact fails_bind.mpr (.inr ⟨_, m, opened.ends, fails_finish.mpr ⟨_, failed, rfl, rfl⟩⟩)

end

/-- A run without anything installed or set, and with a text as its file of settings. -/
def bare : Surroundings := ⟨⟨none, "ffmpeg", fun _ => false⟩, fun _ => none⟩

def stating (text : String) : Machine where
  tree := ⟨[(["s.yaml"], text)], []⟩

end Surroundings
end Splice
