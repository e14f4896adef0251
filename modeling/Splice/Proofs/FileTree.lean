import Splice.FileTree
import Splice.Proofs.Outcome

/-! # What operations do to a tree of files

A path leads to one place if it can be followed, and goes on leading there while directories are added.
A file is written or removed at the place of its path and nowhere else, and no place ever holds both a
file and a directory.
-/

namespace Splice

theorem lookup_filter_ne {β : Type} (xs : List (Location × β)) (k l : Location) :
    (xs.filter (·.1 != l)).lookup k = if k = l then none else xs.lookup k := by
  induction xs with
  | nil => simp
  | cons x rest ih =>
      obtain ⟨j, b⟩ := x
      by_cases gone : j = l
      · subst gone
        rw [List.filter_cons_of_neg (by simp), ih, List.lookup_cons]
        by_cases same : k = j
        · simp [same]
        · simp [same, beq_false_of_ne same]
      · rw [List.filter_cons_of_pos (by simpa using gone), List.lookup_cons, List.lookup_cons, ih]
        by_cases same : k = j
        · subst same
          simp [gone]
        · simp [beq_false_of_ne same]

namespace FileTree

variable {t u : FileTree} {here l k : Location} {p : Path}

@[simp] theorem content?_put (t : FileTree) (l k : Location) (content : String) :
    (t.put l content).content? k = if k = l then some content else t.content? k := by
  by_cases same : k = l
  · simp [content?, put, same]
  · simp [content?, put, List.lookup_cons, beq_false_of_ne same, lookup_filter_ne, same]

@[simp] theorem content?_erase (t : FileTree) (l k : Location) :
    (t.erase l).content? k = if k = l then none else t.content? k := by
  simp [content?, erase, lookup_filter_ne]

@[simp] theorem isDirectory_put (t : FileTree) (l k : Location) (content : String) :
    (t.put l content).isDirectory k = t.isDirectory k := rfl

@[simp] theorem isDirectory_erase (t : FileTree) (l k : Location) :
    (t.erase l).isDirectory k = t.isDirectory k := rfl

/-- No place holds both a directory and a file. -/
def Sound (t : FileTree) : Prop := ∀ l, t.isDirectory l = true → t.content? l = none

theorem Sound.put (h : t.Sound) (free : t.isDirectory l = false) (content : String) :
    (t.put l content).Sound := by
  intro k directory
  rw [isDirectory_put] at directory
  rw [content?_put, if_neg, h k directory]
  rintro rfl
  simp [free] at directory

theorem Sound.erase (h : t.Sound) (l : Location) : (t.erase l).Sound := by
  intro k directory
  rw [content?_erase, h k directory, ite_self]

/-! ## Following paths -/

theorem enter_eq_ok {part : String} (h : t.enter l part = .ok k) : k = Path.step l part := by
  simp only [enter] at h
  split at h
  · simp_all [Path.step]
  · split at h
    · simp at h
    · split at h
      · simp_all [Path.step]
      · split at h <;> simp at h

theorem enter_mono (more : ∀ l, t.isDirectory l = true → u.isDirectory l = true) {part : String}
    (h : t.enter l part = .ok k) : u.enter l part = .ok k := by
  simp only [enter] at h ⊢
  split at h
  · simp_all
  · split at h
    · simp at h
    · split at h
      · simp_all
      · split at h <;> simp at h

theorem foldlM_enter_eq_ok {parts : List String} (h : parts.foldlM t.enter l = .ok k) :
    k = parts.foldl Path.step l := by
  induction parts generalizing l with
  | nil => simpa [eq_comm] using h
  | cons part rest ih =>
      rw [List.foldlM_cons] at h
      obtain ⟨j, entered, h⟩ := Outcome.bind_eq_ok.mp h
      rw [List.foldl_cons, ← enter_eq_ok entered]
      exact ih h

theorem foldlM_enter_mono (more : ∀ l, t.isDirectory l = true → u.isDirectory l = true)
    {parts : List String} (h : parts.foldlM t.enter l = .ok k) : parts.foldlM u.enter l = .ok k := by
  induction parts generalizing l with
  | nil => exact h
  | cons part rest ih =>
      rw [List.foldlM_cons] at h ⊢
      obtain ⟨j, entered, h⟩ := Outcome.bind_eq_ok.mp h
      rw [enter_mono more entered]
      exact ih h

/-- A path that can be followed has bytes and is not too long; it leads where its steps do. -/
theorem place_eq_ok (h : t.place here p = .ok l) :
    FileFault.ofPath? p = none ∧ l = p.locate here := by
  simp only [place] at h
  split at h
  · simp at h
  · rename_i clean
    have clean : FileFault.ofPath? p = none := by
      cases fault : FileFault.ofPath? p with
      | none => rfl
      | some f => exact absurd fault (by simpa using clean f)
    refine ⟨clean, ?_⟩
    split at h
    · simp at h
    · obtain ⟨j, entered, h⟩ := Outcome.bind_eq_ok.mp h
      have above := foldlM_enter_eq_ok entered
      have whole : p.locate here = p.parts.getLast?.elim j (Path.step j) := by
        rw [above, Path.locate]
        cases last : p.parts.getLast? with
        | none => simp [List.getLast?_eq_none_iff.mp last]
        | some part =>
            obtain ⟨front, parts⟩ := List.getLast?_eq_some_iff.mp last
            simp [parts]
      rw [whole]
      cases last : p.parts.getLast? with
      | none => simpa [last, eq_comm] using h
      | some part =>
          simp only [last] at h
          split at h
          · simp_all [Path.step]
          · split at h
            · simp at h
            · simp_all [Path.step]

theorem place_mono (more : ∀ l, t.isDirectory l = true → u.isDirectory l = true)
    (h : t.place here p = .ok l) : u.place here p = .ok l := by
  simp only [place] at h ⊢
  split at h
  · simp at h
  · split at h
    · simp at h
    · rename_i short
      obtain ⟨j, entered, h⟩ := Outcome.bind_eq_ok.mp h
      rw [if_neg short, foldlM_enter_mono more entered]
      exact h

theorem place_congr (same : ∀ l, u.isDirectory l = t.isDirectory l) :
    u.place here p = .ok l ↔ t.place here p = .ok l :=
  ⟨place_mono fun l known => same l ▸ known, place_mono fun l known => (same l).symm ▸ known⟩

/-- Only a path that has no bytes, or the null character, is at fault by itself. -/
theorem ofPath?_of_place {f : FileFault} (h : t.place here p = .error f) (own : f.system? = none) :
    FileFault.ofPath? p = some f := by
  have entered : ∀ (parts : List String) (l : Location) (e : FileFault),
      parts.foldlM t.enter l = .error e → e.system?.isSome := by
    intro parts
    induction parts with
    | nil => intro l e h; simp at h
    | cons part rest ih =>
        intro l e h
        rw [List.foldlM_cons] at h
        rcases Outcome.bind_eq_error.mp h with h | ⟨k, -, h⟩
        · simp only [enter] at h
          split at h
          · simp at h
          · split at h
            · obtain rfl := Except.error.inj h
              rfl
            · split at h
              · simp at h
              · split at h <;> obtain rfl := Except.error.inj h <;> rfl
        · exact ih k e h
  simp only [place] at h
  split at h
  · obtain rfl := Except.error.inj h
    assumption
  · split at h
    · obtain rfl := Except.error.inj h
      simp [FileFault.system?] at own
    · rcases Outcome.bind_eq_error.mp h with h | ⟨k, -, h⟩
      · simpa [own] using entered _ _ _ h
      · split at h
        · simp at h
        · split at h
          · simp at h
          · split at h
            · obtain rfl := Except.error.inj h
              simp [FileFault.system?] at own
            · simp at h

/-- A path holds no file if it cannot be followed, or nothing is at its place. -/
theorem isFile_ne_true (h : ∀ l, t.place here p = .ok l → t.content? l = none) :
    t.isFile here p ≠ .ok true := by
  simp only [isFile, probe]
  cases placed : t.place here p with
  | ok l => simp [h l placed]
  | error f => cases f <;> simp

theorem place_of_isThere (h : t.isThere here p = .ok true) : ∃ l, t.place here p = .ok l := by
  simp only [isThere, probe] at h
  cases placed : t.place here p with
  | ok l => exact ⟨l, rfl⟩
  | error f => cases f <;> simp [placed] at h

/-! ## Reading, writing and removing -/

theorem read_eq_ok {content : String} (h : t.read here p = .ok content) :
    ∃ l, t.place here p = .ok l ∧ t.content? l = some content := by
  simp only [read] at h
  obtain ⟨l, placed, h⟩ := Outcome.bind_eq_ok.mp h
  refine ⟨l, placed, ?_⟩
  split at h
  · simp at h
  · cases held : t.content? l with
    | none => simp [held] at h
    | some c => simpa [held] using h

theorem readAt_eq_ok {s content : String} (h : t.readAt here s = .ok content) :
    t.read here (Path.ofText s) = .ok content := by
  simp only [readAt] at h
  split at h
  · simp at h
  · cases found : t.read here (Path.ofText s) with
    | error f => simp [found] at h
    | ok c =>
        simp only [found] at h
        split at h
        · simp at h
        · simpa using h

theorem write_eq_ok {content : String} (h : t.write here p content = .ok u) :
    ∃ l, t.place here p = .ok l ∧ t.isDirectory l = false ∧ u = t.put l content := by
  obtain ⟨l, targeted, rfl⟩ := Outcome.map_eq_ok.mp h
  simp only [target] at targeted
  obtain ⟨k, placed, targeted⟩ := Outcome.bind_eq_ok.mp targeted
  split at targeted
  · simp at targeted
  · obtain rfl : k = l := by simpa using targeted
    exact ⟨k, placed, by simpa using ‹¬ t.isDirectory k = true›, rfl⟩

theorem remove_eq_ok (h : t.remove here p = .ok u) :
    ∃ l, t.place here p = .ok l ∧ u = t.erase l := by
  simp only [remove] at h
  obtain ⟨l, placed, h⟩ := Outcome.bind_eq_ok.mp h
  refine ⟨l, placed, ?_⟩
  split at h
  · simp at h
  · split at h
    · simp at h
    · simpa [eq_comm] using h

theorem ofPath?_of_remove {f : FileFault} (h : t.remove here p = .error f) (own : f.system? = none) :
    FileFault.ofPath? p = some f := by
  simp only [remove] at h
  rcases Outcome.bind_eq_error.mp h with h | ⟨l, -, h⟩
  · exact ofPath?_of_place h own
  · split at h
    · obtain rfl := Except.error.inj h
      simp [FileFault.system?] at own
    · split at h
      · obtain rfl := Except.error.inj h
        simp [FileFault.system?] at own
      · simp at h

/-- A file that cannot be removed is not there: its path leads nowhere, or to no file. -/
theorem remove_eq_error (sound : t.Sound) {f : FileFault} (h : t.remove here p = .error f)
    (placed : t.place here p = .ok l) : t.content? l = none := by
  simp only [remove, placed, Outcome.ok_bind] at h
  split at h
  · exact sound l ‹_›
  · split at h
    · simpa using ‹(t.content? l).isNone = true›
    · simp at h

theorem target_eq_ok (h : t.target here p = .ok l) :
    t.place here p = .ok l ∧ t.isDirectory l = false := by
  obtain ⟨k, placed, targeted⟩ := Outcome.bind_eq_ok.mp h
  split at targeted
  · cases targeted
  · obtain rfl : k = l := by simpa using targeted
    exact ⟨placed, eq_false_of_ne_true ‹_›⟩

theorem target_congr (same : ∀ l, u.isDirectory l = t.isDirectory l) (h : t.target here p = .ok l) :
    u.target here p = .ok l := by
  obtain ⟨placed, free⟩ := target_eq_ok h
  rw [target, (place_congr same).mpr placed, Outcome.ok_bind, same, free]
  rfl

/-! ## Making directories -/

/-- A tree has more directories than another, and the same files. -/
structure Grows (t u : FileTree) : Prop where
  directories : ∀ l, t.isDirectory l = true → u.isDirectory l = true
  content : ∀ l, u.content? l = t.content? l
  sound : t.Sound → u.Sound

theorem Grows.refl (t : FileTree) : t.Grows t := ⟨fun _ => id, fun _ => rfl, id⟩

theorem Grows.trans {v : FileTree} (h : t.Grows u) (h' : u.Grows v) : t.Grows v where
  directories l known := h'.directories l (h.directories l known)
  content l := (h'.content l).trans (h.content l)
  sound known := h'.sound (h.sound known)

theorem makeDirectory_grows (h : t.makeDirectory here p = .ok u) : t.Grows u := by
  simp only [makeDirectory] at h
  obtain ⟨l, -, h⟩ := Outcome.bind_eq_ok.mp h
  split at h
  · simp at h
  · rename_i free
    obtain ⟨-, empty⟩ : t.isDirectory l = false ∧ t.content? l = none := by simpa using free
    obtain rfl := Except.ok.inj h
    refine ⟨fun k known => ?_, fun _ => rfl, fun sound k known => ?_⟩
    · simp only [isDirectory, Bool.or_eq_true, List.contains_append] at known ⊢
      exact known.imp id .inl
    · by_cases same : k = l
      · exact same ▸ empty
      · apply sound k
        simpa [isDirectory, same] using known

theorem ensureDirectory_grows (h : t.ensureDirectory here p = .ok u) : t.Grows u := by
  simp only [ensureDirectory] at h
  split at h
  · obtain rfl := Except.ok.inj h
    exact makeDirectory_grows ‹_›
  · split at h
    · split at h
      · obtain rfl := Except.ok.inj h
        exact .refl t
      · simp at h
    · simp at h

theorem makeDirectoriesFrom_grows {root : PathRoot} {steps : List String}
    (h : t.makeDirectoriesFrom here root steps = .ok u) : t.Grows u := by
  induction steps generalizing u with
  | nil => exact ensureDirectory_grows h
  | cons part above ih =>
      simp only [makeDirectoriesFrom] at h
      split at h
      · split at h
        · exact (ih ‹_›).trans (ensureDirectory_grows h)
        · simp at h
      · exact ensureDirectory_grows h

theorem makeDirectories_grows (h : t.makeDirectories here p = .ok u) : t.Grows u :=
  makeDirectoriesFrom_grows h

end FileTree
end Splice
