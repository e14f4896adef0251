import Splice.Proofs.Action
import Splice.Proofs.FileTree

/-! # What actions leave alone

`Frame paths m n` says that a machine comes from another one by changes of files at the places of some
paths, and of the files of the log; new directories may be made. `Quiet` adds that the engine was not
run. Both are preorders, so that an action keeps them if its steps do.
-/

namespace Splice.Machine

open Splice.Action

variable {m n k : Machine} {paths : List Path}

/-- Files change only where one of the paths leads in the end, or where the log is written; no
directory is lost, and the stores stay. -/
structure Frame (paths : List Path) (m n : Machine) : Prop where
  here : n.here = m.here
  outlet : n.outlet = m.outlet
  stores : n.stores = m.stores
  directories : ∀ l, m.tree.isDirectory l = true → n.tree.isDirectory l = true
  sound : m.tree.Sound → n.tree.Sound
  content : ∀ l, l ∉ m.outlet.files → (∀ p ∈ paths, n.tree.place n.here p ≠ .ok l) →
    n.tree.content? l = m.tree.content? l

namespace Frame

theorem refl (m : Machine) : Frame paths m m :=
  ⟨rfl, rfl, rfl, fun _ => id, id, fun _ _ _ => rfl⟩

/-- A path that leads to a place goes on leading there. -/
theorem place (h : Frame paths m n) {p : Path} {l : Location}
    (placed : m.tree.place m.here p = .ok l) : n.tree.place n.here p = .ok l := by
  rw [h.here]
  exact FileTree.place_mono h.directories placed

theorem trans (h : Frame paths m k) (h' : Frame paths k n) : Frame paths m n where
  here := h'.here.trans h.here
  outlet := h'.outlet.trans h.outlet
  stores := h'.stores.trans h.stores
  directories l known := h'.directories l (h.directories l known)
  sound known := h'.sound (h.sound known)
  content l silent free := by
    rw [h'.content l (h.outlet ▸ silent) free]
    exact h.content l silent fun p hp placed => free p hp (h'.place placed)

theorem mono (h : Frame paths m n) {more : List Path} (sub : paths ⊆ more) : Frame more m n where
  here := h.here
  outlet := h.outlet
  stores := h.stores
  directories := h.directories
  sound := h.sound
  content l silent free := h.content l silent fun p hp => free p (sub hp)

end Frame

instance : IsPreorder Machine (Frame paths) where
  refl := Frame.refl
  trans _ _ _ := Frame.trans

/-- The frame of an action that does not run the engine. -/
structure Quiet (paths : List Path) (m n : Machine) : Prop extends Frame paths m n where
  runs : n.runs = m.runs

namespace Quiet

theorem refl (m : Machine) : Quiet paths m m := ⟨.refl m, rfl⟩

theorem trans (h : Quiet paths m k) (h' : Quiet paths k n) : Quiet paths m n :=
  ⟨h.toFrame.trans h'.toFrame, h'.runs.trans h.runs⟩

theorem mono (h : Quiet paths m n) {more : List Path} (sub : paths ⊆ more) : Quiet more m n :=
  ⟨h.toFrame.mono sub, h.runs⟩

end Quiet

instance : IsPreorder Machine (Quiet paths) where
  refl := Quiet.refl
  trans _ _ _ := Quiet.trans

/-- A machine that differs in nothing that a frame speaks of. -/
theorem quiet_of_tree (tree : n.tree = m.tree) (here : n.here = m.here) (outlet : n.outlet = m.outlet)
    (stores : n.stores = m.stores) (runs : n.runs = m.runs) : Quiet paths m n where
  here := here
  outlet := outlet
  stores := stores
  directories l known := by rwa [tree]
  sound known := by rwa [tree]
  content l _ _ := by rw [tree]
  runs := runs

theorem quiet_of_grows {tree : FileTree} (h : m.tree.Grows tree) : Quiet paths m { m with tree } where
  here := rfl
  outlet := rfl
  stores := rfl
  directories := h.directories
  sound := h.sound
  content l _ _ := h.content l
  runs := rfl

/-- A file is written at the place of a path. -/
theorem quiet_of_put {p : Path} {l : Location} (placed : m.tree.place m.here p = .ok l)
    (free : m.tree.isDirectory l = false) (content : String) :
    Quiet [p] m { m with tree := m.tree.put l content } where
  here := rfl
  outlet := rfl
  stores := rfl
  directories _ := id
  sound known := known.put free content
  content k _ elsewhere := by
    rw [FileTree.content?_put, if_neg]
    rintro rfl
    exact elsewhere p (List.mem_singleton.mpr rfl)
      ((FileTree.place_congr fun l => m.tree.isDirectory_put k l content).mpr placed)
  runs := rfl

/-- The file at the place of a path is removed. -/
theorem quiet_of_erase {p : Path} {l : Location} (placed : m.tree.place m.here p = .ok l) :
    Quiet [p] m { m with tree := m.tree.erase l } where
  here := rfl
  outlet := rfl
  stores := rfl
  directories _ := id
  sound known := known.erase l
  content k _ elsewhere := by
    rw [FileTree.content?_erase, if_neg]
    rintro rfl
    exact elsewhere p (List.mem_singleton.mpr rfl)
      ((FileTree.place_congr (m.tree.isDirectory_erase k)).mpr placed)
  runs := rfl

/-! ## The log -/

section Log

variable {R : Machine → Machine → Prop} [IsPreorder Machine R]

@[simp] theorem appendRecord_outlet (r : Log.Record) (m : Machine) (l : Location) :
    (appendRecord r m l).outlet = m.outlet := by
  unfold appendRecord
  split
  · rfl
  · split <;> rfl

/-- A preorder that printing and writing to a file of the log respect is kept by the log. -/
theorem keeps_log_of (taken : ∀ m records, R m { m with records })
    (shown : ∀ m printed, R m { m with printed })
    (written : ∀ m r l, l ∈ m.outlet.files → R m (appendRecord r m l)) (source : Log.Source)
    (level : Log.Level) (message : String) : Keeps R (log source level message) := by
  have all : ∀ (r : Log.Record) (files : List Location) (m : Machine),
      (∀ l ∈ files, l ∈ m.outlet.files) → R m (files.foldl (appendRecord r) m) := by
    intro r files
    induction files with
    | nil => exact fun m _ => refl_of R m
    | cons l rest ih =>
        intro m known
        have later : R (appendRecord r m l) (rest.foldl (appendRecord r) (appendRecord r m l)) := by
          refine ih (appendRecord r m l) fun k hk => ?_
          rw [appendRecord_outlet]
          exact known k (List.mem_cons_of_mem l hk)
        rw [List.foldl_cons]
        exact trans_of R (written m r l (known l List.mem_cons_self)) later
  have emitted : ∀ (m : Machine) (r : Log.Record), R m (m.emit r) := by
    intro m r
    unfold emit
    refine trans_of R (taken m (m.records ++ [(r.weight, r.message)])) ?_
    generalize { m with records := m.records ++ [(r.weight, r.message)] } = k
    have printed : R k (if k.outlet.console then
        { k with printed := k.printed ++ r.consoleText ++ "\n" } else k) := by
      split
      · exact shown k _
      · exact refl_of R k
    refine trans_of R printed (all r _ _ fun l hl => ?_)
    unfold Log.Outlet.filesFor at hl
    split at hl
    · exact hl
    · simp at hl
  apply keeps_modify
  intro m
  split
  · exact emitted m _
  · exact refl_of R m

end Log

theorem keeps_log (source : Log.Source) (level : Log.Level) (message : String) :
    Keeps (Quiet paths) (log source level message) := by
  refine keeps_log_of (fun m _ => quiet_of_tree rfl rfl rfl rfl rfl)
    (fun m _ => quiet_of_tree rfl rfl rfl rfl rfl) (fun m r l known => ?_) source level message
  unfold appendRecord
  split
  · exact .refl m
  · split
    · rename_i content held
      refine ⟨⟨rfl, rfl, rfl, fun _ => id, fun sound => ?_, fun k silent _ => ?_⟩, rfl⟩
      · refine sound.put ?_ _
        cases directory : m.tree.isDirectory l with
        | false => rfl
        | true => simp [sound l directory] at held
      · rw [FileTree.content?_put, if_neg]
        rintro rfl
        exact silent known
    · exact .refl m

/-- No file appears where there was none, and the directories are the same. -/
structure Shrinks (m n : Machine) : Prop where
  here : n.here = m.here
  directories : ∀ l, n.tree.isDirectory l = m.tree.isDirectory l
  absent : ∀ l, m.tree.content? l = none → n.tree.content? l = none

instance : IsPreorder Machine Shrinks where
  refl _ := ⟨rfl, fun _ => rfl, fun _ => id⟩
  trans _ _ _ first second :=
    ⟨second.here.trans first.here, fun l => (second.directories l).trans (first.directories l),
      fun l none => second.absent l (first.absent l none)⟩

/-- Records are only added to files that are there. -/
theorem keeps_log_shrinks (source : Log.Source) (level : Log.Level) (message : String) :
    Keeps Shrinks (log source level message) := by
  refine keeps_log_of (fun m _ => ⟨rfl, fun _ => rfl, fun _ => id⟩)
    (fun m _ => ⟨rfl, fun _ => rfl, fun _ => id⟩) (fun m r l _ => ?_) source level message
  unfold appendRecord
  split
  · exact refl_of Shrinks m
  · split
    · rename_i content held
      refine ⟨rfl, fun _ => rfl, fun k none => ?_⟩
      rw [FileTree.content?_put, if_neg, none]
      rintro rfl
      simp [held] at none
    · exact refl_of Shrinks m

/-- A path leads to no file: nowhere, or to a place without one. -/
def Free (m : Machine) (p : Path) : Prop :=
  ∀ l, m.tree.place m.here p = .ok l → m.tree.content? l = none

theorem Free.apart {p : Path} {l : Location} {content : String} (h : Free m p)
    (held : m.tree.content? l = some content) : m.tree.place m.here p ≠ .ok l := by
  intro placed
  rw [h l placed] at held
  cases held

theorem Free.shrinks {p : Path} (h : Free m p) (less : Shrinks m n) : Free n p := by
  intro l placed
  rw [less.here] at placed
  exact less.absent l (h l ((FileTree.place_congr less.directories).mp placed))

theorem exists_ends_log (source : Log.Source) (level : Log.Level) (message : String) (m : Machine) :
    ∃ n, Ends (log source level message) m () n ∧ Quiet paths m n := by
  have ended : Ends (log source level message) m () _ := ends_modify.mpr rfl
  exact ⟨_, ended, (keeps_log source level message).ends ended⟩

/-! ## Operations on files -/

section Files

variable {path : String} {f : FileTree → Location → Except FileFault FileTree}

theorem ends_onTree {u : Unit} (h : Ends (onTree path f) m u n) :
    ∃ tree, f m.tree m.here = .ok tree ∧ n = { m with tree } := by
  simp only [onTree, ends_bind, ends_get] at h
  obtain ⟨_, _, ⟨rfl, rfl⟩, h⟩ := h
  split at h
  · exact ⟨_, ‹_›, ends_set.mp h⟩
  · exact absurd h not_ends_throw

theorem fails_onTree {e : Failure} (h : Fails (onTree path f) m e n) :
    n = m ∧ ∃ fault, e = .file ⟨fault, path⟩ := by
  simp only [onTree, fails_bind, not_fails_get, ends_get, false_or] at h
  obtain ⟨_, _, ⟨rfl, rfl⟩, h⟩ := h
  split at h
  · exact absurd h not_fails_set
  · obtain ⟨rfl, rfl⟩ := fails_throw.mp h
    exact ⟨rfl, _, rfl⟩

variable {α : Type} {g : FileTree → Location → Except FileFault α}

theorem ends_askTree {a : α} (h : Ends (askTree path g) m a n) :
    g m.tree m.here = .ok a ∧ n = m := by
  simp only [askTree, ends_bind, ends_get] at h
  obtain ⟨_, _, ⟨rfl, rfl⟩, h⟩ := h
  split at h
  · obtain ⟨rfl, rfl⟩ := ends_pure.mp h
    exact ⟨‹_›, rfl⟩
  · exact absurd h not_ends_throw

theorem fails_askTree {e : Failure} (h : Fails (askTree path g) m e n) :
    n = m ∧ ∃ fault, g m.tree m.here = .error fault ∧ e = .file ⟨fault, path⟩ := by
  simp only [askTree, fails_bind, not_fails_get, ends_get, false_or] at h
  obtain ⟨_, _, ⟨rfl, rfl⟩, h⟩ := h
  split at h
  · exact absurd h not_fails_pure
  · obtain ⟨rfl, rfl⟩ := fails_throw.mp h
    exact ⟨rfl, _, ‹_›, rfl⟩

theorem ends_askTree_of {a : α} (h : g m.tree m.here = .ok a) : Ends (askTree path g) m a m := by
  simp only [askTree, ends_bind, ends_get]
  exact ⟨m, m, ⟨rfl, rfl⟩, by rw [h, ends_pure]; exact ⟨rfl, rfl⟩⟩

theorem fails_askTree_of {fault : FileFault} (h : g m.tree m.here = .error fault) :
    Fails (askTree path g) m (.file ⟨fault, path⟩) m := by
  simp only [askTree, fails_bind, not_fails_get, ends_get, false_or]
  exact ⟨m, m, ⟨rfl, rfl⟩, by rw [h, fails_throw]; exact ⟨rfl, rfl⟩⟩

theorem keeps_askTree : Keeps (Quiet paths) (askTree path g) :=
  keeps_iff.mpr ⟨fun m _ n h => by rw [(ends_askTree h).2]; exact .refl m,
    fun m _ n h => by rw [(fails_askTree h).1]; exact .refl m⟩

theorem ends_write {p : Path} {content : String} {u : Unit}
    (h : Ends (onTree path fun t here => t.write here p content) m u n) :
    ∃ l, m.tree.place m.here p = .ok l ∧ m.tree.isDirectory l = false ∧
      n = { m with tree := m.tree.put l content } := by
  obtain ⟨tree, written, rfl⟩ := ends_onTree h
  obtain ⟨l, placed, free, rfl⟩ := FileTree.write_eq_ok written
  exact ⟨l, placed, free, rfl⟩

theorem keeps_write (p : Path) (content : String) :
    Keeps (Quiet [p]) (onTree path fun t here => t.write here p content) := by
  refine keeps_iff.mpr ⟨fun m _ n h => ?_, fun m _ n h => ?_⟩
  · obtain ⟨l, placed, free, rfl⟩ := ends_write h
    exact quiet_of_put placed free content
  · rw [(fails_onTree h).1]
    exact .refl m

theorem fails_makeDirectories {p : Path} {e : Failure} (h : Fails (makeDirectories p) m e n) :
    n = m ∧ ∃ fault, e = .file fault := by
  simp only [makeDirectories, fails_bind, not_fails_get, ends_get, false_or] at h
  obtain ⟨_, _, ⟨rfl, rfl⟩, h⟩ := h
  split at h
  · exact absurd h not_fails_set
  · obtain ⟨rfl, rfl⟩ := fails_throw.mp h
    exact ⟨rfl, _, rfl⟩

theorem ends_makeDirectories {p : Path} {u : Unit} (h : Ends (makeDirectories p) m u n) :
    ∃ tree, m.tree.Grows tree ∧ n = { m with tree } := by
  simp only [makeDirectories, ends_bind, ends_get] at h
  obtain ⟨_, _, ⟨rfl, rfl⟩, h⟩ := h
  split at h
  · exact ⟨_, FileTree.makeDirectories_grows ‹_›, ends_set.mp h⟩
  · exact absurd h not_ends_throw

theorem keeps_makeDirectories (p : Path) : Keeps (Quiet paths) (makeDirectories p) := by
  refine keeps_iff.mpr ⟨fun m _ n h => ?_, fun m _ n h => ?_⟩
  · obtain ⟨tree, grows, rfl⟩ := ends_makeDirectories h
    exact quiet_of_grows grows
  · rw [(fails_makeDirectories h).1]
    exact .refl m

end Files

end Splice.Machine
