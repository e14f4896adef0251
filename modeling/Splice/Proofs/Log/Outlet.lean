import Splice.Proofs.Frame
import Splice.Proofs.Path

/-! # Where a record is written

However often the log is set up, a record is shown once. In a file it stands once for every time that the
file was opened, and setting up the log changes nothing that a file holds.
-/

namespace Splice.Log

open Splice.Action

/-! ## Setting up -/

/-- One call that sets up the log. -/
structure SetUp where
  threshold : Option Int := none
  setting : Option String := none
  file : Option Path := none

namespace SetUp

def action (c : SetUp) : Action Unit := Machine.setUpLog c.threshold c.setting c.file

/-- The file that a call opens: the one that it names, unless the call fails. -/
def opened (c : SetUp) (m : Machine) : List Location :=
  if (c.action.run.run m).1.toOption.isSome then (c.file.map (Path.locate m.here)).toList else []

end SetUp

/-- The machine after calls, one after another. A call that fails does not keep the next one from being
made. -/
def setUpAll (m : Machine) (calls : List SetUp) : Machine := calls.foldl (fun m c => after c.action m) m

/-- The files that calls open, each as often as it is opened. -/
def opened (m : Machine) : List SetUp → List Location
  | [] => []
  | c :: rest => c.opened m ++ opened (after c.action m) rest

/-- Files were opened for the log: they are there, and hold what they held. Nothing was shown, and a console
that was set up still is. -/
structure Opens (more : List Location) (m n : Machine) : Prop where
  here : n.here = m.here
  printed : n.printed = m.printed
  console : m.outlet.console = true → n.outlet.console = true
  files : n.outlet.files = m.outlet.files ++ more
  content : ∀ l, n.tree.content? l =
    if l ∈ more then some ((m.tree.content? l).getD "") else m.tree.content? l

namespace Opens

variable {m k n : Machine}

/-- Nothing was opened, though directories may have been made. -/
theorem of_grows {outlet : Outlet} {tree : FileTree}
    (console : m.outlet.console = true → outlet.console = true) (files : outlet.files = m.outlet.files)
    (grows : m.tree.Grows tree) : Opens [] m { m with outlet, tree } where
  here := rfl
  printed := rfl
  console := console
  files := files.trans (List.append_nil _).symm
  content l := (grows.content l).trans (if_neg List.not_mem_nil).symm

theorem refl (m : Machine) : Opens [] m m := .of_grows id rfl (.refl _)

theorem trans {first later : List Location} (h : Opens first m k) (h' : Opens later k n) :
    Opens (first ++ later) m n where
  here := h'.here.trans h.here
  printed := h'.printed.trans h.printed
  console known := h'.console (h.console known)
  files := by rw [h'.files, h.files, List.append_assoc]
  content l := by
    rw [h'.content, h.content]
    by_cases early : l ∈ first
    · simp [early]
    · simp [early]

end Opens

section Calls

variable {c : SetUp} {m n : Machine}

/-- A call that fails may have made directories. -/
theorem fails_setUp {f : Failure} (h : Fails c.action m f n) : ∃ tree, m.tree.Grows tree ∧
    n = { m with outlet := m.outlet.setUp c.threshold c.setting, tree } := by
  simp only [SetUp.action, Machine.setUpLog, fails_bind, not_fails_modify, ends_modify, false_or] at h
  obtain ⟨_, _, rfl, h⟩ := h
  split at h
  · exact absurd h not_fails_pure
  · rename_i p named
    rcases fails_bind.mp h with h | ⟨_, k, made, h⟩
    · rw [(Machine.fails_makeDirectories h).1]
      exact ⟨_, .refl _, rfl⟩
    · obtain ⟨tree, grows, rfl⟩ := Machine.ends_makeDirectories made
      simp only [fails_bind, not_fails_get, ends_get, false_or] at h
      obtain ⟨_, _, ⟨rfl, rfl⟩, h⟩ := h
      split at h
      · obtain ⟨-, rfl⟩ := fails_throw.mp h
        exact ⟨tree, grows, rfl⟩
      · exact absurd h not_fails_set

/-- A call that ends has opened the file that it names. -/
theorem ends_setUp {u : Unit} (h : Ends c.action m u n) :
    c.file = none ∧ n = { m with outlet := m.outlet.setUp c.threshold c.setting } ∨
      ∃ p tree l, c.file = some p ∧ m.tree.Grows tree ∧
        tree.target m.here (Path.ofLocation (p.locate m.here)) = .ok l ∧
        n = { m with
          outlet := (m.outlet.setUp c.threshold c.setting).addFile l
          tree := tree.put l ((tree.content? l).getD "") } := by
  simp only [SetUp.action, Machine.setUpLog, ends_bind, ends_modify] at h
  obtain ⟨_, _, rfl, h⟩ := h
  split at h
  · rename_i none
    exact .inl ⟨none, (ends_pure.mp h).2⟩
  · rename_i p named
    obtain ⟨_, _, made, h⟩ := ends_bind.mp h
    obtain ⟨tree, grows, rfl⟩ := Machine.ends_makeDirectories made
    simp only [ends_bind, ends_get] at h
    obtain ⟨_, _, ⟨rfl, rfl⟩, h⟩ := h
    split at h
    · exact absurd h not_ends_throw
    · rename_i l found
      exact .inr ⟨p, tree, l, named, grows, found, ends_set.mp h⟩

/-- What one call does. -/
theorem opens_setUp (plain : ".." ∉ m.here) (c : SetUp) :
    Opens (c.opened m) m (after c.action m) ∧ (after c.action m).outlet.console = true := by
  have given := gives_after c.action m
  cases outcome : (c.action.run.run m).1 with
  | error f =>
      have none : c.opened m = [] := by simp [SetUp.opened, outcome, Except.toOption]
      rw [outcome] at given
      obtain ⟨tree, grows, made⟩ := fails_setUp (gives_error.mp given)
      rw [none, made]
      exact ⟨.of_grows (fun _ => rfl) rfl grows, rfl⟩
  | ok u =>
      have named : c.opened m = (c.file.map (Path.locate m.here)).toList := by
        simp [SetUp.opened, outcome, Except.toOption]
      rw [outcome] at given
      rcases ends_setUp (gives_ok.mp given) with ⟨none, made⟩ | ⟨p, tree, l, some_file, grows, found, made⟩
      · rw [named, none, made]
        exact ⟨.of_grows (fun _ => rfl) rfl (.refl _), rfl⟩
      · obtain ⟨placed, -⟩ := FileTree.target_eq_ok found
        have place : l = p.locate m.here := (FileTree.place_eq_ok placed).2.trans
          (Path.locate_ofLocation (Path.up_not_mem_locate plain p) m.here)
        rw [named, some_file, Option.map_some, made, ← place]
        refine ⟨⟨rfl, rfl, fun _ => rfl, rfl, fun k => ?_⟩, rfl⟩
        rw [FileTree.content?_put, grows.content, grows.content, Option.toList_some]
        by_cases same : k = l
        · rw [if_pos same, if_pos (List.mem_singleton.mpr same), same]
        · rw [if_neg same, if_neg (mt List.mem_singleton.mp same)]

end Calls

/-- What any number of calls does. -/
theorem opens_setUpAll {m : Machine} (plain : ".." ∉ m.here) (calls : List SetUp) :
    Opens (opened m calls) m (setUpAll m calls) ∧
      (calls ≠ [] → (setUpAll m calls).outlet.console = true) := by
  induction calls generalizing m with
  | nil => exact ⟨.refl m, fun some_call => absurd rfl some_call⟩
  | cons c rest ih =>
      obtain ⟨first, shown⟩ := opens_setUp plain c
      obtain ⟨later, -⟩ := ih (m := after c.action m) (by rwa [first.here])
      exact ⟨first.trans later, fun _ => later.console shown⟩

/-! ## Writing -/

/-- A text, some times in a row. -/
def repeated (times : Nat) (s : String) : String := String.join (List.replicate times s)

theorem repeated_succ (times : Nat) (s : String) : repeated (times + 1) s = s ++ repeated times s := by
  simp [repeated, List.replicate_succ]

/-- What a record adds to a file. A record without bytes adds nothing. -/
def Record.entry (r : Record) : String :=
  if (Text.unencodable? r.fileText).isSome then "" else r.fileText ++ "\n"

section Writing

open Machine

variable (r : Record)

theorem printed_appendRecord (m : Machine) (f : Location) : (appendRecord r m f).printed = m.printed := by
  unfold appendRecord
  split
  · rfl
  · split <;> rfl

theorem content?_appendRecord (m : Machine) (f l : Location) : (appendRecord r m f).tree.content? l =
    if l = f then (m.tree.content? l).map (· ++ r.entry) else m.tree.content? l := by
  unfold appendRecord Record.entry
  split
  · simp
  · by_cases same : l = f
    · subst same
      rw [if_pos rfl]
      cases held : m.tree.content? l with
      | none => simp [held]
      | some content => simp [String.append_assoc]
    · rw [if_neg same]
      cases held : m.tree.content? f with
      | none => rfl
      | some content => simp [same]

/-- A record is added to a file as often as the file is listed. -/
theorem content?_appendAll (files : List Location) (m : Machine) (l : Location) :
    (files.foldl (appendRecord r) m).tree.content? l =
      (m.tree.content? l).map (· ++ repeated (files.count l) r.entry) := by
  induction files generalizing m with
  | nil => simp [repeated]
  | cons f rest ih =>
      rw [List.foldl_cons, ih, content?_appendRecord]
      by_cases same : l = f
      · subst same
        rw [if_pos rfl, List.count_cons_self, repeated_succ, Option.map_map]
        simp only [Function.comp_def, String.append_assoc]
      · rw [if_neg same, List.count_cons_of_ne (Ne.symm same)]

theorem printed_appendAll (files : List Location) (m : Machine) :
    (files.foldl (appendRecord r) m).printed = m.printed := by
  induction files generalizing m with
  | nil => rfl
  | cons f rest ih => rw [List.foldl_cons, ih, printed_appendRecord]

/-- The files that a record is added to are those of the log, if it weighs enough for them. -/
theorem content?_emit (m : Machine) (l : Location) : (m.emit r).tree.content? l =
    (m.tree.content? l).map (· ++ repeated ((m.outlet.filesFor r.weight).count l) r.entry) := by
  simp only [emit, content?_appendAll]
  split <;> rfl

theorem printed_emit {m : Machine} (shown : m.outlet.console = true) :
    (m.emit r).printed = m.printed ++ r.consoleText ++ "\n" := by
  simp only [emit, printed_appendAll, if_pos shown]

end Writing

/-! ## The law of records -/

/-- A directory to work in, with the log of an earlier run. -/
def studio : Machine where
  tree := ⟨[(["w", "old.log"], "first\n")], [["w"]]⟩
  here := ["w"]

def greeting : Record := ⟨"hookcut.engine", Level.info.weight, "hi", 1, 0⟩

end Splice.Log
