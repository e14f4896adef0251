import Splice.Proofs.Failure
import Splice.Proofs.Invocation

/-! # What becomes of an invocation

An engine admits a program if it lists every filter that the program requires. A program that is admitted
is started, once, and its process is killed if it is overdue; a program that is not admitted is not
started. So the result of an invocation can be told from what the engine lists and from how its next
process goes, unless the command cannot be written down.
-/

namespace Splice

open Splice.Action Machine

namespace Engine

/-- What is wrong with a process that goes some way, if anything is. -/
def Run.verdict (limit : Option Binary64) : Run → Except Fault Unit
  | .refused reason => .error (.start reason)
  | .overdue _ => .error (.timeout limit)
  | .ended code stderr _ => if code = 0 then .ok () else .error (.exit code stderr)

/-- What a process writes. -/
def Run.output : Run → Option String
  | .refused _ => none
  | .overdue output => output
  | .ended _ _ output => output

def Run.kills : Run → List ProcessEvent
  | .overdue _ => [.killed]
  | _ => []

def Result.of : Except Fault Unit → Result
  | .ok _ => {}
  | .error fault => ⟨some fault.message, fault.isTimeout⟩

theorem missing_eq_nil {required available : List String} :
    missing required available = [] ↔ required ⊆ available := by
  have order := List.mergeSort_perm (required.eraseDups.filter (!available.contains ·)) Text.isOrdered
  rw [missing, sorted, ← List.length_eq_zero_iff, order.length_eq, List.length_eq_zero_iff,
    List.filter_eq_nil_iff]
  simp [List.subset_def]

end Engine

/-! ## What the engine lists -/

/-- What the next listing tells of an engine's filters, or why it tells nothing. -/
def Machine.listed (m : Machine) (engine : Option String) : Except Engine.Fault (List String) :=
  match m.listing with
  | .refused reason => .error (.start reason)
  | .overdue => .error (.start (Engine.listingOverdue engine))
  | .printed text => .ok (Engine.filterNames text)

/-- The filters of an engine: those that are known from before, or else what the next listing tells. -/
def Machine.filters (m : Machine) (engine : Option String) : Except Engine.Fault (List String) :=
  match m.knownFilters.lookup engine with
  | some names => .ok names
  | none => m.listed engine

/-- The listings that asking for the filters of an engine takes. -/
def Machine.listings (m : Machine) (engine : Option String) : List ProcessEvent :=
  if (m.knownFilters.lookup engine).isSome then [] else [.listed (Engine.listingCommand engine)]

/-- What is known of filters once those of an engine were asked for. A listing is kept if it was printed and
nothing was known of the engine before. -/
def Machine.known (m : Machine) (engine : Option String) : List (Option String × List String) :=
  match m.knownFilters.lookup engine with
  | some _ => m.knownFilters
  | none =>
    match m.listing with
    | .printed text => (engine, Engine.filterNames text) :: m.knownFilters
    | _ => m.knownFilters

/-- Machines between which the engine sees no difference. -/
structure Machine.Alike (m n : Machine) : Prop where
  here : n.here = m.here
  directories : ∀ l, n.tree.isDirectory l = m.tree.isDirectory l
  runs : n.runs = m.runs
  listing : n.listing = m.listing
  known : n.knownFilters = m.knownFilters
  processes : n.processes = m.processes

instance : IsPreorder Machine Machine.Alike where
  refl _ := ⟨rfl, fun _ => rfl, rfl, rfl, rfl, rfl⟩
  trans _ _ _ first second :=
    ⟨second.here.trans first.here, fun l => (second.directories l).trans (first.directories l),
      second.runs.trans first.runs, second.listing.trans first.listing,
      second.known.trans first.known, second.processes.trans first.processes⟩

theorem Machine.keeps_log_alike (source : Log.Source) (level : Log.Level) (message : String) :
    Keeps Alike (log source level message) := by
  refine keeps_log_of (fun m _ => ⟨rfl, fun _ => rfl, rfl, rfl, rfl, rfl⟩)
    (fun m _ => ⟨rfl, fun _ => rfl, rfl, rfl, rfl, rfl⟩) (fun m r l _ => ?_) source level message
  unfold appendRecord
  split
  · exact refl_of Alike m
  · split
    · exact ⟨rfl, fun k => m.tree.isDirectory_put l k _, rfl, rfl, rfl, rfl⟩
    · exact refl_of Alike m

theorem Machine.exists_ends_log_alike (source : Log.Source) (level : Log.Level) (message : String)
    (m : Machine) : ∃ n, Ends (log source level message) m () n ∧ Alike m n := by
  obtain ⟨n, ended, -⟩ : ∃ n, Ends (log source level message) m () n ∧ Quiet [] m n :=
    exists_ends_log source level message m
  exact ⟨n, ended, (keeps_log_alike source level message).ends ended⟩

/-- A file can be written where a path leads. -/
def Machine.HasRoom (m : Machine) (p : Path) : Prop :=
  ∃ l, m.tree.place m.here p = .ok l ∧ m.tree.isDirectory l = false

namespace Machine.Alike

variable {m n : Machine}

theorem upcoming (h : Alike m n) : n.upcoming = m.upcoming := by
  rw [Machine.upcoming, Machine.upcoming, h.runs]

theorem filters (h : Alike m n) (engine : Option String) : n.filters engine = m.filters engine := by
  rw [Machine.filters, Machine.filters, h.known, listed, listed, h.listing]

theorem listings (h : Alike m n) (engine : Option String) : n.listings engine = m.listings engine := by
  rw [Machine.listings, Machine.listings, h.known]

theorem hasRoom (h : Alike m n) {p : Path} (room : m.HasRoom p) : n.HasRoom p := by
  obtain ⟨l, placed, free⟩ := room
  refine ⟨l, ?_, (h.directories l).trans free⟩
  rw [h.here]
  exact (FileTree.place_congr h.directories).mpr placed

end Machine.Alike

namespace Invocation

variable {m n : Machine} {p : Program} {engine : Option String} {limit : Option Binary64}

theorem ends_note (e : ProcessEvent) (m : Machine) :
    Ends (note e) m () { m with processes := m.processes ++ [e] } :=
  ends_modify.mpr rfl

theorem gives_listFilters {engine : Option String} (new : m.knownFilters.lookup engine = none) :
    Gives (listFilters engine) m ((m.listed engine).mapError .engine)
      { m with
        processes := m.processes ++ [.listed (Engine.listingCommand engine)],
        knownFilters := m.known engine } := by
  unfold listed known
  rw [new]
  refine (ends_note _ m).bind ((ends_get.mpr ⟨rfl, rfl⟩).bind ?_)
  cases m.listing with
  | refused reason => exact gives_throw.mpr ⟨rfl, rfl⟩
  | overdue => exact gives_throw.mpr ⟨rfl, rfl⟩
  | printed text => exact ((ends_modify (u := ())).mpr rfl).bind (gives_pure.mpr ⟨rfl, rfl⟩)

theorem gives_availableFilters (engine : Option String) (m : Machine) :
    Gives (availableFilters engine) m ((m.filters engine).mapError .engine)
      { m with processes := m.processes ++ m.listings engine, knownFilters := m.known engine } := by
  have asked : Ends get m m m := ends_get.mpr ⟨rfl, rfl⟩
  cases found : m.knownFilters.lookup engine with
  | some names =>
      refine asked.bind ?_
      simp only [found, Machine.filters, listings, known, Option.isSome_some, if_true, List.append_nil]
      exact gives_pure.mpr ⟨rfl, rfl⟩
  | none =>
      have listed := gives_listFilters found
      refine asked.bind ?_
      simpa [found, Machine.filters, listings] using listed

/-- Whether an engine may run a program, and what is wrong if not. -/
def admission (p : Program) (engine : Option String) (m : Machine) : Except Engine.Fault Unit :=
  if p.requiredFilters.isEmpty then .ok ()
  else (m.filters engine).bind fun names =>
    let missing := Engine.missing p.requiredFilters names
    if missing.isEmpty then .ok () else .error (.filters engine missing)

/-- An engine lists what a program requires, if it requires anything. -/
def Admits (engine : Option String) (p : Program) (m : Machine) : Prop :=
  p.requiredFilters = [] ∨ ∃ names, m.filters engine = .ok names ∧ p.requiredFilters ⊆ names

theorem admission_eq_ok : admission p engine m = .ok () ↔ Admits engine p m := by
  unfold admission Admits
  split
  · rename_i none
    simp [List.isEmpty_iff.mp none]
  · rename_i required
    have required : p.requiredFilters ≠ [] := fun none => required (List.isEmpty_iff.mpr none)
    cases m.filters engine with
    | error fault => simp [Except.bind, required]
    | ok names =>
        simp only [Except.bind, List.isEmpty_iff, Engine.missing_eq_nil, required, false_or,
          Except.ok.injEq, exists_eq_left']
        split
        · simp [*]
        · simp [*]

theorem gives_checkFilters (engine : Option String) (required : List String) (m : Machine) :
    Gives (checkFilters engine required) m
      (((m.filters engine).bind fun names =>
        let missing := Engine.missing required names
        if missing.isEmpty then .ok () else .error (.filters engine missing)).mapError .engine)
      { m with processes := m.processes ++ m.listings engine, knownFilters := m.known engine } := by
  have given := gives_availableFilters engine m
  cases filters : m.filters engine with
  | error fault =>
      rw [filters] at given
      exact (gives_error.mp given).bind _
  | ok names =>
      rw [filters] at given
      refine (gives_ok.mp given).bind ?_
      simp only [Except.bind]
      cases (Engine.missing required names).isEmpty with
      | true => exact gives_pure.mpr ⟨rfl, rfl⟩
      | false => exact gives_throw.mpr ⟨rfl, rfl⟩

/-! ## How the process goes -/

theorem commandText?_eq_none {command : List (Option String)} :
    Program.commandText? command = none ↔ none ∈ command := by
  have texts : ∀ command : List (Option String), command.mapM id = none ↔ none ∈ command := by
    intro command
    induction command with
    | nil => simp
    | cons argument rest ih =>
        cases argument with
        | none => simp
        | some text =>
            rw [List.mapM_cons]
            cases rest : rest.mapM id <;> simp_all
  rw [Program.commandText?, Option.map_eq_none_iff, texts]

theorem exists_ends_nextRun (m : Machine) : ∃ runs, Ends nextRun m m.upcoming { m with runs } := by
  obtain ⟨o, n, given⟩ := exists_gives nextRun m
  cases o with
  | error f => exact absurd (gives_error.mp given) not_fails_nextRun
  | ok r =>
      have ended := gives_ok.mp given
      obtain ⟨rfl, -⟩ : r = m.upcoming ∧ Frame [] m n := ends_nextRun ended
      suffices same : ∃ runs, n = { m with runs } by
        obtain ⟨runs, rfl⟩ := same
        exact ⟨runs, ended⟩
      simp only [nextRun, ends_bind, ends_get] at ended
      obtain ⟨_, _, ⟨rfl, rfl⟩, next⟩ := ended
      split at next
      · obtain ⟨-, rfl⟩ := ends_pure.mp next
        exact ⟨n.runs, rfl⟩
      · obtain ⟨-, rfl⟩ := ends_pure.mp next
        exact ⟨n.runs, rfl⟩
      · obtain ⟨_, _, spent, last⟩ := ends_bind.mp next
        obtain ⟨-, rfl⟩ := ends_pure.mp last
        exact ⟨_, ends_set.mp spent⟩

theorem exists_ends_writeOutput {command : List (Option String)} {output : Option String}
    (room : ∀ content, output = some content → m.HasRoom (outputOf command)) :
    ∃ tree, Ends (writeOutput command output) m () { m with tree } := by
  cases output with
  | none => exact ⟨m.tree, ends_pure.mpr ⟨rfl, rfl⟩⟩
  | some content =>
      obtain ⟨l, placed, free⟩ := room content rfl
      refine ⟨m.tree.put l content, ends_bind.mpr ⟨m, m, ends_get.mpr ⟨rfl, rfl⟩, ?_⟩⟩
      simp [FileTree.write, FileTree.target, placed, free, Except.map, Outcome.ok_bind]

/-- What is left to do once it is clear how a process goes. -/
def conclude (command : List (Option String)) (limit : Option Binary64) : Engine.Run → Action Unit
  | .refused reason => throw (.engine (.start reason))
  | .overdue output => do
    writeOutput command output
    note .killed
    throw (.engine (.timeout limit))
  | .ended code stderr output => do
    writeOutput command output
    if code ≠ 0 then throw (.engine (.exit code stderr))

theorem run_eq (command : List (Option String)) (limit : Option Binary64) :
    run command limit = (do
      let text ← need (Program.commandText? command)
      log (source 110) .debug ("Running: " ++ text)
      note (.started command)
      let r ← nextRun
      conclude command limit r) := rfl

theorem exists_gives_conclude (command : List (Option String)) (limit : Option Binary64) {r : Engine.Run}
    (room : ∀ content, r.output = some content → m.HasRoom (outputOf command)) :
    ∃ tree, Gives (conclude command limit r) m ((r.verdict limit).mapError .engine)
      { m with tree, processes := m.processes ++ r.kills } := by
  obtain ⟨tree, wrote⟩ := exists_ends_writeOutput room
  cases r with
  | refused reason =>
      refine ⟨m.tree, gives_throw.mpr ⟨rfl, ?_⟩⟩
      simp [Engine.Run.kills]
  | overdue output => exact ⟨tree, wrote.bind ((ends_note _ _).bind (gives_throw.mpr ⟨rfl, rfl⟩))⟩
  | ended code stderr output =>
      refine ⟨tree, wrote.bind ?_⟩
      rw [show Engine.Run.kills _ = [] from rfl, List.append_nil]
      simp only [Engine.Run.verdict]
      by_cases right : code = 0
      · rw [if_pos right, if_neg (not_not.mpr right)]
        exact gives_pure.mpr ⟨rfl, rfl⟩
      · rw [if_neg right, if_pos right]
        exact gives_throw.mpr ⟨rfl, rfl⟩

/-- A command that can be written down is started, and killed if it is overdue. -/
theorem exists_gives_run (limit : Option Binary64) {command : List (Option String)}
    (texts : none ∉ command)
    (room : ∀ content, m.upcoming.output = some content → m.HasRoom (outputOf command)) :
    ∃ n, Gives (run command limit) m ((m.upcoming.verdict limit).mapError .engine) n ∧
      n.processes = m.processes ++ .started command :: m.upcoming.kills := by
  obtain ⟨text, written⟩ :=
    Option.ne_none_iff_exists'.mp fun none => texts (commandText?_eq_none.mp none)
  obtain ⟨k, noted, alike⟩ := exists_ends_log_alike (source 110) .debug ("Running: " ++ text) m
  obtain ⟨runs, next⟩ := exists_ends_nextRun { k with processes := k.processes ++ [.started command] }
  have same : Machine.upcoming { k with processes := k.processes ++ [.started command] } = m.upcoming :=
    alike.upcoming
  rw [same] at next
  obtain ⟨tree, concluded⟩ := exists_gives_conclude command limit
    (m := { k with processes := k.processes ++ [.started command], runs }) (r := m.upcoming)
    fun content given => alike.hasRoom (room content given)
  rw [run_eq]
  refine ⟨_, (ends_need.mpr ⟨written, rfl⟩).bind (noted.bind ((ends_note _ k).bind
    (next.bind concluded))), ?_⟩
  simp [alike.processes]

/-! ## The whole -/

/-- What is wrong with an invocation, if anything is. -/
def verdict (p : Program) (engine : Option String) (limit : Option Binary64) (m : Machine) :
    Except Engine.Fault Unit :=
  (admission p engine m).bind fun _ => m.upcoming.verdict limit

/-- What an invocation does with processes. -/
def events (p : Program) (engine : Option String) (m : Machine) : List ProcessEvent :=
  (if p.requiredFilters.isEmpty then [] else m.listings engine) ++
    match admission p engine m with
    | .ok _ => .started (p.command engine) :: m.upcoming.kills
    | .error _ => []

/-- What an invocation does with a program that is admitted. -/
def runAdmitted (p : Program) (engine : Option String) (limit : Option Binary64) :
    Action Engine.Result := do
  run (p.command engine) limit
  log (source 154) .info "   ✓ ffmpeg completed successfully"
  return {}

def report : Failure → Action Engine.Result
  | .engine fault => do
    log (source 148) .error ("   ❌ " ++ fault.message)
    return ⟨some fault.message, fault.isTimeout⟩
  | f => throw f

/-- An invocation before its failure is reported. -/
def attempt (p : Program) (engine : Option String) (limit : Option Binary64) : Action Engine.Result :=
  if !p.requiredFilters.isEmpty then do
    checkFilters engine p.requiredFilters
    runAdmitted p engine limit
  else runAdmitted p engine limit

theorem invoke_eq (p : Program) (engine : Option String) (limit : Option Binary64) :
    invoke p engine limit = (do
      log (source 142) .info
        ("   🎬 Running ffmpeg (expected " ++ p.expectedDuration.fixed 1 ++ "s of output)...")
      tryCatch (attempt p engine limit) report) := rfl

theorem exists_gives_runAdmitted (limit : Option Binary64) (texts : none ∉ p.command engine)
    (room : ∀ content, m.upcoming.output = some content → m.HasRoom (outputOf (p.command engine))) :
    ∃ n, Gives (runAdmitted p engine limit) m
        (((m.upcoming.verdict limit).mapError .engine).map fun _ => {}) n ∧
      n.processes = m.processes ++ .started (p.command engine) :: m.upcoming.kills := by
  obtain ⟨k, ran, told⟩ := exists_gives_run limit texts room
  cases done : m.upcoming.verdict limit with
  | error fault =>
      rw [done] at ran
      exact ⟨k, (gives_error.mp ran).bind _, told⟩
  | ok u =>
      rw [done] at ran
      obtain ⟨n, noted, alike⟩ := exists_ends_log_alike (source 154) .info
        "   ✓ ffmpeg completed successfully" k
      exact ⟨n, (gives_ok.mp ran).bind (noted.bind (gives_pure.mpr ⟨rfl, rfl⟩)),
        alike.processes.trans told⟩

/-- What is wrong with the engine becomes the result. -/
theorem exists_ends_reported {x : Action Engine.Result} {v : Except Engine.Fault Unit} {k : Machine}
    (given : Gives x m ((v.mapError .engine).map fun _ => {}) k) :
    ∃ n, Ends (tryCatch x report) m (.of v) n ∧ n.processes = k.processes := by
  cases v with
  | ok u => exact ⟨k, ends_tryCatch.mpr (.inl given), rfl⟩
  | error fault =>
      obtain ⟨n, noted, alike⟩ := exists_ends_log_alike (source 148) .error ("   ❌ " ++ fault.message) k
      have told : Ends (report (.engine fault)) k (.of (.error fault)) n :=
        ends_bind.mpr ⟨(), n, noted, ends_pure.mpr ⟨rfl, rfl⟩⟩
      exact ⟨n, ends_tryCatch.mpr (.inr ⟨.engine fault, k, given, told⟩), alike.processes⟩

theorem exists_gives_attempt (limit : Option Binary64) (texts : none ∉ p.command engine)
    (room : ∀ content, m.upcoming.output = some content → m.HasRoom (outputOf (p.command engine))) :
    ∃ n, Gives (attempt p engine limit) m
        (((verdict p engine limit m).mapError .engine).map fun _ => {}) n ∧
      n.processes = m.processes ++ events p engine m := by
  cases required : p.requiredFilters.isEmpty with
  | true =>
      obtain ⟨n, ran, told⟩ := exists_gives_runAdmitted limit texts room
      refine ⟨n, ?_, ?_⟩
      · simpa [attempt, verdict, admission, required, Except.bind] using ran
      · simpa [events, admission, required] using told
  | false =>
      have whole : attempt p engine limit =
          checkFilters engine p.requiredFilters >>= fun _ => runAdmitted p engine limit := by
        simp [attempt, required]
      have admitted : admission p engine m = (m.filters engine).bind fun names =>
          let missing := Engine.missing p.requiredFilters names
          if missing.isEmpty then .ok () else .error (.filters engine missing) := by
        simp [admission, required]
      have checked := gives_checkFilters engine p.requiredFilters m
      rw [← admitted] at checked
      rw [whole]
      cases done : admission p engine m with
      | error fault =>
          rw [done] at checked
          simp only [verdict, events, required, done]
          exact ⟨_, (gives_error.mp checked).bind _, by simp⟩
      | ok u =>
          rw [done] at checked
          simp only [verdict, events, required, done]
          obtain ⟨n, ran, told⟩ := exists_gives_runAdmitted limit texts
            (m := { m with processes := m.processes ++ m.listings engine, knownFilters := m.known engine }) room
          exact ⟨n, (gives_ok.mp checked).bind ran, by rw [told, List.append_assoc]; rfl⟩

/-- An invocation whose command can be written down has its verdict as the result. -/
theorem exists_ends_invoke (limit : Option Binary64) (texts : none ∉ p.command engine)
    (room : ∀ content, m.upcoming.output = some content → m.HasRoom (outputOf (p.command engine))) :
    ∃ n, Ends (invoke p engine limit) m (.of (verdict p engine limit m)) n ∧
      n.processes = m.processes ++ events p engine m := by
  obtain ⟨k, noted, alike⟩ := exists_ends_log_alike (source 142) .info
    ("   🎬 Running ffmpeg (expected " ++ p.expectedDuration.fixed 1 ++ "s of output)...") m
  have admitted : admission p engine k = admission p engine m := by
    rw [admission, admission, alike.filters]
  have judged : verdict p engine limit k = verdict p engine limit m := by
    rw [verdict, verdict, admitted, alike.upcoming]
  have same : events p engine k = events p engine m := by
    rw [events, events, admitted, alike.upcoming, alike.listings]
  obtain ⟨j, settled, told⟩ := exists_gives_attempt limit texts
    fun content given => alike.hasRoom (room content (alike.upcoming ▸ given))
  obtain ⟨n, ended, rest⟩ := exists_ends_reported settled
  rw [judged] at ended
  rw [invoke_eq]
  exact ⟨n, ends_bind.mpr ⟨(), k, noted, ended⟩, by rw [rest, told, alike.processes, same]⟩

/-! ## What the result tells -/

theorem success_of {v : Except Engine.Fault Unit} :
    (Engine.Result.of v).success = true ↔ v = .ok () := by
  cases v with
  | ok u => simp [Engine.Result.of, Engine.Result.success]
  | error fault => simp [Engine.Result.of, Engine.Result.success]

theorem timedOut_of {v : Except Engine.Fault Unit} :
    (Engine.Result.of v).timedOut = true ↔ ∃ limit, v = .error (.timeout limit) := by
  cases v with
  | ok u => simp [Engine.Result.of]
  | error fault => cases fault <;> simp [Engine.Result.of, Engine.Fault.isTimeout]

/-- That a program is not admitted is no matter of time. -/
theorem admission_ne_timeout (limit : Option Binary64) :
    admission p engine m ≠ .error (.timeout limit) := by
  have filters : m.filters engine ≠ .error (.timeout limit) := by
    unfold Machine.filters listed
    split
    · exact nofun
    · split <;> exact nofun
  unfold admission
  split
  · exact nofun
  · cases told : m.filters engine with
    | error fault => simpa [Except.bind, told] using filters
    | ok names =>
        simp only [Except.bind]
        split <;> exact nofun

theorem verdict_eq_ok : verdict p engine limit m = .ok () ↔
    Admits engine p m ∧ ∃ stderr output, m.upcoming = .ended 0 stderr output := by
  rw [verdict, ← admission_eq_ok]
  cases admission p engine m with
  | error fault => simp [Except.bind]
  | ok u =>
      cases m.upcoming with
      | refused reason => simp [Except.bind, Engine.Run.verdict]
      | overdue output => simp [Except.bind, Engine.Run.verdict]
      | ended code stderr output => simp [Except.bind, Engine.Run.verdict]

theorem verdict_eq_timeout : (∃ limit', verdict p engine limit m = .error (.timeout limit')) ↔
    Admits engine p m ∧ ∃ output, m.upcoming = .overdue output := by
  rw [verdict, ← admission_eq_ok]
  cases admitted : admission p engine m with
  | error fault =>
      have other : ∀ limit', fault ≠ .timeout limit' := fun limit' same =>
        admission_ne_timeout limit' (same ▸ admitted)
      simpa [Except.bind] using other
  | ok u =>
      cases m.upcoming with
      | refused reason => simp [Except.bind, Engine.Run.verdict]
      | overdue output => simp [Except.bind, Engine.Run.verdict]
      | ended code stderr output =>
          simp only [Except.bind, Engine.Run.verdict]
          split <;> simp

/-- Apart from listings, only a program that is admitted has events. -/
theorem mem_events {e : ProcessEvent} (other : e ≠ .listed (Engine.listingCommand engine)) :
    e ∈ events p engine m ↔
      Admits engine p m ∧ (e = .started (p.command engine) ∨ e ∈ m.upcoming.kills) := by
  have unlisted : e ∉ if p.requiredFilters.isEmpty then [] else m.listings engine := by
    unfold listings
    split
    · simp
    · split <;> simp [other]
  rw [events, List.mem_append, or_iff_right unlisted, ← admission_eq_ok]
  cases admission p engine m with
  | error fault => simp
  | ok u => simp

theorem started_mem_events {command : List (Option String)} :
    .started command ∈ events p engine m ↔ Admits engine p m ∧ command = p.command engine := by
  rw [mem_events (by simp)]
  cases m.upcoming <;> simp [Engine.Run.kills]

theorem killed_mem_events : .killed ∈ events p engine m ↔
    Admits engine p m ∧ ∃ output, m.upcoming = .overdue output := by
  rw [mem_events (by simp)]
  cases m.upcoming <;> simp [Engine.Run.kills]

/-- A program with a text over it. -/
def trialProgram : Except Program.Error Program :=
  Program.compile {} ⟨"hook.mp4", "demo.mp4", "out.mp4"⟩ .unknown .unknown (some "Hi") {}

/-- An engine that lists the filter of texts, and whose next process begins its output and is overdue. -/
def trialMachine : Machine where
  listing := .printed " T.C drawtext V->V Draw text"
  runs := [.overdue (some "begun")]

theorem trialProgram_eq : trialProgram.toOption.map (fun p => (p.requiredFilters,
      (p.command (some "ffmpeg")).contains none, outputOf (p.command (some "ffmpeg")))) =
    some (["drawtext"], false, .ofText "out.mp4") := by
  decide +kernel

/-- A program that is admitted, but of whose command a part was set to nothing, fails instead. -/
theorem fails_invoke (admits : Admits engine p m) (unset : none ∈ p.command engine) :
    ∃ n, Fails (invoke p engine limit) m .unset n := by
  obtain ⟨k, noted, alike⟩ := exists_ends_log_alike (source 142) .info
    ("   🎬 Running ffmpeg (expected " ++ p.expectedDuration.fixed 1 ++ "s of output)...") m
  have stops (k : Machine) : Fails (runAdmitted p engine limit) k .unset k := by
    refine fails_bind.mpr (.inl (fails_bind.mpr (.inl (fails_need.mpr ⟨?_, rfl, rfl⟩))))
    exact commandText?_eq_none.mpr unset
  suffices stopped : ∃ n, Fails (attempt p engine limit) k .unset n by
    obtain ⟨n, stopped⟩ := stopped
    rw [invoke_eq]
    exact ⟨n, fails_bind.mpr (.inr ⟨(), k, noted,
      fails_tryCatch.mpr ⟨.unset, n, stopped, fails_throw.mpr ⟨rfl, rfl⟩⟩⟩)⟩
  have admits : admission p engine k = .ok () := by
    rw [admission, alike.filters, ← admission, admission_eq_ok]
    exact admits
  unfold attempt
  split
  · rename_i required
    have checked := gives_checkFilters engine p.requiredFilters k
    have required : p.requiredFilters.isEmpty = false := by simpa using required
    simp only [admission, required, Bool.false_eq_true, if_false] at admits
    rw [admits] at checked
    exact ⟨_, fails_bind.mpr (.inr ⟨(), _, gives_ok.mp checked, stops _⟩)⟩
  · exact ⟨k, stops k⟩

end Invocation
end Splice
