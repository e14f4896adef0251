import Splice.Proofs.Pipeline.Telling

/-! # The order of a job's steps

Each step that a job tells is allowed by those before it. So the engine is started at most once, and only
for a compiled program whose filters it lists; an output is stored at most once, and only if the engine
ended well; and a job has a success just if all its steps were done.
-/

namespace Splice.Pipeline

open Splice.Action Machine Told

/-! ## The order of the steps -/

/-- Both clips were fetched to where the job has them. -/
def Fetched (job : Job) (told : List Event) : Prop :=
  ∃ directory, .fetched job.hookUrl (JobFiles.of job directory).hook ∈ told ∧
    .fetched job.demoUrl (JobFiles.of job directory).demo ∈ told

/-- The command is that of a compiled program, and the engine lists what the program requires. -/
def Ready (engine : Option String) (command : List (Option String)) (told : List Event) : Prop :=
  ∃ p, .compiled p ∈ told ∧ command = p.command engine ∧
    (p.requiredFilters ≠ [] → ∃ names, .listed names ∈ told ∧ p.requiredFilters ⊆ names)

/-- What must have been told before a step. -/
def Allowed (job : Job) (engine : Option String) (before : List Event) : Event → Prop
  | .started command => (∀ other, .started other ∉ before) ∧
    (∃ config, EditConfig.read (storedValue job.editConfig) = .ok config ∧ .configured config ∈ before) ∧
    Fetched job before ∧ Ready engine command before
  | .uploading _ => (∀ other, .uploading other ∉ before) ∧ .exited 0 ∈ before ∧
    ∃ directory, .found (JobFiles.of job directory).output ∈ before
  | .shelving url => (∀ other, .shelving other ∉ before) ∧ .uploaded url ∈ before
  | .shelved url => .shelving url ∈ before
  | _ => True

/-- Each step is allowed by those that were told before it. -/
def Orderly (job : Job) (engine : Option String) (before told : List Event) : Prop :=
  ∀ earlier e later, told = earlier ++ e :: later → Allowed job engine (before ++ earlier) e

/-- All steps of a job were done. -/
structure Complete (job : Job) (engine : Option String) (told : List Event) : Prop where
  configured : ∃ config, EditConfig.read (storedValue job.editConfig) = .ok config ∧
    .configured config ∈ told
  fetched : Fetched job told
  started : ∃ command, Ready engine command told ∧ .started command ∈ told
  exited : .exited 0 ∈ told
  found : ∃ directory, .found (JobFiles.of job directory).output ∈ told
  published : ∃ url, .uploaded url ∈ told ∧ .shelved url ∈ told

section Orderly

variable {job : Job} {engine : Option String} {before told more : List Event} {e : Event}

theorem orderly_nil : Orderly job engine before [] := by
  intro earlier e later same
  simp at same

theorem orderly_cons : Orderly job engine before (e :: told) ↔
    Allowed job engine before e ∧ Orderly job engine (before ++ [e]) told := by
  constructor
  · intro h
    refine ⟨by simpa using h [] e told rfl, fun earlier d later same => ?_⟩
    simpa using h (e :: earlier) d later (by rw [same, List.cons_append])
  · rintro ⟨first, rest⟩ earlier d later same
    cases earlier with
    | nil =>
        obtain ⟨rfl, -⟩ := List.cons.inj same
        simpa using first
    | cons c earlier =>
        obtain ⟨rfl, tail⟩ := List.cons.inj same
        simpa using rest earlier d later tail

theorem orderly_append : Orderly job engine before (told ++ more) ↔
    Orderly job engine before told ∧ Orderly job engine (before ++ told) more := by
  induction told generalizing before with
  | nil => simp [orderly_nil]
  | cons e told ih => simp [orderly_cons, ih, and_assoc]

/-- Steps that need nothing before them, and of which there may be many. -/
def Event.isFree : Event → Bool
  | .started _ | .uploading _ | .shelving _ | .shelved _ => false
  | _ => true

def AreFree (told : List Event) : Prop := ∀ e ∈ told, e.isFree = true

theorem areFree_nil : AreFree [] := by simp [AreFree]

theorem allowed_of_isFree (free : e.isFree = true) : Allowed job engine before e := by
  cases e with
  | started | uploading | shelving | shelved => cases free
  | _ => trivial

theorem AreFree.orderly (free : AreFree told) : Orderly job engine before told := by
  rintro earlier e later rfl
  exact allowed_of_isFree (free e (by simp))

end Orderly

/-! ## What each part tells -/

namespace Telling

variable {m n : Machine} {told : List Event} {engine : Option String} {limit : Option Binary64}

/-- What is logged is not told, and logging does not fail. -/
theorem tells_log_bind {α : Type} {source : Log.Source} {level : Log.Level} {message : String}
    {x : Unit → Told Event α} {o : Except Failure α}
    (h : Tells (call (Machine.log source level message) >>= x) m o n told) :
    ∃ k, Tells (x ()) k o n told := by
  rcases tells_call_bind.mp h with ⟨f, logged, -, -⟩ | ⟨_, k, -, rest⟩
  · exact absurd logged not_fails_modify
  · exact ⟨k, rest⟩

theorem tells_checkFilters {required : List String} {o : Except Failure Unit}
    (h : Tells (checkFilters engine required) m o n told) :
    (∃ names, o = .ok () ∧ told = [.listed names] ∧ required ⊆ names) ∨
      (∃ f, o = .error f) ∧ AreFree told := by
  rcases tells_call_bind.mp h with ⟨f, -, rfl, rfl⟩ | ⟨names, k, -, h⟩
  · exact .inr ⟨⟨f, rfl⟩, areFree_nil⟩
  obtain ⟨more, rest, rfl⟩ := tells_tell_bind.mp h
  dsimp only at rest
  split at rest
  · obtain ⟨rfl, -, rfl⟩ := tells_throw.mp rest
    exact .inr ⟨⟨_, rfl⟩, by simp [AreFree, Event.isFree]⟩
  · rename_i none
    obtain ⟨rfl, -, rfl⟩ := tells_pure.mp rest
    have none : Engine.missing required names = [] := by simpa using none
    exact .inl ⟨names, rfl, rfl, Engine.missing_eq_nil.mp none⟩

theorem tells_conclude {command : List (Option String)} {r : Engine.Run} {o : Except Failure Unit}
    (h : Tells (conclude command limit r) m o n told) :
    (o = .ok () ∧ told = [.exited 0]) ∨ (∃ f, o = .error f) ∧ AreFree told := by
  cases r with
  | refused reason =>
      obtain ⟨rfl, -, rfl⟩ := tells_throw.mp h
      exact .inr ⟨⟨_, rfl⟩, areFree_nil⟩
  | overdue output =>
      rcases tells_call_bind.mp h with ⟨f, -, rfl, rfl⟩ | ⟨_, k, -, h⟩
      · exact .inr ⟨⟨f, rfl⟩, areFree_nil⟩
      rcases tells_call_bind.mp h with ⟨f, -, rfl, rfl⟩ | ⟨_, k, -, h⟩
      · exact .inr ⟨⟨f, rfl⟩, areFree_nil⟩
      obtain ⟨more, rest, rfl⟩ := tells_tell_bind.mp h
      obtain ⟨rfl, -, rfl⟩ := tells_throw.mp rest
      exact .inr ⟨⟨_, rfl⟩, by simp [AreFree, Event.isFree]⟩
  | ended code stderr output =>
      rcases tells_call_bind.mp h with ⟨f, -, rfl, rfl⟩ | ⟨_, k, -, h⟩
      · exact .inr ⟨⟨f, rfl⟩, areFree_nil⟩
      obtain ⟨more, rest, rfl⟩ := tells_tell_bind.mp h
      split at rest
      · obtain ⟨rfl, -, rfl⟩ := tells_throw.mp rest
        exact .inr ⟨⟨_, rfl⟩, by simp [AreFree, Event.isFree]⟩
      · rename_i zero
        obtain ⟨rfl, -, rfl⟩ := tells_pure.mp rest
        obtain rfl : code = 0 := by simpa using zero
        exact .inl ⟨rfl, rfl⟩

theorem tells_run {command : List (Option String)} {o : Except Failure Unit}
    (h : Tells (run command limit) m o n told) :
    (o = .ok () ∧ told = [.started command, .exited 0]) ∨
      (∃ f, o = .error f) ∧ (told = [] ∨ ∃ rest, told = .started command :: rest ∧ AreFree rest) := by
  rcases tells_call_bind.mp h with ⟨f, -, rfl, rfl⟩ | ⟨text, k, -, h⟩
  · exact .inr ⟨⟨f, rfl⟩, .inl rfl⟩
  rcases tells_call_bind.mp h with ⟨f, -, rfl, rfl⟩ | ⟨_, k, -, h⟩
  · exact .inr ⟨⟨f, rfl⟩, .inl rfl⟩
  rcases tells_call_bind.mp h with ⟨f, -, rfl, rfl⟩ | ⟨_, k, -, h⟩
  · exact .inr ⟨⟨f, rfl⟩, .inl rfl⟩
  obtain ⟨more, rest, rfl⟩ := tells_tell_bind.mp h
  rcases tells_call_bind.mp rest with ⟨f, -, rfl, rfl⟩ | ⟨r, k, -, rest⟩
  · exact .inr ⟨⟨f, rfl⟩, .inr ⟨[], rfl, areFree_nil⟩⟩
  rcases tells_conclude rest with ⟨rfl, rfl⟩ | ⟨failed, free⟩
  · exact .inl ⟨rfl, rfl⟩
  · exact .inr ⟨failed, .inr ⟨more, rfl, free⟩⟩

theorem tells_runAdmitted {p : Program} {o : Except Failure Engine.Result}
    (h : Tells (runAdmitted p engine limit) m o n told) :
    (o = .ok {} ∧ told = [.started (p.command engine), .exited 0]) ∨ (∃ f, o = .error f) ∧
      (told = [] ∨ ∃ rest, told = .started (p.command engine) :: rest ∧ AreFree rest) := by
  rcases tells_bind.mp h with ⟨f, failed, rfl⟩ | ⟨_, j, first, last, ran, rest, rfl⟩
  · rcases tells_run failed with ⟨absurd, -⟩ | ⟨-, once⟩
    · cases absurd
    · exact .inr ⟨⟨f, rfl⟩, once⟩
  · rcases tells_run ran with ⟨-, rfl⟩ | ⟨⟨f, absurd⟩, -⟩
    · obtain ⟨i, last⟩ := tells_log_bind rest
      obtain ⟨rfl, -, rfl⟩ := tells_pure.mp last
      exact .inl ⟨rfl, rfl⟩
    · cases absurd

/-- What the engine lists before a program is started. -/
def Lists (p : Program) (listing : List Event) : Prop :=
  (p.requiredFilters = [] ∧ listing = []) ∨
    ∃ names, listing = [.listed names] ∧ p.requiredFilters ⊆ names

theorem Lists.areFree {p : Program} {listing : List Event} (h : Lists p listing) : AreFree listing := by
  rcases h with ⟨-, rfl⟩ | ⟨names, rfl, -⟩
  · exact areFree_nil
  · simp [AreFree, Event.isFree]

/-- A program was not started, or it was, once, after its filters were listed. -/
def StartedOnce (p : Program) (engine : Option String) (told : List Event) : Prop :=
  AreFree told ∨ ∃ listing rest, Lists p listing ∧
    told = listing ++ .started (p.command engine) :: rest ∧ AreFree rest

theorem Lists.startedOnce {p : Program} {listing more : List Event} (lists : Lists p listing)
    (once : more = [] ∨ ∃ rest, more = .started (p.command engine) :: rest ∧ AreFree rest) :
    StartedOnce p engine (listing ++ more) := by
  rcases once with rfl | ⟨rest, rfl, free⟩
  · rw [List.append_nil]
    exact .inl lists.areFree
  · exact .inr ⟨listing, rest, lists, rfl, free⟩

theorem tells_attemptRun {p : Program} {o : Except Failure Engine.Result}
    (h : Tells (attemptRun p engine limit) m o n told) :
    (o = .ok {} ∧ ∃ listing, Lists p listing ∧
      told = listing ++ [.started (p.command engine), .exited 0]) ∨
      (∃ f, o = .error f) ∧ StartedOnce p engine told := by
  unfold attemptRun at h
  split at h
  · rcases tells_bind.mp h with ⟨f, failed, rfl⟩ | ⟨_, k, first, more, checked, rest, rfl⟩
    · rcases tells_checkFilters failed with ⟨names, absurd, -⟩ | ⟨-, free⟩
      · cases absurd
      · exact .inr ⟨⟨f, rfl⟩, .inl free⟩
    · rcases tells_checkFilters checked with ⟨names, -, rfl, sub⟩ | ⟨⟨f, absurd⟩, -⟩
      · have lists : Lists p [.listed names] := .inr ⟨names, rfl, sub⟩
        rcases tells_runAdmitted rest with ⟨rfl, rfl⟩ | ⟨failed, once⟩
        · exact .inl ⟨rfl, _, lists, rfl⟩
        · exact .inr ⟨failed, lists.startedOnce once⟩
      · cases absurd
  · rename_i none
    have lists : Lists p [] := .inl ⟨by simpa using none, rfl⟩
    rcases tells_runAdmitted h with ⟨rfl, rfl⟩ | ⟨failed, once⟩
    · exact .inl ⟨rfl, _, lists, rfl⟩
    · exact .inr ⟨failed, lists.startedOnce once⟩

theorem tells_invoke {p : Program} {o : Except Failure Engine.Result}
    (h : Tells (invoke p engine limit) m o n told) :
    (o = .ok {} ∧ ∃ listing, Lists p listing ∧
      told = listing ++ [.started (p.command engine), .exited 0]) ∨
      (∀ r, o = .ok r → r.success = false) ∧ StartedOnce p engine told := by
  obtain ⟨k, trying⟩ := tells_log_bind h
  rcases tells_handle.mp trying with ⟨r, ended, rfl⟩ | ⟨f, j, failed, handled⟩
  · rcases tells_attemptRun ended with ⟨same, whole⟩ | ⟨⟨f, absurd⟩, -⟩
    · exact .inl ⟨same, whole⟩
    · cases absurd
  · rcases tells_attemptRun failed with ⟨absurd, -⟩ | ⟨-, once⟩
    · cases absurd
    refine .inr ⟨fun r ended => ?_, once⟩
    subst ended
    cases f with
    | engine fault =>
        obtain ⟨_, i, -, told⟩ := ends_bind.mp (gives_ok.mp handled)
        obtain ⟨rfl, -⟩ := ends_pure.mp told
        rfl
    | _ => exact absurd (gives_ok.mp handled) not_ends_throw

theorem tells_download {url : String} {target : Path} {o : Except Failure Unit}
    (h : Tells (download url target) m o n told) :
    (o = .ok () ∧ told = [.fetched url target]) ∨ (∃ f, o = .error f) ∧ told = [] := by
  rcases tells_call_bind.mp h with ⟨f, -, rfl, rfl⟩ | ⟨_, k, -, h⟩
  · exact .inr ⟨⟨f, rfl⟩, rfl⟩
  · obtain ⟨rfl, -, rfl⟩ := tells_tell.mp h
    exact .inl ⟨rfl, rfl⟩

variable {job : Job} {s : Settings} {files : JobFiles} {store : Location} {storage : Storage}

theorem tells_downloads {o : Except Failure Unit}
    (h : Tells (Told.both (download job.hookUrl files.hook) (download job.demoUrl files.demo)) m o n told) :
    (o = .ok () ∧ told = [.fetched job.hookUrl files.hook, .fetched job.demoUrl files.demo]) ∨
      (∃ f, o = .error f) ∧ AreFree told := by
  obtain ⟨first, second, k, before, later, hook, demo, rfl, rfl⟩ := tells_both h
  have free : ∀ {told : List Event} {url target}, told = [.fetched url target] → AreFree told := by
    rintro told url target rfl
    simp [AreFree, Event.isFree]
  rcases tells_download hook with ⟨rfl, rfl⟩ | ⟨⟨f, rfl⟩, rfl⟩
  · rcases tells_download demo with ⟨rfl, rfl⟩ | ⟨⟨f, rfl⟩, rfl⟩
    · exact .inl ⟨rfl, rfl⟩
    · exact .inr ⟨⟨f, rfl⟩, free rfl⟩
  · rcases tells_download demo with ⟨-, rfl⟩ | ⟨-, rfl⟩
    · exact .inr ⟨⟨f, rfl⟩, free rfl⟩
    · exact .inr ⟨⟨f, rfl⟩, areFree_nil⟩

/-- What is told of a job whose program was compiled. -/
def preparation (job : Job) (files : JobFiles) (config : EditConfig) (p : Program) : List Event :=
  [.configured config, .fetched job.hookUrl files.hook, .fetched job.demoUrl files.demo, .compiled p]

theorem tells_prepare {o : Except Failure Program} (h : Tells (prepare job s files) m o n told) :
    (∃ config p, o = .ok p ∧ EditConfig.read (storedValue job.editConfig) = .ok config ∧
      told = preparation job files config p) ∨
      (∃ f, o = .error f) ∧ AreFree told := by
  rcases tells_call_bind.mp h with ⟨f, -, rfl, rfl⟩ | ⟨config, k, known, rest⟩
  · exact .inr ⟨⟨f, rfl⟩, areFree_nil⟩
  have read := (ends_lift.mp known).1
  obtain ⟨_, logging, rfl⟩ := tells_tell_bind.mp rest
  obtain ⟨k, fetching⟩ := tells_log_bind logging
  have free : ∀ {told}, AreFree told → AreFree (.configured config :: told) := by
    rintro told free e (_ | ⟨_, he⟩)
    · rfl
    · exact free e he
  rcases tells_bind.mp fetching with ⟨f, failed, rfl⟩ | ⟨_, k, first, _, fetched, probing, rfl⟩
  · rcases tells_downloads failed with ⟨absurd, -⟩ | ⟨-, fetched⟩
    · cases absurd
    · exact .inr ⟨⟨f, rfl⟩, free fetched⟩
  rcases tells_downloads fetched with ⟨-, rfl⟩ | ⟨⟨f, absurd⟩, -⟩
  · have fetched : AreFree [.configured config, .fetched job.hookUrl files.hook,
        .fetched job.demoUrl files.demo] := by
      simp [AreFree, Event.isFree]
    rcases tells_call_bind.mp probing with ⟨f, -, rfl, rfl⟩ | ⟨hook, k, -, probing⟩
    · exact .inr ⟨⟨f, rfl⟩, fetched⟩
    rcases tells_call_bind.mp probing with ⟨f, -, rfl, rfl⟩ | ⟨demo, k, -, compiling⟩
    · exact .inr ⟨⟨f, rfl⟩, fetched⟩
    rcases tells_call_bind.mp compiling with ⟨f, -, rfl, rfl⟩ | ⟨p, k, -, compiled⟩
    · exact .inr ⟨⟨f, rfl⟩, fetched⟩
    obtain ⟨_, showing, rfl⟩ := tells_tell_bind.mp compiled
    split at showing
    · obtain ⟨k, last⟩ := tells_log_bind showing
      obtain ⟨rfl, -, rfl⟩ := tells_pure.mp last
      exact .inl ⟨config, p, rfl, read, rfl⟩
    · obtain ⟨rfl, -, rfl⟩ := tells_pure.mp showing
      exact .inl ⟨config, p, rfl, read, rfl⟩
  · cases absurd

/-- What is told when an output is published. -/
def publication (job : Job) (files : JobFiles) (url : String) : List Event :=
  [.found files.output, .uploading (storageKey job), .uploaded url, .shelving url, .shelved url]

/-- A program that was run with success has its output published, or at least the beginning of that. -/
theorem tells_finish {o : Except Failure Result}
    (h : Tells (finish job files store storage) m o n told) :
    (∃ url j k, Ends (storage.upload (.ofPath files.output) (storageKey job)) j url k ∧
      o = .ok ⟨true, some url, none⟩ ∧ told = publication job files url) ∨
      (∀ r, o = .ok r → r.success = false) ∧ (∀ url, .shelved url ∉ told) ∧
        ∃ url later, publication job files url = told ++ later := by
  rcases tells_call_bind.mp h with ⟨f, -, rfl, rfl⟩ | ⟨isThere, j, -, storing⟩
  · exact .inr ⟨nofun, by simp, "", _, rfl⟩
  split at storing
  · obtain ⟨rfl, -, rfl⟩ := tells_pure.mp storing
    exact .inr ⟨by rintro r ⟨⟩; rfl, by simp, "", _, rfl⟩
  obtain ⟨_, publishing, rfl⟩ := tells_tell_bind.mp storing
  obtain ⟨_, uploading, rfl⟩ := tells_tell_bind.mp publishing
  rcases tells_call_bind.mp uploading with ⟨f, -, rfl, rfl⟩ | ⟨url, k, stored, telling⟩
  · exact .inr ⟨nofun, by simp, "", _, rfl⟩
  obtain ⟨_, beginning, rfl⟩ := tells_tell_bind.mp telling
  obtain ⟨_, shelving, rfl⟩ := tells_tell_bind.mp beginning
  rcases tells_call_bind.mp shelving with ⟨f, -, rfl, rfl⟩ | ⟨_, i, -, ending⟩
  · exact .inr ⟨nofun, by simp, url, _, rfl⟩
  obtain ⟨_, last, rfl⟩ := tells_tell_bind.mp ending
  obtain ⟨rfl, -, rfl⟩ := tells_pure.mp last
  exact .inl ⟨url, j, k, stored, rfl, rfl⟩

/-! ## The whole -/

variable {directory : Path} {config : EditConfig} {p : Program}

theorem areFree_preparation : AreFree (preparation job files config p) := by
  simp [AreFree, preparation, Event.isFree]

theorem ready_of_lists {listing : List Event} (lists : Lists p listing) {told : List Event}
    (compiled : .compiled p ∈ told) (sub : listing ⊆ told) : Ready engine (p.command engine) told := by
  refine ⟨p, compiled, rfl, fun required => ?_⟩
  rcases lists with ⟨none, -⟩ | ⟨names, rfl, listed⟩
  · exact absurd none required
  · exact ⟨names, sub (by simp), listed⟩

/-- A program that was compiled is started when it may be. -/
theorem orderly_started {listing rest : List Event}
    (read : EditConfig.read (storedValue job.editConfig) = .ok config) (lists : Lists p listing)
    (free : AreFree rest) : Orderly job engine []
      (preparation job (.of job directory) config p ++
        (listing ++ .started (p.command engine) :: rest)) := by
  refine orderly_append.mpr ⟨areFree_preparation.orderly, orderly_append.mpr
    ⟨lists.areFree.orderly, orderly_cons.mpr ⟨⟨fun other started => ?_, ?_, ?_, ?_⟩, free.orderly⟩⟩⟩
  · rcases List.mem_append.mp started with prepared | listed
    · cases areFree_preparation _ prepared
    · cases lists.areFree _ listed
  · exact ⟨config, read, by simp [preparation]⟩
  · exact ⟨directory, by simp [preparation], by simp [preparation]⟩
  · exact ready_of_lists lists (by simp [preparation]) (by simp)

theorem StartedOnce.orderly {told : List Event} (once : StartedOnce p engine told)
    (read : EditConfig.read (storedValue job.editConfig) = .ok config) :
    Orderly job engine [] (preparation job (.of job directory) config p ++ told) := by
  rcases once with free | ⟨listing, rest, lists, rfl, free⟩
  · exact orderly_append.mpr ⟨areFree_preparation.orderly, free.orderly⟩
  · exact orderly_started read lists free

theorem StartedOnce.not_shelved {told : List Event} (once : StartedOnce p engine told) (url : String) :
    .shelved url ∉ preparation job files config p ++ told := by
  intro shelved
  rcases List.mem_append.mp shelved with prepared | shelved
  · cases areFree_preparation _ prepared
  · rcases once with free | ⟨listing, rest, lists, rfl, free⟩
    · cases free _ shelved
    · simp only [List.mem_append, List.mem_cons, reduceCtorEq, false_or] at shelved
      rcases shelved with listed | ended
      · cases lists.areFree _ listed
      · cases free _ ended

/-- What is told of a job whose program was run with success. -/
def rendered (job : Job) (files : JobFiles) (config : EditConfig) (p : Program)
    (engine : Option String) (listing : List Event) : List Event :=
  preparation job files config p ++ (listing ++ [.started (p.command engine), .exited 0])

/-- The steps by which an output is published. -/
def isPublishing : Event → Bool
  | .found _ | .uploading _ | .uploaded _ | .shelving _ | .shelved _ => true
  | _ => false

variable {listing : List Event}

theorem mem_rendered (lists : Lists p listing) {e : Event}
    (h : e ∈ rendered job files config p engine listing) : isPublishing e = false := by
  simp only [rendered, preparation, List.mem_append, List.mem_cons, List.not_mem_nil, or_false] at h
  rcases h with (rfl | rfl | rfl | rfl) | listed | rfl | rfl
  any_goals rfl
  rcases lists with ⟨-, rfl⟩ | ⟨names, rfl, -⟩
  · simp at listed
  · obtain rfl := List.mem_singleton.mp listed
    rfl

theorem orderly_published (read : EditConfig.read (storedValue job.editConfig) = .ok config)
    (lists : Lists p listing) (url : String) :
    Orderly job engine [] (rendered job (.of job directory) config p engine listing ++
      publication job (.of job directory) url) := by
  have exited : .exited 0 ∈ rendered job (.of job directory) config p engine listing := by
    simp [rendered]
  refine orderly_append.mpr ⟨orderly_started read lists (by simp [AreFree, Event.isFree]), ?_⟩
  simp only [publication, orderly_cons, orderly_nil, Allowed, and_true, true_and]
  refine ⟨⟨fun key uploading => ?_, by simp [exited], directory, by simp⟩,
    ⟨fun url shelving => ?_, by simp⟩,
    by simp⟩
  · simp only [List.nil_append, List.mem_append, List.mem_singleton, reduceCtorEq, or_false] at uploading
    cases mem_rendered lists uploading
  · simp only [List.nil_append, List.mem_append, List.mem_singleton, reduceCtorEq, or_false] at shelving
    cases mem_rendered lists shelving

theorem complete_published (read : EditConfig.read (storedValue job.editConfig) = .ok config)
    (lists : Lists p listing) (url : String) :
    Complete job engine (rendered job (.of job directory) config p engine listing ++
      publication job (.of job directory) url) where
  configured := ⟨config, read, by simp [rendered, preparation]⟩
  fetched := ⟨directory, by simp [rendered, preparation], by simp [rendered, preparation]⟩
  started := by
    refine ⟨p.command engine, ready_of_lists lists (by simp [rendered, preparation]) ?_,
      by simp [rendered]⟩
    intro e he
    simp [rendered, he]
  exited := by simp [rendered]
  found := ⟨directory, by simp [publication]⟩
  published := ⟨url, by simp [publication], by simp [publication]⟩

/-- The steps of a rendering are in order. Either all of them were done, or the output is not in the
library and there is no success. -/
theorem tells_render {o : Except Failure Result}
    (h : Tells (render job s (.of job directory) store storage) m o n told) :
    Orderly job (s.get .engine) [] told ∧
      ((∃ url, o = .ok ⟨true, some url, none⟩ ∧
          (∃ j k, Ends (storage.upload (.ofPath (JobFiles.of job directory).output)
            (storageKey job)) j url k) ∧
          Complete job (s.get .engine) told ∧ ∀ other, .uploaded other ∈ told → other = url) ∨
        (∀ r, o = .ok r → r.success = false) ∧ ∀ url, .shelved url ∉ told) := by
  rcases tells_bind.mp h with ⟨f, failed, rfl⟩ | ⟨p, k, first, _, prepared, invoking, rfl⟩
  · rcases tells_prepare failed with ⟨config, p, absurd, -⟩ | ⟨-, free⟩
    · cases absurd
    · exact ⟨free.orderly, .inr ⟨nofun, fun url shelved => nomatch free _ shelved⟩⟩
  obtain ⟨config, _, same, read, rfl⟩ | ⟨⟨f, absurd⟩, -⟩ := tells_prepare prepared
  rotate_left
  · cases absurd
  obtain rfl := Except.ok.inj same
  rcases tells_bind.mp invoking with ⟨f, failed, rfl⟩ | ⟨r, k, once, _, invoked, checking, rfl⟩
  · rcases tells_invoke failed with ⟨absurd, -⟩ | ⟨-, once⟩
    · cases absurd
    · exact ⟨once.orderly read, .inr ⟨nofun, once.not_shelved⟩⟩
  obtain ⟨same, listing, lists, rfl⟩ | ⟨wrong, once⟩ := tells_invoke invoked
  · obtain rfl := Except.ok.inj same
    rw [← List.append_assoc, ← rendered]
    rcases tells_finish checking with ⟨url, j, i, stored, rfl, rfl⟩ |
      ⟨fails, unshelved, url, later, same⟩
    · refine ⟨orderly_published read lists url, .inl ⟨url, rfl, ⟨j, i, stored⟩,
        complete_published read lists url, fun other uploaded => ?_⟩⟩
      rcases List.mem_append.mp uploaded with early | late
      · cases mem_rendered lists early
      · simpa [publication] using late
    · -- What a publication that stops tells is the beginning of what a whole one tells.
      have whole : Orderly job (s.get .engine) [] (_ ++ publication job (.of job directory) url) :=
        orderly_published read lists url
      rw [same, ← List.append_assoc] at whole
      refine ⟨(orderly_append.mp whole).1, .inr ⟨fails, fun other shelved => ?_⟩⟩
      rcases List.mem_append.mp shelved with early | late
      · cases mem_rendered lists early
      · exact unshelved other late
  · have wrong := wrong r rfl
    rw [wrong] at checking
    obtain ⟨rfl, -, rfl⟩ := tells_pure.mp checking
    rw [List.append_nil]
    exact ⟨once.orderly read, .inr ⟨by rintro r ⟨⟩; rfl, once.not_shelved⟩⟩

/-- Once an output is stored, the files of its job can be cleaned up. -/
theorem not_fails_cleanUp_stored {url : String} {i j k l : Machine} {f : Failure}
    (stored : Ends (storage.upload (.ofPath (JobFiles.of job directory).output) (storageKey job)) i url j) :
    ¬ Fails (cleanUp (JobFiles.of job directory).all) k f l := by
  obtain ⟨-, _, content, -, read, -⟩ := Storage.ends_upload stored
  obtain ⟨_, placed, -⟩ := FileTree.read_eq_ok (FileTree.readAt_eq_ok read)
  obtain ⟨fault, same⟩ := JobFiles.ofPath?_ofText_eq job directory
  have mem : (JobFiles.of job directory).output.text ∈ (JobFiles.of job directory).all := by
    simp [JobFiles.all]
  have clean : fault = none := (same _ mem).symm.trans (FileTree.place_eq_ok placed).1
  exact not_fails_cleanUp fun text ht => (same text ht).trans clean

theorem not_success_of_report {f : Failure} {r : Result} (h : Gives (report f) m (.ok r) n) :
    r.success = false := by
  unfold report at h
  split at h
  · obtain ⟨same, -⟩ := gives_pure.mp h
    obtain rfl := Except.ok.inj same
    rfl
  · cases (gives_throw.mp h).1

/-- The steps of a job are in order. Either all of them were done, and the job has its success whatever
comes after; or the output is not in the library and there is no success. -/
theorem tells_process {o : Except Failure Result}
    (h : Tells (process job s store storage) m o n told) :
    Orderly job (s.get .engine) [] told ∧
      ((∃ url, o = .ok ⟨true, some url, none⟩ ∧ Complete job (s.get .engine) told ∧
          ∀ other, .uploaded other ∈ told → other = url) ∨
        (∀ r, o = .ok r → r.success = false) ∧ ∀ url, .shelved url ∉ told) := by
  rcases tells_call_bind.mp h with ⟨f, -, rfl, rfl⟩ | ⟨directory, i, -, making⟩
  · exact ⟨orderly_nil, .inr ⟨nofun, by simp⟩⟩
  rcases tells_call_bind.mp making with ⟨f, -, rfl, rfl⟩ | ⟨_, j, -, rendering⟩
  · exact ⟨orderly_nil, .inr ⟨nofun, by simp⟩⟩
  obtain ⟨r, k, steps, more, tried, cleaning, rfl⟩ := tells_attempt_bind.mp rendering
  obtain ⟨orderly, ends⟩ : Orderly job (s.get .engine) [] steps ∧
      ((∃ url, r = .ok ⟨true, some url, none⟩ ∧
          (∃ j k, Ends (storage.upload (.ofPath (JobFiles.of job directory).output)
            (storageKey job)) j url k) ∧
          Complete job (s.get .engine) steps ∧ ∀ other, .uploaded other ∈ steps → other = url) ∨
        (∀ a, r = .ok a → a.success = false) ∧ ∀ url, .shelved url ∉ steps) := by
    rcases tells_handle.mp tried with ⟨a, rendered, rfl⟩ | ⟨f, _, rendered, handled⟩
    · exact tells_render rendered
    · obtain ⟨orderly, ⟨url, absurd, -⟩ | ⟨-, unshelved⟩⟩ := tells_render rendered
      · cases absurd
      · refine ⟨orderly, .inr ⟨fun a same => ?_, unshelved⟩⟩
        exact not_success_of_report (same ▸ handled)
  rcases tells_call_bind.mp cleaning with ⟨f, stuck, rfl, rfl⟩ | ⟨_, i, -, last⟩
  · rw [List.append_nil]
    rcases ends with ⟨url, -, ⟨_, _, stored⟩, -⟩ | ⟨-, unshelved⟩
    · exact absurd stuck (not_fails_cleanUp_stored stored)
    · exact ⟨orderly, .inr ⟨nofun, unshelved⟩⟩
  · have same : o = r ∧ n = i ∧ more = [] := by
      cases r with
      | ok a => exact tells_pure.mp last
      | error f => exact tells_throw.mp last
    obtain ⟨rfl, -, rfl⟩ := same
    rw [List.append_nil]
    refine ⟨orderly, ends.imp_left ?_⟩
    rintro ⟨url, same, -, rest⟩
    exact ⟨url, same, rest⟩

end Telling

end Splice.Pipeline
