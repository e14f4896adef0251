import Splice.Proofs.Invocation
import Splice.Proofs.Jobs
import Splice.Proofs.Pipeline.Files
import Splice.Proofs.Storage

/-! # Rendering a job

Before a job's output is published only the files of the job change. Publishing stores the output and
adds it to the library, in this order; if the output cannot be stored, it changes nothing.
-/

namespace Splice

open Splice.Action Machine

/-- The engine writes the file that the program is for. -/
theorem Program.outputOf_compile {config : EditConfig} {files : Files} {hook demo : Clip}
    {text : Option String} {options : EncoderOptions} {p : Program}
    (h : compile config files hook demo text options = .ok p) (engine : Option String) :
    Invocation.outputOf (p.command engine) = Path.ofText files.output := by
  simp only [compile, Outcome.bind_eq_ok] at h
  obtain ⟨a, -, graph, -, made⟩ := h
  split at made
  · obtain rfl := Except.ok.inj made
    simp [Invocation.outputOf, command, argumentsOf, List.getLast?_cons, List.getLast?_append]
  · cases made

namespace Pipeline

variable {m n : Machine} {job : Job} {s : Settings} {files : JobFiles} {store : Location}
  {storage : Storage}

section Both

variable {a b : Action Unit}

theorem keeps_both {R : Machine → Machine → Prop} [IsPreorder Machine R] (first : Keeps R a)
    (second : Keeps R b) : Keeps R (both a b) := by
  refine keeps_bind (keeps_attempt first) fun x => keeps_bind (keeps_attempt second) fun y => ?_
  split
  · exact keeps_throw _
  · exact keeps_throw _
  · exact keeps_pure _

theorem ends_both {u : Unit} (h : Ends (both a b) m u n) : ∃ k, Ends a m () k ∧ Ends b k () n := by
  simp only [both, ends_bind, ends_attempt] at h
  obtain ⟨x, k, first, y, j, second, h⟩ := h
  split at h
  · exact absurd h not_ends_throw
  · exact absurd h not_ends_throw
  · rename_i none none'
    obtain ⟨-, rfl⟩ := ends_pure.mp h
    cases x with
    | error f => exact absurd rfl (none f)
    | ok a =>
        cases y with
        | error f => exact absurd rfl (none' f)
        | ok b => exact ⟨k, first, second⟩

end Both

theorem keeps_probe {paths : List Path} (path : String) : Keeps (Quiet paths) (Clip.probe path) := by
  refine keeps_bind keeps_get fun k => ?_
  dsimp only
  split
  · exact keeps_bind (keeps_log _ _ _) fun _ => keeps_pure _
  · split
    · exact keeps_pure _
    · exact keeps_bind (keeps_log _ _ _) fun _ => keeps_pure _

theorem keeps_downloads (job : Job) (files : JobFiles) : Keeps (Quiet [files.hook, files.demo])
    (both (Storage.download job.hookUrl files.hook) (Storage.download job.demoUrl files.demo)) :=
  keeps_both ((Storage.keeps_download _ _).mono fun _ _ h => h.mono (by simp))
    ((Storage.keeps_download _ _).mono fun _ _ h => h.mono (by simp))

theorem keeps_prepare (job : Job) (s : Settings) (files : JobFiles) :
    Keeps (Quiet [files.hook, files.demo]) (prepare job s files) := by
  refine keeps_bind (keeps_lift _ _) fun config => keeps_bind (keeps_log _ _ _) fun _ =>
    keeps_bind (keeps_downloads job files) fun _ => keeps_bind (keeps_probe _) fun hook =>
    keeps_bind (keeps_probe _) fun demo => keeps_bind (keeps_lift _ _) fun program => ?_
  split
  · exact keeps_bind (keeps_log _ _ _) fun _ => keeps_pure _
  · exact keeps_pure _

/-- When a program was prepared, both clips can be found, and the program is for the job's output. -/
theorem ends_prepare {program : Program} (h : Ends (prepare job s files) m program n) :
    (∀ p ∈ [files.hook, files.demo], ∃ l, n.tree.place n.here p = .ok l) ∧
      ∀ engine, Invocation.outputOf (program.command engine) = Path.ofText files.output.text := by
  simp only [prepare, ends_bind (x := lift _ _), ends_bind (x := log _ _ _), ends_bind (x := both _ _),
    ends_bind (x := Clip.probe _), ends_lift] at h
  obtain ⟨config, _, ⟨-, rfl⟩, _, m₁, -, _, m₂, fetched, hook, m₃, probed, demo, _, probed', compiled,
    m₄, ⟨made, rfl⟩, h⟩ := h
  have last : Quiet [] m₄ n ∧ program = compiled := by
    split at h
    · obtain ⟨_, _, noted, h⟩ := ends_bind.mp h
      obtain ⟨rfl, rfl⟩ := ends_pure.mp h
      exact ⟨(keeps_log _ _ _).ends noted, rfl⟩
    · obtain ⟨rfl, rfl⟩ := ends_pure.mp h
      exact ⟨.refl _, rfl⟩
  obtain ⟨last, rfl⟩ := last
  refine ⟨fun p hp => ?_, fun engine => by rw [Program.outputOf_compile made]⟩
  have after : Quiet [] m₂ n := (((keeps_probe _).ends probed).trans ((keeps_probe _).ends probed')).trans last
  obtain ⟨k, first, second⟩ := ends_both fetched
  rcases List.mem_pair.mp hp with rfl | rfl
  · obtain ⟨l, placed⟩ := Storage.placed_of_download first
    exact ⟨l, after.place (((Storage.keeps_download _ _).ends second).place placed)⟩
  · obtain ⟨l, placed⟩ := Storage.placed_of_download second
    exact ⟨l, after.place placed⟩

/-- What is known of a job whose program was run with success, and whose output is there: its files
can be found, and the engine was the last to change them. -/
structure Rendered (files : JobFiles) (m n : Machine) : Prop where
  placed : ∀ p ∈ files.paths, ∃ l, n.tree.place n.here p = .ok l
  engine : ∃ stderr output j k command, m.upcoming = .ended 0 stderr output ∧
    Frame [files.hook, files.demo] m j ∧
    Invocation.outputOf command = Path.ofText files.output.text ∧
    Ends (Invocation.writeOutput command output) j () k ∧ Quiet [] k n

theorem Rendered.of_quiet {k : Machine} (before : Quiet [] m k) (h : Rendered files k n) :
    Rendered files m n where
  placed := h.placed
  engine := by
    obtain ⟨stderr, output, j, i, command, shape, frame, same, wrote, after⟩ := h.engine
    exact ⟨stderr, output, j, i, command, before.upcoming.symm.trans shape,
      (before.toFrame.mono (by simp)).trans frame, same, wrote, after⟩

/-- Publishing fails before anything is stored; or the output is stored, and the library gets it or
refuses it. -/
theorem gives_publish {o : Except Failure Result}
    (h : Gives (publish job files store storage) m o n) :
    (Quiet [] m n ∧ ∃ f, o = .error f) ∨ ∃ k url added,
      Ends (storage.upload (.ofPath files.output) (storageKey job)) m url k ∧
      Gives (Jobs.addVideo store (.text job.user) (.text url) (.text (outputName job))
        (.text (storageKey job))) k added n ∧
      o = added.map fun _ => ⟨true, some url, none⟩ := by
  rcases gives_bind.mp h with ⟨f, failed, rfl⟩ | ⟨url, k, stored, h⟩
  · exact .inl ⟨Storage.fails_upload failed, f, rfl⟩
  · rcases gives_bind.mp h with ⟨f, failed, rfl⟩ | ⟨u, j, added, h⟩
    · exact .inr ⟨k, url, .error f, stored, failed, rfl⟩
    · obtain ⟨rfl, rfl⟩ := gives_pure.mp h
      exact .inr ⟨k, url, .ok u, stored, added, rfl⟩

/-- A job's output is stored, and the library gets it or refuses it. -/
def Published (job : Job) (files : JobFiles) (store : Location) (storage : Storage) (m : Machine)
    (o : Except Failure Result) (n : Machine) : Prop :=
  ∃ j k url added, Frame files.paths m j ∧ Rendered files m j ∧
    Ends (storage.upload (.ofPath files.output) (storageKey job)) j url k ∧
    Gives (Jobs.addVideo store (.text job.user) (.text url) (.text (outputName job))
      (.text (storageKey job))) k added n ∧
    o = added.map fun _ => ⟨true, some url, none⟩

namespace Published

variable {o : Except Failure Result} {k : Machine}

theorem of_quiet (before : Quiet [] m k) (h : Published job files store storage k o n) :
    Published job files store storage m o n := by
  obtain ⟨j, i, url, added, frame, rendered, stored, listed, rfl⟩ := h
  exact ⟨j, i, url, added, (before.toFrame.mono (by simp)).trans frame, rendered.of_quiet before,
    stored, listed, rfl⟩

theorem sound (h : Published job files store storage m o n) (sound : m.tree.Sound) :
    n.tree.Sound := by
  obtain ⟨j, i, url, added, frame, -, stored, listed, -⟩ := h
  rw [Jobs.keeps_addVideo _ _ _ _ _ _ _ _ listed]
  exact (Storage.keeps_upload_ended stored).sound (frame.sound sound)

/-- The files of a job that was published can be found to the end. -/
theorem placed (h : Published job files store storage m o n) :
    ∀ p ∈ files.paths, ∃ l, n.tree.place n.here p = .ok l := by
  obtain ⟨j, i, url, added, -, rendered, stored, listed, -⟩ := h
  intro p hp
  obtain ⟨l, placed⟩ := rendered.placed p hp
  rw [Jobs.keeps_addVideo _ _ _ _ _ _ _ _ listed]
  exact ⟨l, (Storage.keeps_upload_ended stored).place placed⟩

theorem surroundings (h : Published job files store storage m o n) :
    n.here = m.here ∧ n.outlet = m.outlet := by
  obtain ⟨j, i, url, added, frame, -, stored, listed, -⟩ := h
  have stores := Storage.keeps_upload_ended stored
  rw [Jobs.keeps_addVideo _ _ _ _ _ _ _ _ listed]
  exact ⟨stores.here.trans frame.here, stores.outlet.trans frame.outlet⟩

/-- Of a job that was published, only the library can refuse the output. -/
theorem refused {f : Failure} (h : Published job files store storage m (.error f) n) :
    (f = .clock ∨ ∃ fault, f = .store fault) ∧ n.stores = m.stores := by
  obtain ⟨j, i, url, added, frame, -, stored, listed, same⟩ := h
  cases added with
  | ok u => cases same
  | error g =>
      obtain rfl := Except.error.inj same
      obtain ⟨cause, stores⟩ := Jobs.fails_addVideo (gives_error.mp listed)
      exact ⟨cause, stores.trans ((Storage.keeps_upload_ended stored).stores.trans frame.stores)⟩

theorem succeeded {r : Result} (h : Published job files store storage m (.ok r) n) :
    r.success = true := by
  obtain ⟨j, i, url, added, -, -, -, -, same⟩ := h
  cases added with
  | ok u => exact Except.ok.inj same ▸ rfl
  | error f => cases same

end Published

/-- A job fails while only its own files have changed, or it is published. -/
theorem gives_render {o : Except Failure Result} (tidy : files.output.Tidy)
    (h : Gives (render job s files store storage) m o n) :
    (Frame files.paths m n ∧ ∀ r, o = .ok r → r.success = false) ∨
      Published job files store storage m o n := by
  have clips : [files.hook, files.demo] ⊆ files.paths := by simp [JobFiles.paths]
  rcases gives_bind.mp h with ⟨f, failed, rfl⟩ | ⟨program, m₁, prepared, invoking⟩
  · exact .inl ⟨((keeps_prepare _ _ _).fails failed).toFrame.mono clips, by simp⟩
  have before := (keeps_prepare _ _ _).ends prepared
  obtain ⟨placed, output⟩ := ends_prepare prepared
  have invokes : Keeps (Frame files.paths)
      (Invocation.invoke program (s.get .engine) (s.get .engineTimeout)) := by
    refine (Invocation.keeps_invoke program _ _).mono fun m n frame => frame.mono ?_
    rw [output, Path.ofText_text tidy]
    simpa using files.output_mem
  rcases gives_bind.mp invoking with ⟨f, failed, rfl⟩ | ⟨result, m₂, invoked, checking⟩
  · exact .inl ⟨(before.toFrame.mono clips).trans (invokes.fails failed), by simp⟩
  have frame := (before.toFrame.mono clips).trans (invokes.ends invoked)
  split at checking
  · obtain ⟨rfl, rfl⟩ := gives_pure.mp checking
    exact .inl ⟨frame, by simp [Result.failed]⟩
  rename_i success
  rcases gives_bind.mp checking with ⟨f, failed, rfl⟩ | ⟨isThere, m₃, asked, publishing⟩
  · obtain ⟨rfl, -⟩ := fails_askTree failed
    exact .inl ⟨frame, by simp⟩
  obtain ⟨there, rfl⟩ := ends_askTree asked
  split at publishing
  · obtain ⟨rfl, rfl⟩ := gives_pure.mp publishing
    exact .inl ⟨frame, by simp [Result.failed]⟩
  rename_i found
  rcases gives_publish publishing with ⟨quiet, f, rfl⟩ | ⟨k, url, added, stored, listed, rfl⟩
  · exact .inl ⟨frame.trans (quiet.toFrame.mono (by simp)), by simp⟩
  · refine .inr ⟨m₃, k, url, added, frame, ⟨fun p hp => ?_, ?_⟩, stored, listed, rfl⟩
    · by_cases clip : p ∈ [files.hook, files.demo]
      · obtain ⟨l, known⟩ := placed p clip
        exact ⟨l, (invokes.ends invoked).place known⟩
      · obtain rfl : p = files.output := by simp_all [JobFiles.paths]
        obtain rfl : isThere = true := by simpa using found
        exact FileTree.place_of_isThere there
    · obtain ⟨-, stderr, text, j, i, shape, run, wrote, after⟩ | ⟨fault, rfl⟩ :=
        Invocation.ends_invoke invoked
      · exact ⟨stderr, text, j, i, _, before.upcoming.symm.trans shape,
          before.toFrame.trans (run.mono (by simp)), output _, wrote, after⟩
      · simp [Engine.Result.success] at success

end Pipeline
end Splice
