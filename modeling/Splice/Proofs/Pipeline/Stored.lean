import Splice.Proofs.Pipeline.Outcome
import Splice.Proofs.Pipeline.Places

/-! # What a job stores

When no file is at the places of a job's files before it is processed, then all that processing changes
is the file that the output is stored in, and that only with success. The file then holds what the engine
wrote.
-/

namespace Splice

open Splice.Action Machine

variable {m n k : Machine}

namespace Machine

/-- Of all files only those at some places, and those of the log, may have changed. -/
structure Still (places : List Location) (m n : Machine) : Prop where
  here : n.here = m.here
  outlet : n.outlet = m.outlet
  sound : m.tree.Sound → n.tree.Sound
  content : ∀ l, l ∉ m.outlet.files → l ∉ places → n.tree.content? l = m.tree.content? l

namespace Still

variable {places : List Location}

theorem refl (m : Machine) : Still places m m := ⟨rfl, rfl, id, fun _ _ _ => rfl⟩

theorem trans (h : Still places m k) (h' : Still places k n) : Still places m n where
  here := h'.here.trans h.here
  outlet := h'.outlet.trans h.outlet
  sound known := h'.sound (h.sound known)
  content l silent free := (h'.content l (h.outlet ▸ silent) free).trans (h.content l silent free)

theorem mono (h : Still places m n) {more : List Location} (sub : places ⊆ more) : Still more m n :=
  ⟨h.here, h.outlet, h.sound, fun l silent free => h.content l silent fun hl => free (sub hl)⟩

end Still

theorem Quiet.still (h : Quiet [] m n) : Still [] m n :=
  ⟨h.here, h.outlet, h.sound, fun l silent _ => h.content l silent (by simp)⟩

theorem still_of_bookkeeping (h : Jobs.Bookkeeping m n) : Still [] m n := by
  rw [h]
  exact ⟨rfl, rfl, id, fun _ _ _ => rfl⟩

end Machine

namespace Pipeline

variable {job : Job} {s : Settings} {directory : Path} {store : Location} {storage : Storage}
  {o : Except Failure Result}

/-- No file is at the places of a job's files, and no log is written there. -/
structure Clear (job : Job) (directory : Path) (m : Machine) : Prop where
  free : ∀ p ∈ (JobFiles.of job directory).paths, m.tree.content? (p.locate m.here) = none
  silent : ∀ p ∈ (JobFiles.of job directory).paths, p.locate m.here ∉ m.outlet.files

/-- What the engine wrote is at the place of the job's output, and nothing else can be. -/
theorem Rendered.content (tidy : directory.Tidy) (clear : Clear job directory m)
    (h : Rendered (.of job directory) m n) {l : Location} {content : String}
    (placed : n.tree.place n.here (JobFiles.of job directory).output = .ok l)
    (held : n.tree.content? l = some content) :
    ∃ stderr, m.upcoming = .ended 0 stderr (some content) := by
  obtain ⟨stderr, output, j, i, command, shape, before, same, wrote, after⟩ := h.engine
  have mem := (JobFiles.of job directory).output_mem
  rw [Path.ofText_text (JobFiles.tidy tidy _ mem)] at same
  have steady : i.here = j.here ∧ i.outlet = j.outlet := by
    have wrote := (Invocation.keeps_writeOutput _ _).ends wrote
    exact ⟨wrote.here, wrote.outlet⟩
  have here : n.here = m.here := (after.here.trans steady.1).trans before.here
  have place := (FileTree.place_eq_ok placed).2
  rw [here] at place
  subst place
  have silent := clear.silent _ mem
  rw [after.content _ (by rwa [steady.2, before.outlet]) (by simp)] at held
  cases output with
  | none =>
      -- the engine wrote nothing, and the downloads went elsewhere
      obtain ⟨-, rfl⟩ := ends_pure.mp wrote
      rw [before.content _ silent fun p hp at_ => ?_, clear.free _ mem] at held
      · cases held
      · have place := (FileTree.place_eq_ok at_).2
        rw [before.here] at place
        exact JobFiles.output_apart hp place.symm
  | some text =>
      obtain ⟨l, at_, rfl⟩ := Invocation.ends_writeOutput wrote
      have place := (FileTree.place_eq_ok at_).2
      rw [same, before.here] at place
      obtain rfl : text = content := by simpa [place] using held
      exact ⟨stderr, shape⟩

/-- What a job with success leaves: the storage has what the engine wrote for it, and the library has a
row of it. -/
structure Stored (job : Job) (store : Location) (storage : Storage) (m : Machine) (r : Result)
    (n : Machine) : Prop where
  below : Storage.isBelow (storage.root.locate m.here) (storage.placeOf m.here (storageKey job)) = true
  file : ∃ stderr content, m.upcoming = .ended 0 stderr (some content) ∧
    n.tree.content? (storage.placeOf m.here (storageKey job)) = some content
  row : ∃ url t id now, r = ⟨true, some url, none⟩ ∧ url ≠ "" ∧ m.stores.lookup store = some t ∧
    n.stores.lookup store = some { t with
      videos := t.videos ++ [⟨id, job.user, url, outputName job, "output", storageKey job, now⟩] }

theorem Stored.unlogged {r : Result} (h : Stored job store storage m r n)
    (silent : ∀ l ∈ m.outlet.files, Storage.isBelow (storage.root.locate m.here) l = false) :
    storage.placeOf m.here (storageKey job) ∉ m.outlet.files := by
  intro known
  have below := h.below
  simp [silent _ known] at below

theorem Published.stored {r : Result} (tidy : directory.Tidy) (clear : Clear job directory m)
    (plain : ".." ∉ m.here)
    (silent : ∀ l ∈ m.outlet.files, Storage.isBelow (storage.root.locate m.here) l = false)
    (h : Published job (.of job directory) store storage m (.ok r) n) :
    Stored job store storage m r n := by
  obtain ⟨j, i, url, added, frame, rendered, stored, listed, same⟩ := h
  obtain ⟨below, k, content, before, read, l, placed, -, after⟩ := Storage.ends_upload stored
  have mem := (JobFiles.of job directory).output_mem
  rw [Storage.CopySource.ofPath] at read
  obtain ⟨l₀, placed₀, held⟩ := FileTree.read_eq_ok (FileTree.readAt_eq_ok read)
  rw [Path.ofText_text (JobFiles.tidy tidy _ mem)] at placed₀
  obtain ⟨l₁, placed₁⟩ := rendered.placed _ mem
  obtain rfl : l₁ = l₀ := Except.ok.inj ((before.place placed₁).symm.trans placed₀)
  have here : l₁ = (JobFiles.of job directory).output.locate m.here :=
    frame.here ▸ (FileTree.place_eq_ok placed₁).2
  have unlogged : l₁ ∉ j.outlet.files := by
    rw [frame.outlet, here]
    exact clear.silent _ mem
  obtain ⟨stderr, shape⟩ := rendered.content tidy clear placed₁
    ((before.content l₁ unlogged (by simp)) ▸ held)
  rw [frame.here] at below placed
  have place := (FileTree.place_eq_ok placed).2
  rw [Path.locate_ofLocation (Storage.up_not_mem_placeOf plain _ _)] at place
  subst place
  cases added with
  | error f => cases same
  | ok u =>
      obtain rfl := Except.ok.inj same
      have books := (Jobs.keeps_addVideo _ _ _ _ _).ends (gives_ok.mp listed)
      obtain ⟨t, id, now, opened, left⟩ := Jobs.ends_addVideo (gives_ok.mp listed)
      refine ⟨below, ⟨stderr, content, shape, ?_⟩, url, t, id, now, rfl,
        Storage.ends_upload_address stored, ?_, left⟩
      · rw [books, show Machine.tree _ = i.tree from rfl, after.content _ ?_ (by simp),
          FileTree.content?_put, if_pos rfl]
        rw [show Machine.outlet _ = k.outlet from rfl, before.outlet, frame.outlet]
        exact fun known => by simp [silent _ known] at below
      · rw [← opened, (Storage.keeps_upload_ended stored).stores, frame.stores]

/-- With nothing at the places of its files, what a job leaves of them is nothing, and all other files
stay. -/
theorem still_of_free {places : List Location} (clear : Clear job directory m) (here : n.here = m.here)
    (outlet : n.outlet = m.outlet) (sound : n.tree.Sound)
    (free : ∀ p ∈ (JobFiles.of job directory).paths, Free n p)
    (content : ∀ l, l ∉ m.outlet.files → l ∉ places →
      (∀ p ∈ (JobFiles.of job directory).paths, n.tree.place n.here p ≠ .ok l) →
      n.tree.content? l = m.tree.content? l) : Still places m n := by
  refine ⟨here, outlet, fun _ => sound, fun l silent other => ?_⟩
  by_cases own : ∃ p ∈ (JobFiles.of job directory).paths, n.tree.place n.here p = .ok l
  · obtain ⟨p, hp, placed⟩ := own
    rw [free p hp l placed, (FileTree.place_eq_ok placed).2, here, clear.free p hp]
  · exact content l silent other fun p hp placed => own ⟨p, hp, placed⟩

/-- A job has no success and leaves all files and stores as they were; or what the engine wrote for it is
stored under its key, and it has a row in the library. -/
theorem process_stored (tidy : ∀ directory, s.get .temporary = some directory → directory.Tidy)
    (clear : ∀ directory, s.get .temporary = some directory → Clear job directory m)
    (id : Text.IsId job.id) (sound : m.tree.Sound) (plain : ".." ∉ m.here)
    (silent : ∀ l ∈ m.outlet.files, Storage.isBelow (storage.root.locate m.here) l = false)
    (h : Gives (process job s store storage) m o n)
    (written : ∀ f, o = .error f → f ≠ .clock ∧ ∀ fault, f ≠ .store fault) :
    (Still [] m n ∧ n.stores = m.stores ∧ ∀ r, o = .ok r → r.success = false) ∨
      (Still [storage.placeOf m.here (storageKey job)] m n ∧
        ∃ r, o = .ok r ∧ Stored job store storage m r n) := by
  rcases gives_bind.mp h with ⟨f, failed, rfl⟩ | ⟨directory, i, got, making⟩
  · obtain ⟨-, -, rfl⟩ := fails_need.mp failed
    exact .inl ⟨.refl n, rfl, nofun⟩
  obtain ⟨given, same⟩ := ends_need.mp got
  rw [same] at making
  rcases gives_bind.mp making with ⟨f, failed, rfl⟩ | ⟨_, start, made, -⟩
  · obtain ⟨rfl, -⟩ := fails_makeDirectories failed
    exact .inl ⟨.refl n, rfl, nofun⟩
  have tidy := tidy directory given
  have clear := clear directory given
  obtain ⟨free, ⟨frame, without⟩ | ⟨r, k, published, rfl, after⟩⟩ :=
    process_cases tidy sound given made h
  · refine .inl ⟨?_, frame.stores, without⟩
    exact still_of_free clear frame.here frame.outlet (frame.sound sound) free
      fun l silent _ => frame.content l silent
  · obtain ⟨here, outlet⟩ := published.surroundings
    cases r with
    | error f =>
        obtain ⟨cause, -⟩ := published.refused
        have told : reported (.error f) = .error f := by
          rcases cause with rfl | ⟨fault, rfl⟩ <;> rfl
        obtain ⟨notClock, notStore⟩ := written f told
        rcases cause with rfl | ⟨fault, rfl⟩
        · exact absurd rfl notClock
        · exact absurd rfl (notStore fault)
    | ok r =>
        have stored := published.stored tidy clear plain silent
        refine .inr ⟨?_, r, rfl, stored.below, ?_, after.stores ▸ stored.row⟩
        · refine still_of_free clear (after.here.trans here) (after.outlet.trans outlet)
            (after.sound (published.sound sound)) free fun l silent other own => ?_
          rw [after.content l (outlet ▸ silent) own]
          exact published.content plain silent (fun p hp placed => own p hp (after.place placed))
            (by simpa using other)
        · obtain ⟨stderr, content, shape, held⟩ := stored.file
          refine ⟨stderr, content, shape, ?_⟩
          rw [after.content _ (outlet ▸ stored.unlogged silent) fun p hp placed => ?_, held]
          have place := (FileTree.place_eq_ok placed).2
          rw [after.here, here] at place
          exact JobFiles.locate_ne_placeOf id hp place.symm

end Pipeline
end Splice
