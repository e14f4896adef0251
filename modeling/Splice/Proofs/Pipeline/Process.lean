import Splice.Proofs.Pipeline.Render

/-! # What processing a job leaves behind

Whatever becomes of a job, none of its files is left, and of all other files only the one that its
output is stored in may have changed. Unless the job succeeds the library is the same, and that file is
touched only when the library refuses the output.
-/

namespace Splice.Pipeline

open Splice.Action Machine

variable {m n : Machine} {job : Job} {s : Settings} {store : Location} {storage : Storage}

section CleanUp

variable {path : String} {texts : List String} {o : Except Failure Unit}

/-- The file of a path is removed; or it cannot be, and only the log is told, unless the path itself is
at fault. -/
theorem gives_removeFile (h : Gives (removeFile path) m o n) :
    (∃ l, m.tree.place m.here (.ofText path) = .ok l ∧ o = .ok () ∧
      n = { m with tree := m.tree.erase l }) ∨
    ∃ fault, m.tree.remove m.here (.ofText path) = .error fault ∧
      ((fault.system? = none ∧ o = .error (.file ⟨fault, path⟩) ∧ n = m) ∨
        o = .ok () ∧ Quiet [] m n ∧ Shrinks m n) := by
  rcases gives_bind.mp h with ⟨f, failed, -⟩ | ⟨_, _, got, next⟩
  · exact absurd failed not_fails_get
  obtain ⟨rfl, rfl⟩ := ends_get.mp got
  dsimp only at next
  split at next
  · rename_i tree removed
    obtain ⟨l, placed, rfl⟩ := FileTree.remove_eq_ok removed
    cases o with
    | ok u => exact .inl ⟨l, placed, rfl, ends_set.mp (gives_ok.mp next)⟩
    | error f => exact absurd (gives_error.mp next) not_fails_set
  · rename_i missing
    obtain ⟨rfl, rfl⟩ := gives_pure.mp next
    exact .inr ⟨_, missing, .inr ⟨rfl, .refl n, refl_of Shrinks n⟩⟩
  · rename_i nullByte
    obtain ⟨rfl, rfl⟩ := gives_throw.mp next
    exact .inr ⟨_, nullByte, .inl ⟨rfl, rfl, rfl⟩⟩
  · rename_i unencodable
    obtain ⟨rfl, rfl⟩ := gives_throw.mp next
    exact .inr ⟨_, unencodable, .inl ⟨rfl, rfl, rfl⟩⟩
  · rename_i fault _ _ _ refused
    cases o with
    | ok u => exact .inr ⟨fault, refused, .inr ⟨rfl, (keeps_log _ _ _).ends (gives_ok.mp next),
        (keeps_log_shrinks _ _ _).ends (gives_ok.mp next)⟩⟩
    | error f => exact absurd (gives_error.mp next) not_fails_modify

theorem keeps_removeFile (path : String) : Keeps (Quiet [.ofText path]) (removeFile path) := by
  intro m o n h
  obtain ⟨l, placed, -, rfl⟩ | ⟨fault, -, ⟨-, -, rfl⟩ | ⟨-, quiet, -⟩⟩ := gives_removeFile h
  · exact quiet_of_erase placed
  · exact .refl n
  · exact quiet.mono (by simp)

theorem keeps_removeFile_shrinks (path : String) : Keeps Shrinks (removeFile path) := by
  intro m o n h
  obtain ⟨l, placed, -, rfl⟩ | ⟨fault, -, ⟨-, -, rfl⟩ | ⟨-, -, shrinks⟩⟩ := gives_removeFile h
  · exact ⟨rfl, fun _ => rfl, fun k none => by rw [FileTree.content?_erase, none, ite_self]⟩
  · exact refl_of Shrinks n
  · exact shrinks

theorem free_of_removeFile (sound : m.tree.Sound) (h : Gives (removeFile path) m o n) :
    Free n (.ofText path) := by
  obtain ⟨l, placed, -, rfl⟩ | ⟨fault, failed, same⟩ := gives_removeFile h
  · intro k found
    have same := (FileTree.place_congr (m.tree.isDirectory_erase l)).mp found
    obtain rfl := Except.ok.inj (placed.symm.trans same)
    simp
  · have free : Free m (.ofText path) := fun l placed => FileTree.remove_eq_error sound failed placed
    rcases same with ⟨-, -, rfl⟩ | ⟨-, -, shrinks⟩
    · exact free
    · exact free.shrinks shrinks

theorem cleanUp_cons (text : String) (rest : List String) :
    cleanUp (text :: rest) = removeFile text >>= fun _ => cleanUp rest := rfl

theorem keeps_cleanUp (texts : List String) :
    Keeps (Quiet (texts.map Path.ofText)) (cleanUp texts) := by
  induction texts with
  | nil => exact keeps_pure _
  | cons text rest ih =>
      rw [cleanUp_cons]
      exact keeps_bind ((keeps_removeFile text).mono fun _ _ h => h.mono (by simp)) fun _ =>
        ih.mono fun _ _ h => h.mono (by simp)

theorem keeps_cleanUp_shrinks (texts : List String) : Keeps Shrinks (cleanUp texts) := by
  induction texts with
  | nil => exact keeps_pure _
  | cons text rest ih =>
      rw [cleanUp_cons]
      exact keeps_bind (keeps_removeFile_shrinks text) fun _ => ih

/-- If the file system has the same against all paths, none of them leads to a file after they were
cleaned up: either each removal was tried, or no path leads anywhere. -/
theorem free_of_cleanUp (sound : m.tree.Sound) {fault : Option FileFault}
    (same : ∀ text ∈ texts, FileFault.ofPath? (.ofText text) = fault)
    (h : Gives (cleanUp texts) m o n) : ∀ text ∈ texts, Free n (.ofText text) := by
  induction texts generalizing m with
  | nil => simp
  | cons text rest ih =>
      rw [cleanUp_cons] at h
      rcases gives_bind.mp h with ⟨f, failed, -⟩ | ⟨_, k, removed, others⟩
      · obtain ⟨l, -, absurd, -⟩ | ⟨f, refused, ⟨own, -, rfl⟩ | ⟨absurd, -⟩⟩ :=
          gives_removeFile (gives_error.mpr failed)
        · cases absurd
        · intro t ht l placed
          have clean := (FileTree.place_eq_ok placed).1
          rw [same t ht, ← same text (by simp), FileTree.ofPath?_of_remove refused own] at clean
          cases clean
        · cases absurd
      · have sound' := ((keeps_removeFile text).ends removed).sound sound
        intro t ht
        rcases List.mem_cons.mp ht with rfl | ht
        · have less := keeps_cleanUp_shrinks rest k o n others
          exact (free_of_removeFile sound (gives_ok.mpr removed)).shrinks less
        · exact ih sound' (fun t ht => same t (List.mem_cons_of_mem text ht)) others t ht

theorem not_fails_cleanUp {f : Failure}
    (clean : ∀ text ∈ texts, FileFault.ofPath? (.ofText text) = none) :
    ¬ Fails (cleanUp texts) m f n := by
  induction texts generalizing m with
  | nil => exact not_fails_pure
  | cons text rest ih =>
      intro h
      rw [cleanUp_cons] at h
      rcases fails_bind.mp h with failed | ⟨_, k, -, failed⟩
      · obtain ⟨l, -, absurd, -⟩ | ⟨f, refused, ⟨own, -, rfl⟩ | ⟨absurd, -⟩⟩ :=
          gives_removeFile (gives_error.mpr failed)
        · cases absurd
        · have found := clean text (by simp)
          rw [FileTree.ofPath?_of_remove refused own] at found
          cases found
        · cases absurd
      · exact ih (fun t ht => clean t (List.mem_cons_of_mem text ht)) failed

end CleanUp

/-! ## The whole -/

/-- The outcome of a job whose rendering had an outcome: some failures are outcomes themselves. -/
def reported : Except Failure Result → Except Failure Result
  | .ok r => .ok r
  | .error f => if f.isReported then .ok (.failed (some f.message)) else .error f

variable {directory : Path} {o : Except Failure Result} {start : Machine}

theorem gives_report {x : Action Result} (h : Gives (tryCatch x report) m o n) :
    ∃ r, Gives x m r n ∧ o = reported r := by
  rcases gives_tryCatch.mp h with ⟨a, ended, rfl⟩ | ⟨f, k, failed, handled⟩
  · exact ⟨.ok a, ended, rfl⟩
  · simp only [report] at handled
    split at handled
    · obtain ⟨rfl, rfl⟩ := gives_pure.mp handled
      exact ⟨.error f, failed, by simp [reported, *]⟩
    · obtain ⟨rfl, rfl⟩ := gives_throw.mp handled
      exact ⟨.error f, failed, by simp [reported, *]⟩

/-- Processing renders a job, makes an outcome of a failure that is one, and cleans up. -/
theorem gives_process (given : s.get .temporary = some directory)
    (made : Ends (makeDirectories directory) m () start)
    (h : Gives (process job s store storage) m o n) :
    ∃ r k c, Gives (render job s (.of job directory) store storage) start r k ∧
      Gives (cleanUp (JobFiles.of job directory).all) k c n ∧ o = c.bind fun _ => reported r := by
  rcases gives_bind.mp h with ⟨f, failed, -⟩ | ⟨d, _, got, making⟩
  · have unset := (fails_need.mp failed).1
    rw [given] at unset
    cases unset
  obtain ⟨set, rfl⟩ := ends_need.mp got
  obtain rfl := Option.some.inj (given.symm.trans set)
  rcases gives_bind.mp making with ⟨f, failed, -⟩ | ⟨_, k₀, made', rendering⟩
  · cases (Gives.unique (gives_ok.mpr made) (gives_error.mpr failed)).1
  obtain ⟨-, rfl⟩ := made.unique made'
  rcases gives_bind.mp rendering with ⟨f, failed, -⟩ | ⟨outcome, k, attempted, cleaning⟩
  · exact absurd failed not_fails_attempt
  obtain ⟨r, rendered, rfl⟩ := gives_report (ends_attempt.mp attempted)
  rcases gives_bind.mp cleaning with ⟨f, failed, rfl⟩ | ⟨_, j, cleaned, last⟩
  · exact ⟨r, k, .error f, rendered, failed, rfl⟩
  · refine ⟨r, k, .ok (), rendered, ?_⟩
    split at last
    · rename_i a told
      obtain ⟨rfl, rfl⟩ := gives_pure.mp last
      exact ⟨cleaned, told.symm⟩
    · rename_i f told
      obtain ⟨rfl, rfl⟩ := gives_throw.mp last
      exact ⟨cleaned, told.symm⟩

/-- None of a job's files is left. Either only they have changed, and the job has no success; or it was
published before they were removed, and its outcome is what that gave. -/
theorem process_cases (tidy : directory.Tidy) (sound : m.tree.Sound)
    (given : s.get .temporary = some directory)
    (made : Ends (makeDirectories directory) m () start)
    (h : Gives (process job s store storage) m o n) :
    (∀ p ∈ (JobFiles.of job directory).paths, Free n p) ∧
      ((Frame (JobFiles.of job directory).paths m n ∧ ∀ r, o = .ok r → r.success = false) ∨
        ∃ r k, Published job (.of job directory) store storage m r k ∧ o = reported r ∧
          Quiet (JobFiles.of job directory).paths k n) := by
  obtain ⟨r, k, c, rendered, cleaned, rfl⟩ := gives_process given made h
  have before : Quiet [] m start := (keeps_makeDirectories directory).ends made
  have tidy : ∀ p ∈ (JobFiles.of job directory).paths, p.Tidy := JobFiles.tidy tidy
  have texts : (JobFiles.of job directory).all = (JobFiles.of job directory).paths.map Path.text := rfl
  rw [texts] at cleaned
  have after : Quiet (JobFiles.of job directory).paths k n := by
    have again : ((JobFiles.of job directory).paths.map Path.text).map Path.ofText =
        (JobFiles.of job directory).paths := by
      rw [List.map_map]
      exact (List.map_congr_left fun p hp => Path.ofText_text (tidy p hp)).trans (List.map_id _)
    exact again ▸ keeps_cleanUp _ _ _ _ cleaned
  have frees (stays : k.tree.Sound) : ∀ p ∈ (JobFiles.of job directory).paths, Free n p := by
    obtain ⟨fault, same⟩ := JobFiles.ofPath?_eq job directory
    have texts : ∀ text ∈ (JobFiles.of job directory).paths.map Path.text,
        FileFault.ofPath? (.ofText text) = fault := by
      intro text ht
      obtain ⟨q, hq, rfl⟩ := List.mem_map.mp ht
      rw [Path.ofText_text (tidy q hq), same q hq]
    intro p hp
    rw [← Path.ofText_text (tidy p hp)]
    exact free_of_cleanUp stays texts cleaned _ (List.mem_map_of_mem hp)
  rcases gives_render (tidy _ (JobFiles.output_mem _)) rendered with ⟨frame, without⟩ | published
  · refine ⟨frees (frame.sound (before.sound sound)), .inl ⟨?_, fun a told => ?_⟩⟩
    · exact ((before.toFrame.mono (by simp)).trans frame).trans after.toFrame
    · cases c with
      | error f => cases told
      | ok u =>
          cases r with
          | ok b => exact Except.ok.inj told ▸ without b rfl
          | error f =>
              have told : reported (.error f) = .ok a := told
              simp only [reported] at told
              split at told
              · exact Except.ok.inj told ▸ rfl
              · cases told
  · refine ⟨frees (published.sound (before.sound sound)), .inr ⟨r, k, published.of_quiet before, ?_, after⟩⟩
    cases c with
    | ok u => rfl
    | error f =>
        refine absurd cleaned (not_fails_cleanUp fun text ht => ?_)
        obtain ⟨p, hp, rfl⟩ := List.mem_map.mp ht
        obtain ⟨l, placed⟩ := published.placed p hp
        rw [Path.ofText_text (tidy p hp)]
        exact (FileTree.place_eq_ok placed).1

/-- A file of a published job's machine is the one from before, unless it is the one that the output is
stored in, or one of the job's own or of the log. -/
theorem Published.content {files : JobFiles} {r : Except Failure Result} {k : Machine}
    (h : Published job files store storage m r k) (plain : ".." ∉ m.here) {l : Location}
    (silent : l ∉ m.outlet.files) (free : ∀ p ∈ files.paths, k.tree.place k.here p ≠ .ok l)
    (other : l ≠ storage.placeOf m.here (storageKey job)) :
    k.tree.content? l = m.tree.content? l := by
  obtain ⟨j, i, url, added, frame, -, stored, listed, -⟩ := h
  have stores := Storage.keeps_upload_ended stored
  have books := Jobs.keeps_addVideo _ _ _ _ _ _ _ _ listed
  have target : ".." ∉ storage.placeOf j.here (storageKey job) :=
    Storage.up_not_mem_placeOf (frame.here ▸ plain) _ _
  rw [books] at free ⊢
  have untouched : i.tree.content? l = j.tree.content? l := by
    refine stores.content l (frame.outlet ▸ silent) fun p hp placed => ?_
    obtain rfl := List.mem_singleton.mp hp
    rw [(FileTree.place_eq_ok placed).2, Path.locate_ofLocation target, frame.here] at other
    exact other rfl
  rw [show Machine.tree _ = i.tree from rfl, untouched]
  exact frame.content l silent fun p hp placed => free p hp (stores.place placed)

/-- The current directory is as it was, and so is every file that is not one of the job's, nor the log's,
nor the one that its output is stored in. -/
theorem process_content (tidy : directory.Tidy) (given : s.get .temporary = some directory)
    (made : Ends (makeDirectories directory) m () start) (sound : m.tree.Sound)
    (plain : ".." ∉ m.here) (h : Gives (process job s store storage) m o n) :
    n.here = m.here ∧ ∀ l, l ∉ m.outlet.files →
      (∀ p ∈ (JobFiles.of job directory).paths, n.tree.place n.here p ≠ .ok l) →
      l ≠ storage.placeOf m.here (storageKey job) → n.tree.content? l = m.tree.content? l := by
  obtain ⟨-, ⟨frame, -⟩ | ⟨r, k, published, rfl, after⟩⟩ := process_cases tidy sound given made h
  · exact ⟨frame.here, fun l silent apart _ => frame.content l silent apart⟩
  · obtain ⟨here, outlet⟩ := published.surroundings
    refine ⟨after.here.trans here, fun l silent apart other => ?_⟩
    rw [after.content l (outlet ▸ silent) apart]
    exact published.content plain silent (fun p hp placed => apart p hp (after.place placed)) other

/-- Surroundings in which a job succeeds, with a log that takes warnings. -/
def trial : Machine where
  tree := ⟨[(["a.mp4"], "clip none audio"), (["log.txt"], "")], []⟩
  stores := [(["jobs.db"], {})]
  runs := [.ended 0 "" (some "rendered")]
  outlet := { threshold := Log.Level.warning.weight, files := [["log.txt"]] }

def trialJob : Job := ⟨"1", "u", "a.mp4", "a.mp4", none, none⟩

/-- A storage whose addresses have no bytes, so that no table takes them. -/
def refusedStorage : Storage := .of (.ofText "storage") (some (String.ofList (Text.ofCode 0xDC80)))

def refusal : Action Result :=
  process trialJob (.default ⟨none, "ffmpeg", fun _ => false⟩) ["jobs.db"] refusedStorage

theorem refusal_eq : (refusal.run.run trial).1.toOption = none ∧
    (after refusal trial).tree.content? ["storage", "u", "output", "1.mp4"] = some "rendered" ∧
    trial.tree.content? ["log.txt"] ≠ (after refusal trial).tree.content? ["log.txt"] := by
  decide +kernel

end Splice.Pipeline
