import Splice.Invocation
import Splice.Proofs.Frame

/-! # What the engine changes

A run of the engine writes the file that its command names last, and nothing else. When a program was
run with success, the next process of the engine ended well, and whatever it wrote is in that file.
-/

namespace Splice

open Splice.Action Machine

/-- How the next process of the engine goes. -/
def Machine.upcoming (m : Machine) : Engine.Run :=
  match m.runs with
  | [] => .ended 0 "" none
  | r :: _ => r

theorem Machine.Quiet.upcoming {paths : List Path} {m n : Machine} (h : Quiet paths m n) :
    n.upcoming = m.upcoming := by
  rw [Machine.upcoming, Machine.upcoming, h.runs]

namespace Invocation

variable {m n : Machine} {paths : List Path} {engine : Option String} {limit : Option Binary64}

theorem keeps_note (e : ProcessEvent) : Keeps (Quiet paths) (note e) :=
  keeps_modify fun _ => quiet_of_tree rfl rfl rfl rfl rfl

theorem keeps_listFilters (engine : Option String) : Keeps (Quiet paths) (listFilters engine) := by
  refine keeps_bind (keeps_note _) fun _ => keeps_bind keeps_get fun k => ?_
  split
  · exact keeps_throw _
  · exact keeps_throw _
  · exact keeps_bind (keeps_modify fun _ => quiet_of_tree rfl rfl rfl rfl rfl) fun _ => keeps_pure _

theorem keeps_checkFilters (engine : Option String) (required : List String) :
    Keeps (Quiet paths) (checkFilters engine required) := by
  have available : Keeps (Quiet paths) (availableFilters engine) := by
    refine keeps_bind keeps_get fun k => ?_
    split
    · exact keeps_pure _
    · exact keeps_listFilters engine
  refine keeps_bind available fun names => ?_
  dsimp only
  split
  · exact keeps_throw _
  · exact keeps_pure _

theorem ends_nextRun {r : Engine.Run} (h : Ends nextRun m r n) :
    r = m.upcoming ∧ Frame paths m n := by
  have spent : ∀ runs, Frame paths m { m with runs } := fun _ =>
    ⟨rfl, rfl, rfl, fun _ => id, id, fun _ _ _ => rfl⟩
  simp only [nextRun, ends_bind, ends_get] at h
  obtain ⟨_, _, ⟨rfl, rfl⟩, h⟩ := h
  unfold upcoming
  split at h
  · obtain ⟨rfl, rfl⟩ := ends_pure.mp h
    rename_i none
    exact ⟨by rw [none], .refl n⟩
  · obtain ⟨rfl, rfl⟩ := ends_pure.mp h
    rename_i one
    exact ⟨by rw [one], .refl n⟩
  · simp only [ends_bind, ends_set, ends_pure] at h
    obtain ⟨_, _, rfl, rfl, rfl⟩ := h
    rename_i more
    exact ⟨by rw [more], spent _⟩

theorem not_fails_nextRun {f : Failure} : ¬ Fails nextRun m f n := by
  intro h
  simp only [nextRun, fails_bind, not_fails_get, ends_get, false_or] at h
  obtain ⟨_, _, ⟨rfl, rfl⟩, h⟩ := h
  split at h
  · exact not_fails_pure h
  · exact not_fails_pure h
  · simp only [fails_bind, not_fails_set, not_fails_pure, and_false, exists_false, or_false] at h

theorem keeps_nextRun : Keeps (Frame paths) nextRun :=
  keeps_iff.mpr ⟨fun _ _ _ h => (ends_nextRun h).2, fun _ _ _ h => absurd h not_fails_nextRun⟩

theorem keeps_writeOutput (command : List (Option String)) (output : Option String) :
    Keeps (Quiet [outputOf command]) (writeOutput command output) := by
  unfold writeOutput
  split
  · exact keeps_write _ _
  · exact keeps_pure _

theorem ends_writeOutput {command : List (Option String)} {content : String}
    (h : Ends (writeOutput command (some content)) m () n) :
    ∃ l, m.tree.place m.here (outputOf command) = .ok l ∧
      n = { m with tree := m.tree.put l content } := by
  simp only [writeOutput] at h
  obtain ⟨l, placed, -, left⟩ := ends_write h
  exact ⟨l, placed, left⟩

theorem keeps_run (command : List (Option String)) (limit : Option Binary64) :
    Keeps (Frame [outputOf command]) (run command limit) := by
  have quiet {α : Type} {x : Action α} (h : Keeps (Quiet [outputOf command]) x) :
      Keeps (Frame [outputOf command]) x := h.mono fun _ _ => Quiet.toFrame
  refine keeps_bind (keeps_need _) fun text => keeps_bind (quiet (keeps_log _ _ _)) fun _ =>
    keeps_bind (quiet (keeps_note _)) fun _ => keeps_bind keeps_nextRun fun r => ?_
  split
  · exact keeps_throw _
  · exact keeps_bind (quiet (keeps_writeOutput _ _)) fun _ =>
      keeps_bind (quiet (keeps_note _)) fun _ => keeps_throw _
  · refine keeps_bind (quiet (keeps_writeOutput _ _)) fun _ => ?_
    split
    · exact keeps_throw _
    · exact keeps_pure _

/-- A command that ends well wrote its output, if the process had one. -/
theorem ends_run {command : List (Option String)} {u : Unit} (h : Ends (run command limit) m u n) :
    ∃ stderr output k, m.upcoming = .ended 0 stderr output ∧ Frame [] m k ∧
      Ends (writeOutput command output) k () n := by
  simp only [run, ends_bind, ends_need] at h
  obtain ⟨text, _, ⟨-, rfl⟩, _, j, noted, _, i, started, r, k, next, h⟩ := h
  have before : Quiet [] _ i := ((keeps_log _ _ _).ends noted).trans ((keeps_note _).ends started)
  obtain ⟨rfl, after⟩ := ends_nextRun next
  split at h
  · exact absurd h not_ends_throw
  · simp only [ends_bind, not_ends_throw, and_false, exists_false] at h
  · rename_i code stderr output shape
    obtain ⟨_, k', wrote, h⟩ := ends_bind.mp h
    split at h
    · exact absurd h not_ends_throw
    · rename_i zero
      obtain ⟨-, rfl⟩ := ends_pure.mp h
      obtain rfl : code = 0 := by simpa using zero
      exact ⟨stderr, output, k, before.upcoming.symm.trans shape, before.toFrame.trans after, wrote⟩

variable {p : Program}

theorem keeps_invoke (p : Program) (engine : Option String) (limit : Option Binary64) :
    Keeps (Frame [outputOf (p.command engine)]) (invoke p engine limit) := by
  have quiet {α : Type} {x : Action α} (h : Keeps (Quiet [outputOf (p.command engine)]) x) :
      Keeps (Frame [outputOf (p.command engine)]) x := h.mono fun _ _ => Quiet.toFrame
  refine keeps_bind (quiet (keeps_log _ _ _)) fun _ => keeps_tryCatch ?_ fun f => ?_
  · have rest : Keeps (Frame [outputOf (p.command engine)]) (do
        run (p.command engine) limit
        log (source 154) .info "   ✓ ffmpeg completed successfully"
        return ({} : Engine.Result)) :=
      keeps_bind (keeps_run _ limit) fun _ => keeps_bind (quiet (keeps_log _ _ _)) fun _ =>
        keeps_pure _
    split
    · exact keeps_bind (quiet (keeps_checkFilters _ _)) fun _ => rest
    · exact rest
  · split
    · exact keeps_bind (quiet (keeps_log _ _ _)) fun _ => keeps_pure _
    · exact keeps_throw _

/-- A program that was run wrote its output, if the process had one; or the outcome says what is wrong
with the engine. -/
theorem ends_invoke {r : Engine.Result} (h : Ends (invoke p engine limit) m r n) :
    (r = {} ∧ ∃ stderr output j k, m.upcoming = .ended 0 stderr output ∧ Frame [] m j ∧
      Ends (writeOutput (p.command engine) output) j () k ∧ Quiet [] k n) ∨
    ∃ fault : Engine.Fault, r = ⟨some fault.message, fault.isTimeout⟩ := by
  simp only [invoke, ends_bind (x := log _ _ _)] at h
  obtain ⟨_, m₁, noted, h⟩ := h
  have noted : Quiet [] m m₁ := (keeps_log _ _ _).ends noted
  have rest : ∀ {k}, Quiet [] m k → Ends (do
      run (p.command engine) limit
      log (source 154) .info "   ✓ ffmpeg completed successfully"
      return ({} : Engine.Result)) k r n → r = {} ∧ ∃ stderr output j k,
      m.upcoming = .ended 0 stderr output ∧ Frame [] m j ∧
      Ends (writeOutput (p.command engine) output) j () k ∧ Quiet [] k n := by
    intro k before ended
    simp only [ends_bind, ends_pure] at ended
    obtain ⟨_, i, ran, _, _, noted, same, rfl⟩ := ended
    obtain ⟨stderr, output, j, shape, frame, wrote⟩ := ends_run ran
    exact ⟨same, stderr, output, j, i, before.upcoming.symm.trans shape, before.toFrame.trans frame,
      wrote, (keeps_log _ _ _).ends noted⟩
  rcases ends_tryCatch.mp h with ended | ⟨f, k, -, h⟩
  · left
    split at ended
    · obtain ⟨_, i, checked, ended⟩ := ends_bind.mp ended
      exact rest (noted.trans ((keeps_checkFilters _ _).ends checked)) ended
    · exact rest noted ended
  · right
    split at h
    · rename_i fault
      obtain ⟨_, _, -, h⟩ := ends_bind.mp h
      obtain ⟨rfl, -⟩ := ends_pure.mp h
      exact ⟨fault, rfl⟩
    · exact absurd h not_ends_throw

end Invocation
end Splice
