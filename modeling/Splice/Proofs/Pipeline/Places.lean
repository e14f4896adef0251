import Splice.Proofs.Identifier
import Splice.Proofs.Pipeline.Files
import Splice.Proofs.Storage

/-! # Where the files of jobs are

An identifier has nothing but digits and dashes. So the place where an output is stored ends in the name
that belongs to its job, whatever the job's user is called. It is neither the place of another job's
output nor that of a file in a temporary directory.
-/

namespace Splice

namespace Pipeline

variable {job other : Job} {directory : Path} {storage : Storage} {here : Location}

/-- The name under which a job's output is stored. -/
def storedName (job : Job) : String := job.id ++ ".mp4"

theorem storedName_tidy (id : Text.IsId job.id) : Path.IsTidyStep (storedName job) := by
  refine ⟨Path.isStep_iff.mpr ⟨Path.append_ne_of_length_lt (by decide),
    Path.append_ne_of_length_lt (by decide)⟩, fun slash => ?_⟩
  rw [storedName, String.toList_append] at slash
  rcases List.mem_append.mp slash with slash | slash
  · exact id.not_mem (by decide) slash
  · exact absurd slash (by decide)

theorem storedName_ne_up (job : Job) : storedName job ≠ ".." :=
  Path.append_ne_of_length_lt (by decide)

theorem storageKey_eq (job : Job) :
    storageKey job = (job.user ++ "/output") ++ "/" ++ storedName job := by
  apply String.toList_injective
  simp [storageKey, storedName]

/-- The place of an output ends in its name. -/
theorem exists_placeOf (id : Text.IsId job.id) (storage : Storage) (here : Location) :
    ∃ above, storage.placeOf here (storageKey job) = above ++ [storedName job] := by
  obtain ⟨root, front, path⟩ :=
    Path.ofText_directory (job.user ++ "/output") (storedName_tidy id)
  rw [Storage.placeOf, storageKey_eq, path, Path.join]
  split
  · exact Path.locate_of_last root front (storedName_ne_up job) _
  · rw [← List.append_assoc]
    exact Path.locate_of_last _ _ (storedName_ne_up job) _

/-- Outputs at one place are those of one job. -/
theorem id_eq_of_placeOf_eq (id : Text.IsId job.id) (id' : Text.IsId other.id)
    (same : storage.placeOf here (storageKey job) = storage.placeOf here (storageKey other)) :
    job.id = other.id := by
  obtain ⟨above, place⟩ := exists_placeOf id storage here
  obtain ⟨above', place'⟩ := exists_placeOf id' storage here
  rw [place, place'] at same
  have names : storedName job = storedName other :=
    List.singleton_inj.mp (List.append_inj_right' same rfl)
  exact (String.append_left_inj ".mp4").mp names

/-- The files of a job in its directory have one place but for the ends of their names. -/
theorem JobFiles.exists_above (job : Job) (directory : Path) (here : Location) :
    ∃ above last, ∀ ending ∈ endings,
      (directory.join (.ofText (job.id ++ ending))).locate here = above ++ [last ++ ending] := by
  obtain ⟨root, front, last, stem, same⟩ := exists_stem job directory
  refine ⟨Path.locate here ⟨root, front⟩, last, fun ending h => ?_⟩
  have long : ∀ e ∈ endings, "..".length < e.length := by decide
  have notUp : last ++ ending ≠ ".." := Path.append_ne_of_length_lt (long ending h)
  rw [(same ending h).1, Path.locate_append_singleton notUp]

/-- No file in a temporary directory is where an output is stored. -/
theorem JobFiles.locate_ne_placeOf (id : Text.IsId other.id) {p : Path}
    (hp : p ∈ (JobFiles.of job directory).paths) :
    p.locate here ≠ storage.placeOf here (storageKey other) := by
  obtain ⟨above, last, place⟩ := exists_above job directory here
  obtain ⟨above', place'⟩ := exists_placeOf id storage here
  rw [paths_of] at hp
  obtain ⟨ending, h, rfl⟩ := List.mem_map.mp hp
  rw [place ending h, place']
  intro same
  have names : last ++ ending = storedName other :=
    List.singleton_inj.mp (List.append_inj_right' same rfl)
  have chars := congrArg String.toList names
  simp only [storedName, String.toList_append] at chars
  -- before the part that outputs share, each ending has a letter that no identifier has
  have odd : ∀ e ∈ endings, e.toList = e.toList.take (e.length - 4) ++ ".mp4".toList ∧
      'o' ∈ e.toList.take (e.length - 4) := by decide
  obtain ⟨split, letter⟩ := odd ending h
  rw [split, ← List.append_assoc] at chars
  have id_chars := List.append_cancel_right chars
  exact id.not_mem (by decide) (id_chars ▸ List.mem_append_right _ letter)

/-- A job's output in its directory is apart from its clips. -/
theorem JobFiles.output_apart {p : Path}
    (hp : p ∈ [(JobFiles.of job directory).hook, (JobFiles.of job directory).demo]) :
    p.locate here ≠ (JobFiles.of job directory).output.locate here := by
  obtain ⟨above, last, place⟩ := exists_above job directory here
  have apart : ∀ ending ∈ ["-hook.mp4", "-demo.mp4"],
      (directory.join (.ofText (job.id ++ ending))).locate here ≠
        (directory.join (.ofText (job.id ++ "-output.mp4"))).locate here := by
    intro ending h
    obtain ⟨mem, other⟩ : ending ∈ endings ∧ ending ≠ "-output.mp4" := by
      revert ending
      decide
    rw [place ending mem, place "-output.mp4" (by decide)]
    intro same
    have names : last ++ ending = last ++ "-output.mp4" :=
      List.singleton_inj.mp (List.append_inj_right' same rfl)
    exact other ((String.append_right_inj last).mp names)
  simp only [List.mem_cons, List.not_mem_nil, or_false] at hp
  rcases hp with rfl | rfl
  · exact apart "-hook.mp4" (by decide)
  · exact apart "-demo.mp4" (by decide)

end Pipeline
end Splice
