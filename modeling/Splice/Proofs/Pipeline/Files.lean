import Splice.Pipeline
import Splice.Proofs.FileTree
import Splice.Proofs.Path

/-! # The files of a job

The paths of a job's files are tidy, and differ only at their ends. So either all of them can be given
to the file system, or none.
-/

namespace Splice

namespace Text

/-- What stands in a file name as it is. -/
def IsPlain (c : Char) : Prop := 0 < c.toNat ∧ c.toNat < 0xD800

theorem isPlain_iff {c : Char} : IsPlain c ↔ (decide (0 < c.toNat) && decide (c.toNat < 0xD800)) = true := by
  simp [IsPlain]

theorem isFileName_codesFrom {cs : List Char} (plain : ∀ c ∈ cs, IsPlain c) (marked : Bool) :
    ((codesFrom marked cs).all fun code => !isSurrogate code || isFileByte code) = true := by
  induction cs generalizing marked with
  | nil => cases marked <;> decide
  | cons c rest ih =>
      obtain ⟨-, low⟩ := plain c (by simp)
      have later := ih fun d hd => plain d (List.mem_cons_of_mem c hd)
      have unmarked : c ≠ privateMark := by
        rintro rfl
        exact absurd low (by decide)
      have notReserved : isReserved c = false := by
        simp [isReserved]
        omega
      have notSurrogate : isSurrogate c.toNat = false := by
        simp [isSurrogate]
        omega
      cases marked <;> simp [codesFrom, unmarked, notReserved, notSurrogate, later]

theorem isFileName_append (s : String) {suffix : String} (plain : ∀ c ∈ suffix.toList, IsPlain c) :
    isFileName (s ++ suffix) = isFileName s := by
  have all : ∀ (cs : List Char) (marked : Bool),
      ((codesFrom marked (cs ++ suffix.toList)).all fun code => !isSurrogate code || isFileByte code) =
        (codesFrom marked cs).all fun code => !isSurrogate code || isFileByte code := by
    intro cs
    induction cs with
    | nil =>
        intro marked
        rw [List.nil_append, isFileName_codesFrom plain, isFileName_codesFrom (by simp)]
    | cons c rest ih =>
        intro marked
        simp only [List.cons_append, codesFrom]
        split
        · rw [List.all_cons, List.all_cons, ih]
        · split
          · rw [ih]
          · rw [List.all_cons, List.all_cons, ih]
  rw [isFileName, isFileName, codes, codes, String.toList_append, all]

end Text

/-- Plain characters at the end of a text are nothing against it. -/
theorem FileFault.ofText?_append (s : String) {suffix : String}
    (plain : ∀ c ∈ suffix.toList, Text.IsPlain c) : ofText? (s ++ suffix) = ofText? s := by
  have null : '\x00' ∉ suffix.toList := fun h => absurd (plain _ h).1 (by decide)
  rw [ofText?, ofText?, Text.isFileName_append s plain, String.toList_append, List.contains_append]
  simp [null]

namespace Pipeline

/-- The ends of the paths of a job's files. -/
def JobFiles.endings : List String := ["-hook.mp4", "-demo.mp4", "-output.mp4"]

def JobFiles.paths (f : JobFiles) : List Path := [f.hook, f.demo, f.output]

namespace JobFiles

variable {job : Job} {directory : Path}

theorem output_mem (f : JobFiles) : f.output ∈ f.paths := by simp [JobFiles.paths]

theorem paths_of (job : Job) (directory : Path) : (JobFiles.of job directory).paths =
    endings.map fun ending => directory.join (.ofText (job.id ++ ending)) := rfl

theorem tidy (tidy : directory.Tidy) : ∀ p ∈ (JobFiles.of job directory).paths, p.Tidy := by
  intro p hp
  rw [paths_of] at hp
  obtain ⟨ending, -, rfl⟩ := List.mem_map.mp hp
  exact tidy.join (Path.ofText_tidy _)

theorem ending_plain {ending : String} (h : ending ∈ endings) :
    '/' ∉ ending.toList ∧ 1 < ending.length ∧ ∀ c ∈ ending.toList, Text.IsPlain c := by
  simp only [Text.isPlain_iff, ← List.all_eq_true]
  revert ending
  decide

/-- The paths have one stem each, and their texts have one. -/
theorem exists_stem (job : Job) (directory : Path) : ∃ root front last stem, ∀ ending ∈ endings,
    directory.join (.ofText (job.id ++ ending)) = ⟨root, front ++ [last ++ ending]⟩ ∧
      Path.text ⟨root, front ++ [last ++ ending]⟩ = stem ++ ending := by
  obtain ⟨root, front, last, parts⟩ := Path.ofText_append job.id
  have joined : ∃ root' front', ∀ ending ∈ endings,
      directory.join (.ofText (job.id ++ ending)) = ⟨root', front' ++ [last ++ ending]⟩ := by
    by_cases absolute : Path.isAbsolute ⟨root, []⟩ = true
    · refine ⟨root, front, fun ending h => ?_⟩
      obtain ⟨slash, long, -⟩ := ending_plain h
      rw [parts ending slash long]
      exact if_pos absolute
    · refine ⟨directory.root, directory.parts ++ front, fun ending h => ?_⟩
      obtain ⟨slash, long, -⟩ := ending_plain h
      rw [parts ending slash long, List.append_assoc]
      exact if_neg absolute
  obtain ⟨root', front', joined⟩ := joined
  obtain ⟨stem, text⟩ := Path.text_last root' front'
  exact ⟨root', front', last, stem ++ last, fun ending h =>
    ⟨joined ending h, by rw [text, String.append_assoc]⟩⟩

/-- The file system has the same against all files of a job. -/
theorem ofPath?_eq (job : Job) (directory : Path) :
    ∃ fault, ∀ p ∈ (JobFiles.of job directory).paths, FileFault.ofPath? p = fault := by
  obtain ⟨root, front, last, stem, same⟩ := exists_stem job directory
  refine ⟨FileFault.ofText? stem, fun p hp => ?_⟩
  rw [paths_of] at hp
  obtain ⟨ending, h, rfl⟩ := List.mem_map.mp hp
  obtain ⟨path, text⟩ := same ending h
  rw [path, FileFault.ofPath?, text, FileFault.ofText?_append stem (ending_plain h).2.2]

/-- The same holds of the paths that are read from their texts. -/
theorem ofPath?_ofText_eq (job : Job) (directory : Path) :
    ∃ fault, ∀ text ∈ (JobFiles.of job directory).all, FileFault.ofPath? (.ofText text) = fault := by
  obtain ⟨root, front, last, stem, same⟩ := exists_stem job directory
  obtain ⟨root', front', last', parts⟩ := Path.ofText_append stem
  obtain ⟨stem', text⟩ := Path.text_last root' front'
  refine ⟨FileFault.ofText? (stem' ++ last'), fun t ht => ?_⟩
  obtain ⟨ending, h, rfl⟩ : ∃ ending ∈ endings,
      t = (directory.join (.ofText (job.id ++ ending))).text := by
    have texts : (JobFiles.of job directory).all =
        endings.map fun ending => (directory.join (.ofText (job.id ++ ending))).text := rfl
    rw [texts] at ht
    obtain ⟨ending, h, rfl⟩ := List.mem_map.mp ht
    exact ⟨ending, h, rfl⟩
  obtain ⟨path, whole⟩ := same ending h
  obtain ⟨slash, long, plain⟩ := ending_plain h
  rw [path, whole, parts ending slash long, FileFault.ofPath?, text, ← String.append_assoc,
    FileFault.ofText?_append _ plain]

end JobFiles
end Pipeline
end Splice
