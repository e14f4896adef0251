import Splice.Proofs.Frame
import Splice.Proofs.Path
import Splice.Storage

/-! # What moving files changes

A download writes the file that it is for, and nothing else; once it ends, the file can be found. An
upload writes the place of its key, strictly below the root, or it fails and writes nothing.
-/

namespace Splice.Storage

open Splice.Action Machine

variable {m n : Machine}

section Download

variable {source : CopySource} {target : Path}

theorem ends_copy {u : Unit} (h : Ends (copy source target) m u n) :
    ∃ content l, m.tree.readAt m.here source.text = .ok content ∧
      m.tree.place m.here target = .ok l ∧ m.tree.isDirectory l = false ∧
      n = { m with tree := m.tree.put l content } := by
  simp only [copy, ends_bind, ends_get] at h
  obtain ⟨_, _, ⟨rfl, rfl⟩, h⟩ := h
  split at h
  · simp only [ends_bind, not_ends_throw, false_and, exists_false] at h
  · simp only [ends_bind] at h
    obtain ⟨content, _, read, h⟩ := h
    obtain ⟨read, rfl⟩ := ends_askTree read
    obtain ⟨l, placed, free, rfl⟩ := ends_write h
    exact ⟨content, l, read, placed, free, rfl⟩

theorem fails_copy {f : Failure} (h : Fails (copy source target) m f n) : n = m := by
  simp only [copy, fails_bind, not_fails_get, ends_get, false_or] at h
  obtain ⟨_, _, ⟨rfl, rfl⟩, h⟩ := h
  split at h
  · simp only [fails_bind, not_ends_throw, false_and, exists_false, or_false, fails_throw] at h
    exact h.2
  · rcases fails_bind.mp h with failed | ⟨content, _, read, failed⟩
    · exact (fails_askTree failed).1
    · obtain ⟨-, rfl⟩ := ends_askTree read
      exact (fails_onTree failed).1

theorem keeps_copy (source : CopySource) (target : Path) : Keeps (Quiet [target]) (copy source target) := by
  refine keeps_iff.mpr ⟨fun m _ n h => ?_, fun m _ n h => ?_⟩
  · obtain ⟨content, l, -, placed, free, rfl⟩ := ends_copy h
    exact quiet_of_put placed free content
  · rw [fails_copy h]
    exact .refl m

theorem keeps_fetch (url : String) (target : Path) : Keeps (Quiet [target]) (fetch url target) := by
  refine keeps_bind keeps_get fun k => ?_
  split
  · exact keeps_throw _
  · exact keeps_bind (keeps_write target _) fun _ => keeps_throw _
  · split
    · exact keeps_throw _
    · exact keeps_write target _

theorem keeps_sizeAt {paths : List Path} (p : Path) : Keeps (Quiet paths) (sizeAt p) :=
  keeps_bind keeps_askTree fun _ => keeps_pure _

theorem keeps_download (url : String) (target : Path) :
    Keeps (Quiet [target]) (download url target) := by
  refine keeps_bind (keeps_makeDirectories _) fun _ => keeps_bind (keeps_log _ _ _) fun _ =>
    keeps_bind (keeps_lift _ _) fun address => ?_
  have rest : Keeps (Quiet [target]) (sizeAt target >>= fun size => log (Storage.source 49) .info
      ("   ✓ Downloaded: " ++ target.text ++ " (" ++ toString size ++ " bytes)")) :=
    keeps_bind (keeps_sizeAt target) fun _ => keeps_log _ _ _
  split
  · exact keeps_bind (keeps_fetch url target) fun _ => rest
  · refine keeps_bind keeps_askTree fun isFile => ?_
    split
    · exact keeps_throw _
    · exact keeps_bind (keeps_copy _ _) fun _ => rest

theorem placed_of_sizeAt {p : Path} {size : Nat} (h : Ends (sizeAt p) m size n) :
    ∃ l, n.tree.place n.here p = .ok l := by
  simp only [sizeAt, ends_bind, ends_pure] at h
  obtain ⟨content, _, read, -, rfl⟩ := h
  obtain ⟨read, rfl⟩ := ends_askTree read
  obtain ⟨l, placed, -⟩ := FileTree.read_eq_ok read
  exact ⟨l, placed⟩

/-- A download ends with the size of its file, which is there to be found. -/
theorem placed_of_download {url : String} {u : Unit} (h : Ends (download url target) m u n) :
    ∃ l, n.tree.place n.here target = .ok l := by
  have last : ∀ {k}, Ends (sizeAt target >>= fun size => log (Storage.source 49) .info
      ("   ✓ Downloaded: " ++ target.text ++ " (" ++ toString size ++ " bytes)")) k u n →
      ∃ l, n.tree.place n.here target = .ok l := by
    intro k ended
    obtain ⟨size, j, sized, logged⟩ := ends_bind.mp ended
    obtain ⟨l, placed⟩ := placed_of_sizeAt sized
    exact ⟨l, ((@keeps_log [] _ _ _).ends logged).place placed⟩
  simp only [download, ends_bind (x := makeDirectories _), ends_bind (x := log _ _ _),
    ends_bind (x := lift _ _)] at h
  obtain ⟨_, _, -, _, _, -, address, _, -, h⟩ := h
  split at h
  · obtain ⟨_, _, -, ended⟩ := ends_bind.mp h
    exact last ended
  · obtain ⟨isFile, _, -, h⟩ := ends_bind.mp h
    split at h
    · exact absurd h not_ends_throw
    · obtain ⟨_, _, -, ended⟩ := ends_bind.mp h
      exact last ended

end Download

/-! ## Keys -/

section Upload

variable {s : Storage} {key : String} {l : Location}

/-- The place of a key, whether it is below the root or not. -/
def placeOf (s : Storage) (here : Location) (key : String) : Location :=
  ((Path.ofLocation (s.root.locate here)).join (Path.ofText key)).locate (s.root.locate here)

theorem up_not_mem_placeOf {here : Location} (plain : ".." ∉ here) (s : Storage) (key : String) :
    ".." ∉ s.placeOf here key :=
  Path.up_not_mem_locate (Path.up_not_mem_locate plain _) _

theorem ends_locate : Ends (s.locate key) m l n ↔ n = m ∧ l = s.placeOf m.here key ∧
    s.fault? key = none ∧ isBelow (s.root.locate m.here) l = true := by
  simp only [Storage.locate, ends_bind, ends_get]
  constructor
  · rintro ⟨_, _, ⟨rfl, rfl⟩, h⟩
    split at h
    · simp at h
    · rename_i clean
      have clean : s.fault? key = none := Option.eq_none_iff_forall_ne_some.mpr clean
      split at h
      · obtain ⟨rfl, rfl⟩ := ends_pure.mp h
        exact ⟨rfl, rfl, clean, ‹_›⟩
      · exact absurd h not_ends_throw
  · rintro ⟨rfl, rfl, clean, below⟩
    refine ⟨n, n, ⟨rfl, rfl⟩, ?_⟩
    unfold placeOf at below
    simp only [clean, below, if_true, ends_pure, and_true]
    rfl

/-- A key has no place if it cannot be followed, or else if it leads out of the root. -/
theorem fails_locate_iff {f : Failure} : Fails (s.locate key) m f n ↔ n = m ∧
    ((∃ e, s.fault? key = some e ∧ f = .file e) ∨ s.fault? key = none ∧
      isBelow (s.root.locate m.here) (s.placeOf m.here key) = false ∧ f = .escape key) := by
  simp only [Storage.locate, fails_bind, not_fails_get, ends_get, false_or]
  constructor
  · rintro ⟨_, _, ⟨rfl, rfl⟩, h⟩
    split at h
    · rename_i e found
      obtain ⟨rfl, rfl⟩ := fails_throw.mp h
      exact ⟨rfl, .inl ⟨e, found, rfl⟩⟩
    · rename_i clean
      split at h
      · exact absurd h not_fails_pure
      · rename_i outside
        obtain ⟨rfl, rfl⟩ := fails_throw.mp h
        exact ⟨rfl, .inr ⟨Option.eq_none_iff_forall_ne_some.mpr clean, eq_false_of_ne_true outside,
          rfl⟩⟩
  · rintro ⟨rfl, ⟨e, found, rfl⟩ | ⟨clean, outside, rfl⟩⟩
    · exact ⟨n, n, ⟨rfl, rfl⟩, by simp [found]⟩
    · refine ⟨n, n, ⟨rfl, rfl⟩, ?_⟩
      unfold placeOf at outside
      simp only [clean, outside, Bool.false_eq_true, if_false, fails_throw, and_true]

theorem fails_locate {f : Failure} (h : Fails (s.locate key) m f n) : n = m := (fails_locate_iff.mp h).1

theorem keeps_locate {paths : List Path} : Keeps (Quiet paths) (s.locate key) :=
  keeps_iff.mpr ⟨fun m _ n h => by rw [(ends_locate.mp h).1]; exact .refl m,
    fun m _ n h => by rw [fails_locate h]; exact .refl m⟩

theorem keeps_addressOf {paths : List Path} : Keeps (Quiet paths) (s.addressOf key) := by
  refine keeps_bind keeps_locate fun l => ?_
  split
  · exact keeps_pure _
  · exact keeps_pure _

/-- A key that has a place has an address. -/
theorem not_fails_addressOf {f : Failure} (located : Ends (s.locate key) m l m) :
    ¬ Fails (s.addressOf key) m f n := by
  intro h
  rcases fails_bind.mp h with failed | ⟨k, j, -, failed⟩
  · cases (Gives.unique (gives_ok.mpr located) (gives_error.mpr failed)).1
  · split at failed
    · exact not_fails_pure failed
    · exact not_fails_pure failed

theorem ends_asUpload {a : Action Unit} {u : Unit} (h : Ends (asUpload a) m u n) : Ends a m u n := by
  rcases ends_tryCatch.mp h with ended | ⟨f, k, -, h⟩
  · exact ended
  · split at h
    · exact absurd h not_ends_throw
    · exact absurd h not_ends_throw

theorem fails_asUpload {a : Action Unit} {f : Failure} (h : Fails (asUpload a) m f n) :
    ∃ e, Fails a m e n ∧ f = match e.system? with
      | some text => .upload text
      | none => e := by
  obtain ⟨e, k, failed, h⟩ := fails_tryCatch.mp h
  split at h
  · obtain ⟨rfl, rfl⟩ := fails_throw.mp h
    exact ⟨e, failed, by simp [*]⟩
  · obtain ⟨rfl, rfl⟩ := fails_throw.mp h
    exact ⟨f, failed, by simp [*]⟩

/-- An upload writes what it read at the place of its key, below the root. -/
theorem ends_upload {file : CopySource} {url : String} (h : Ends (s.upload file key) m url n) :
    isBelow (s.root.locate m.here) (s.placeOf m.here key) = true ∧ ∃ k content, Quiet [] m k ∧
      k.tree.readAt k.here file.text = .ok content ∧
      ∃ l, k.tree.place k.here (.ofLocation (s.placeOf m.here key)) = .ok l ∧
        k.tree.isDirectory l = false ∧ Quiet [] { k with tree := k.tree.put l content } n := by
  simp only [upload, ends_bind, ends_pure] at h
  obtain ⟨_, _, located, _, j, noted, _, i, stored, _, k, addressed, _, _, noted', -, rfl⟩ := h
  obtain ⟨rfl, rfl, -, below⟩ := ends_locate.mp located
  obtain ⟨_, k', made, copied⟩ := ends_bind.mp (ends_asUpload stored)
  obtain ⟨content, l, read, placed, free, rfl⟩ := ends_copy copied
  have before : Quiet [] _ k' := ((keeps_log _ _ _).ends noted).trans ((keeps_makeDirectories _).ends made)
  refine ⟨below, k', content, before, read, l, placed, free, ?_⟩
  exact (keeps_addressOf.ends addressed).trans ((keeps_log _ _ _).ends noted')

theorem keeps_upload_ended {file : CopySource} {url : String} (h : Ends (s.upload file key) m url n) :
    Quiet [.ofLocation (s.placeOf m.here key)] m n := by
  obtain ⟨-, k, content, before, -, l, placed, free, after⟩ := ends_upload h
  exact ((before.mono (by simp)).trans (quiet_of_put placed free content)).trans
    (after.mono (by simp))

/-- An upload fails because its key has no place, or while the file is stored: the address is only asked
for once the file is stored, and then the key has one. -/
theorem fails_upload_cases {file : CopySource} {f : Failure} (h : Fails (s.upload file key) m f n) :
    Fails (s.locate key) m f n ∨ ∃ j target, Quiet [] m j ∧
      Fails (asUpload do Machine.makeDirectories target.parent; copy file target) j f n := by
  simp only [upload, fails_bind, not_fails_pure, and_false, exists_false, or_false] at h
  rcases h with failed | ⟨_, _, located, failed | ⟨_, j, noted, failed | ⟨_, i, stored, h⟩⟩⟩
  · exact .inl failed
  · exact absurd failed not_fails_modify
  · obtain ⟨rfl, -⟩ := ends_locate.mp located
    exact .inr ⟨j, _, (keeps_log _ _ _).ends noted, failed⟩
  · obtain ⟨rfl, same, clean, below⟩ := ends_locate.mp located
    have before : Quiet [] _ j := (keeps_log _ _ _).ends noted
    obtain ⟨_, k, made, copied⟩ := ends_bind.mp (ends_asUpload stored)
    have made : Quiet [] j k := (keeps_makeDirectories _).ends made
    have here := ((keeps_copy _ _).ends copied).here.trans (made.here.trans before.here)
    rcases h with failed | ⟨url, k, -, failed⟩
    · rw [← here] at same below
      exact absurd failed (not_fails_addressOf (ends_locate.mpr ⟨rfl, same, clean, below⟩))
    · exact absurd failed not_fails_modify

/-- An upload that fails wrote nothing. -/
theorem fails_upload {file : CopySource} {f : Failure} (h : Fails (s.upload file key) m f n) :
    Quiet [] m n := by
  rcases fails_upload_cases h with failed | ⟨j, target, before, failed⟩
  · rw [fails_locate failed]
    exact .refl m
  · obtain ⟨e, failed, -⟩ := fails_asUpload failed
    rcases fails_bind.mp failed with failed | ⟨_, k, made, failed⟩
    · rwa [(fails_makeDirectories failed).1]
    · rw [fails_copy failed]
      exact before.trans ((keeps_makeDirectories _).ends made)

end Upload

end Splice.Storage
