import Splice.Proofs.Storage.Addresses
import Splice.Proofs.Storage.Containment
import Splice.Proofs.Storage.Download

/-! # What is uploaded can be downloaded

Without a public address, an upload gives the address of the file that it wrote, and a download of that
address writes the same content wherever it may write, but to the stored file itself. Addresses of keys are
the same exactly when their places are. The path of the root must be made of characters: a byte of it that
is none is written into the address, but not read back from it.
-/

namespace Splice.Storage

open Splice.Action Machine Text

variable {s : Storage} {key : String} {m n k : Machine} {l : Location}

/-! ## Places of keys -/

theorem isUnicode_parts {text : String} (h : IsUnicode text) : ∀ part ∈ (Path.ofText text).parts,
    IsUnicode part := by
  intro part mem
  obtain ⟨run, among, rfl⟩ := List.mem_map.mp (List.mem_filter.mp mem).1
  rw [IsUnicode, String.toList_ofList]
  exact h.splitRuns run among

/-- A directory whose path can be read back from its text. -/
def IsPlain (here : Location) : Prop := ∀ part ∈ here, Path.IsTidyStep part ∧ part ≠ ".."

/-- The steps below the root come from the key. -/
theorem exists_below (plain : ".." ∉ m.here)
    (below : isBelow (s.root.locate m.here) (s.placeOf m.here key) = true) :
    ∃ more, more ≠ [] ∧ s.placeOf m.here key = s.root.locate m.here ++ more ∧
      ∀ part ∈ more, part ∈ (Path.ofText key).parts := by
  obtain ⟨first, rest, split⟩ := isBelow_iff.mp below
  refine ⟨first :: rest, List.cons_ne_nil first rest, split, ?_⟩
  have steps : ∀ part ∈ ((Path.ofText key).locate (s.root.locate m.here)).drop
      (s.root.locate m.here).length, part ∈ (Path.ofText key).parts :=
    Path.forall_drop_locate _ (by simp) fun _ mem _ => mem
  rwa [← placeOf_eq plain, split, List.drop_left] at steps

theorem IsPlain.tidy (here : IsPlain m.here) (root : s.root.Tidy) :
    (Path.ofLocation (s.placeOf m.here key)).Tidy := by
  have plain : ".." ∉ m.here := fun up => (here ".." up).2 rfl
  have top : ∀ part ∈ s.root.locate m.here, Path.IsTidyStep part :=
    Path.forall_locate (fun part mem => (here part mem).1) fun part mem _ => root part mem
  rw [placeOf_eq plain]
  exact Path.forall_locate top fun part mem _ => Path.ofText_tidy key part mem

/-! ## Addresses of keys -/

theorem ends_addressOf {url : String} (unpublished : s.publicBase = none) :
    Ends (s.addressOf key) m url n ↔ n = m ∧ s.fault? key = none ∧
      isBelow (s.root.locate m.here) (s.placeOf m.here key) = true ∧
        url = fileAddress (s.placeOf m.here key) := by
  simp only [addressOf, ends_bind, ends_locate, unpublished, ends_pure]
  constructor
  · rintro ⟨_, _, ⟨rfl, rfl, clean, below⟩, rfl, rfl⟩
    exact ⟨rfl, clean, below, rfl⟩
  · rintro ⟨rfl, clean, below, rfl⟩
    exact ⟨_, _, ⟨rfl, rfl, clean, below⟩, rfl, rfl⟩

/-- An upload gives the address of its key. -/
theorem addressOf_of_upload {file : CopySource} {url : String} (unpublished : s.publicBase = none)
    (h : Ends (s.upload file key) m url n) : Ends (s.addressOf key) m url m := by
  simp only [upload, ends_bind, ends_pure] at h
  obtain ⟨_, _, located, _, j, noted, _, i, stored, _, k, addressed, _, _, -, rfl, rfl⟩ := h
  obtain ⟨rfl, -, clean, below⟩ := ends_locate.mp located
  obtain ⟨_, k', made, copied⟩ := ends_bind.mp (ends_asUpload stored)
  have first : Quiet [] _ j := (keeps_log _ _ _).ends noted
  have second : Quiet [] j k' := (keeps_makeDirectories _).ends made
  have here := ((keeps_copy _ _).ends copied).here.trans (second.here.trans first.here)
  rw [ends_addressOf unpublished] at addressed ⊢
  rw [here] at addressed
  exact ⟨rfl, addressed.2⟩

/-! ## The stored file -/

/-- A file that can be found under the path of its place, and that the log is not written to. -/
structure Stored (m : Machine) (l : Location) (content : String) : Prop where
  sound : m.tree.Sound
  silent : l ∉ m.outlet.files
  placed : m.tree.place m.here (.ofLocation l) = .ok l
  content : m.tree.content? l = some content

variable {content : String}

namespace Stored

theorem quiet (h : Stored m l content) (quiet : Quiet [] m n) : Stored n l content where
  sound := quiet.sound h.sound
  silent := quiet.outlet ▸ h.silent
  placed := quiet.place h.placed
  content := (quiet.content l h.silent (List.forall_mem_nil _)).trans h.content

end Stored

/-- What an upload read is stored at the place of its key. -/
theorem stored_of_upload {file : CopySource} {url : String} (sound : m.tree.Sound) (here : IsPlain m.here)
    (h : Ends (s.upload file key) m url n) (read : m.tree.readAt m.here file.text = .ok content)
    (silent : ∀ l ∈ m.outlet.files, m.tree.place m.here (Path.ofText file.text) ≠ .ok l ∧
      l ≠ s.placeOf m.here key) : Stored n (s.placeOf m.here key) content := by
  have plain : ".." ∉ m.here := fun up => (here ".." up).2 rfl
  obtain ⟨-, k, copied, before, found, l, placed, free, after⟩ := ends_upload h
  obtain rfl : l = s.placeOf m.here key := by
    rw [(FileTree.place_eq_ok placed).2, Path.locate_ofLocation (up_not_mem_placeOf plain s key)]
  obtain ⟨source, placed₀, held₀⟩ := FileTree.read_eq_ok (FileTree.readAt_eq_ok read)
  obtain ⟨source', placed₁, held₁⟩ := FileTree.read_eq_ok (FileTree.readAt_eq_ok found)
  have apart : source ∉ m.outlet.files := fun mem => (silent source mem).1 placed₀
  obtain rfl : source = source' := Except.ok.inj ((before.place placed₀).symm.trans placed₁)
  have same : copied = content := by
    rw [before.content source apart (List.forall_mem_nil _), held₀] at held₁
    exact (Option.some.inj held₁).symm
  have held : (k.tree.put (s.placeOf m.here key) copied).content? (s.placeOf m.here key) = some content := by
    rw [FileTree.content?_put, if_pos rfl, same]
  have written : Stored { k with tree := k.tree.put (s.placeOf m.here key) copied }
      (s.placeOf m.here key) content :=
    ⟨(before.sound sound).put free _, fun mem => (silent _ (before.outlet ▸ mem)).2 rfl,
      (FileTree.place_congr fun d => k.tree.isDirectory_put _ d copied).mpr placed, held⟩
  exact written.quiet after

/-! ## Downloading it -/

/-- Whether a path can be written, its directories made first, and where it leads. -/
def IsWritable (m : Machine) (p : Path) (l : Location) : Prop :=
  ∃ k, Ends (makeDirectories p.parent) m () k ∧ k.tree.target k.here p = .ok l

/-- A download of the address of a stored file writes its content to any other place that the log is not
written to. -/
theorem ends_download_stored {target : Path} {other : Location} (stored : Stored n l content)
    (below : l ≠ []) (tidy : (Path.ofLocation l).Tidy) (unicode : ∀ part ∈ l, IsUnicode part)
    (writable : IsWritable n target other) (apart : other ≠ l) (silent : other ∉ n.outlet.files) :
    ∃ k, Ends (download (fileAddress l) target) n () k ∧ k.tree.read k.here target = .ok content := by
  obtain ⟨i, made, aimed⟩ := writable
  have grown : Quiet [] n i := (keeps_makeDirectories _).ends made
  have there : Stored i l content := stored.quiet grown
  obtain ⟨a, split, scheme, leads⟩ := localPath_fileAddress below tidy unicode
  have only : ∀ p, Leads (fileAddress l) p → p = .ofLocation l := by
    intro p led
    obtain ⟨b, split', -, rfl⟩ := led.exists_address
    rw [← leads, Except.ok.inj (split.symm.trans split')]
  have led : Leads (fileAddress l) (.ofLocation l) := by
    have uri := Leads.uri split scheme
    rwa [only _ uri] at uri
  refine exists_ends_download stored.sound made aimed (fun q logged => ⟨?_, fun p led => ?_⟩)
    (.file led there.placed there.content apart.symm)
  · rintro rfl
    exact silent (grown.outlet ▸ logged)
  · rw [only p led, there.placed]
    intro same
    exact there.silent (Except.ok.inj same ▸ logged)

/-! ## The law of round trips -/

/-- Without a public address, and whatever the key is made of: an upload gives the address of its key; a
download of it writes what the upload read to any other place that can be written; and another key has
the same address exactly if it has the same place. The path of the root has to be one of characters for
the download. A file that the log is written to does not keep a content. -/
theorem download_upload (root key : String) (base : Option String) {place : Location}
    (unpublished : (Storage.of (.ofText root) base).publicBase = none) (sound : m.tree.Sound)
    (here : IsPlain m.here) (unicode : IsUnicode key)
    (located : Ends ((Storage.of (.ofText root) base).locate key) m place m) :
    (∀ file url n, Ends ((Storage.of (.ofText root) base).upload file key) m url n →
      Ends ((Storage.of (.ofText root) base).addressOf key) m url m ∧
      ((∀ part ∈ (Path.ofText root).locate m.here, IsUnicode part) →
        ∀ content target l, m.tree.readAt m.here file.text = .ok content → IsWritable n target l →
          l ≠ place → (∀ k ∈ m.outlet.files,
            m.tree.place m.here (Path.ofText file.text) ≠ .ok k ∧ k ≠ place ∧ k ≠ l) →
          ∃ k, Ends (download url target) n () k ∧ k.tree.read k.here target = .ok content)) ∧
    ((∀ part ∈ (Path.ofText root).locate m.here, IsHeld part) →
      ∀ other place' url url', IsUnicode other →
        Ends ((Storage.of (.ofText root) base).locate other) m place' m →
        Ends ((Storage.of (.ofText root) base).addressOf key) m url m →
        Ends ((Storage.of (.ofText root) base).addressOf other) m url' m →
          (url = url' ↔ place = place')) := by
  obtain ⟨s, store⟩ : ∃ s, Storage.of (.ofText root) base = s := ⟨_, rfl⟩
  have top : s.root = Path.ofText root := by
    rw [← store]
    rfl
  rw [store] at unpublished located ⊢
  have plain : ".." ∉ m.here := fun up => (here ".." up).2 rfl
  have tidyRoot : s.root.Tidy := by
    rw [top]
    exact Path.ofText_tidy root
  obtain ⟨-, rfl, -, below⟩ := ends_locate.mp located
  obtain ⟨more, some_step, split, steps⟩ := exists_below plain below
  have tidy : (Path.ofLocation (s.placeOf m.here key)).Tidy := here.tidy tidyRoot
  have made : ∀ part ∈ more, IsUnicode part := fun part mem => isUnicode_parts unicode part (steps part mem)
  rw [← top]
  refine ⟨fun file url n uploaded => ⟨addressOf_of_upload unpublished uploaded, ?_⟩, ?_⟩
  · intro characters content target l read writable apart silent
    obtain ⟨-, -, -, rfl⟩ := (ends_addressOf unpublished).mp (addressOf_of_upload unpublished uploaded)
    have stored : Stored n (s.placeOf m.here key) content :=
      stored_of_upload sound here uploaded read fun k mem => ⟨(silent k mem).1, (silent k mem).2.1⟩
    have outlet : n.outlet = m.outlet := (keeps_upload_ended uploaded).outlet
    have whole : ∀ part ∈ s.placeOf m.here key, IsUnicode part := by
      rw [split]
      exact List.forall_mem_append.mpr ⟨characters, made⟩
    exact ends_download_stored stored (by rw [split]; simp [some_step]) tidy whole writable apart
      fun mem => (silent l (outlet ▸ mem)).2.2 rfl
  · intro held other place' url url' unicode' located' addressed addressed'
    obtain ⟨-, rfl, -, below'⟩ := ends_locate.mp located'
    obtain ⟨more', some_step', split', steps'⟩ := exists_below plain below'
    obtain ⟨-, -, -, rfl⟩ := (ends_addressOf unpublished).mp addressed
    obtain ⟨-, -, -, rfl⟩ := (ends_addressOf unpublished).mp addressed'
    have made' : ∀ part ∈ more', IsUnicode part := fun part mem =>
      isUnicode_parts unicode' part (steps' part mem)
    have tidyMore {more : Location} {key : String} (steps : ∀ part ∈ more, part ∈ (Path.ofText key).parts) :
        (Path.ofLocation more).Tidy := fun part mem => Path.ofText_tidy key part (steps part mem)
    constructor
    · intro same
      rw [split, split'] at same ⊢
      rw [fileAddress_injective held some_step some_step' (tidyMore steps) (tidyMore steps') made made' same]
    · exact congrArg fileAddress

/-- A key of characters that an address does not hold as they are. -/
theorem download_upload_marks : ∃ n k,
    Ends ((Storage.of (.ofText "store") none).upload (.ofText "a.mp4") "é?/50% \n#;.mp4") stocked
      "file:///store/%C3%A9%3F/50%25%20%0A%23%3B.mp4" n ∧
    Ends (download "file:///store/%C3%A9%3F/50%25%20%0A%23%3B.mp4" (.ofText "b.mp4")) n () k ∧
    k.tree.read k.here (.ofText "b.mp4") = .ok "clip" ∧
    ∀ url, Ends ((Storage.of (.ofText "store") none).addressOf "x/../é?/./50% \n#;.mp4") stocked url
      stocked → "file:///store/%C3%A9%3F/50%25%20%0A%23%3B.mp4" = url := by
  have located : Ends ((Storage.of (.ofText "store") none).locate "é?/50% \n#;.mp4") stocked
      ["store", "é?", "50% \n#;.mp4"] stocked :=
    ends_locate.mpr ⟨rfl, by decide +kernel, by decide +kernel, by decide +kernel⟩
  have respelled : Ends ((Storage.of (.ofText "store") none).locate "x/../é?/./50% \n#;.mp4") stocked
      ["store", "é?", "50% \n#;.mp4"] stocked :=
    ends_locate.mpr ⟨rfl, by decide +kernel, by decide +kernel, by decide +kernel⟩
  have uploaded : Ends ((Storage.of (.ofText "store") none).upload (.ofText "a.mp4") "é?/50% \n#;.mp4")
      stocked "file:///store/%C3%A9%3F/50%25%20%0A%23%3B.mp4" _ := ends_after (by decide +kernel)
  obtain ⟨trip, addresses⟩ := download_upload "store" "é?/50% \n#;.mp4" none rfl stocked_sound
    (List.forall_mem_nil _) (by decide +kernel) located
  obtain ⟨addressed, downloads⟩ := trip _ _ _ uploaded
  obtain ⟨k, ended, read⟩ := downloads (by decide +kernel) "clip" (.ofText "b.mp4") ["b.mp4"]
    (Outcome.eq_ok_of_toOption (by decide +kernel)) ⟨_, ends_after (by decide +kernel), Outcome.eq_ok_of_toOption
      (by decide +kernel)⟩ (by decide) (List.forall_mem_nil _)
  refine ⟨_, k, uploaded, ended, read, fun url other => ?_⟩
  exact (addresses (by decide +kernel) _ _ _ url (by decide +kernel) respelled addressed other).mpr rfl

/-- A root with a byte that is no character. -/
def byteRoot : String := String.ofList ("st".toList ++ Text.ofCode 0xDC80)

/-- The byte is written into the address and not read back, so the file that was stored is not found. -/
theorem download_loses : ∃ url n f k,
    Ends ((Storage.of (.ofText byteRoot) none).upload (.ofText "a.mp4") "k") stocked url n ∧
    IsUnicode "k" ∧ IsHeld byteRoot ∧ IsWritable n (.ofText "b.mp4") ["b.mp4"] ∧
    n.tree.content? [byteRoot, "k"] = some "clip" ∧
    Fails (download url (.ofText "b.mp4")) n f k ∧ f.kind = "DownloadError" ∧
    f.message = "Failed to download file:///st%80/k: no such file" := by
  have uploaded : Ends ((Storage.of (.ofText byteRoot) none).upload (.ofText "a.mp4") "k") stocked
      "file:///st%80/k" _ := ends_after (by decide +kernel)
  obtain ⟨f, failed, told⟩ : ∃ f, Fails (download "file:///st%80/k" (.ofText "b.mp4"))
      (after ((Storage.of (.ofText byteRoot) none).upload (.ofText "a.mp4") "k") stocked) f _ ∧
        f.kind = "DownloadError" ∧ f.message = "Failed to download file:///st%80/k: no such file" :=
    exists_fails_after (by decide +kernel)
  exact ⟨_, _, f, _, uploaded, by decide +kernel, by decide +kernel,
    ⟨_, ends_after (by decide +kernel), Outcome.eq_ok_of_toOption (by decide +kernel)⟩, by decide +kernel,
    failed, told⟩

end Splice.Storage
