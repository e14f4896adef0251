import Splice.Proofs.Path
import Splice.Proofs.Text.Percent
import Splice.Storage

/-! # Addresses of stored files

The address of a place is its path with everything outside a few plain characters encoded, so none of its
characters begins a query or a fragment, is left out, or ends the scheme. Taking the address apart and
decoding its path gives the place again.
-/

namespace Splice.Storage

open Text Splice.Path

variable {p : Nat → Bool} {l top more more' : Location}

/-! ## Places as texts -/

/-- The text of a place below the top: a slash before each step. -/
def trail (l : Location) : List Char := l.flatMap fun part => '/' :: part.toList

theorem toList_text (below : l ≠ []) : (Path.ofLocation l).text.toList = trail l := by
  have joined : '/' :: ['/'].intercalate (l.map String.toList) = trail l := by
    induction l with
    | nil => exact absurd rfl below
    | cons part rest ih =>
        cases rest with
        | nil => simp [trail]
        | cons next rest =>
            have ih := ih (List.cons_ne_nil next rest)
            rw [trail, List.flatMap_cons, ← trail, ← ih]
            simp [List.intercalate_cons_cons]
  rw [← joined, Path.text, if_neg (by simp [Path.ofLocation]), String.toList_append, toList_intercalate]
  simp [Path.ofLocation, rootText]

theorem holds_trail (slash : p 47 = true) (h : ∀ part ∈ l, Holds p part.toList) : Holds p (trail l) := by
  induction l with
  | nil => exact holds_iff.mpr ⟨[], List.forall_mem_nil _, rfl⟩
  | cons part rest ih =>
      rw [List.forall_mem_cons] at h
      have first : Holds p ('/' :: part.toList) := (holds_slash p slash).append h.1
      exact first.append (ih h.2)

theorem trail_append (l k : Location) : trail (l ++ k) = trail l ++ trail k := List.flatMap_append

/-- A place can be read back from its text. -/
theorem ofText_trail (below : l ≠ []) (tidy : (Path.ofLocation l).Tidy) :
    Path.ofText (String.ofList (trail l)) = .ofLocation l := by
  rw [← toList_text below, String.ofList_toList, ofText_text tidy]

/-! ## Taking addresses apart -/

theorem fileAddress_eq (below : l ≠ []) :
    fileAddress l = "file://" ++ String.ofList (Percent.encode (trail l)) := by
  rw [fileAddress, toList_text below]

theorem encode_trail (below : l ≠ []) : ∃ cs, Percent.encode (trail l) = '/' :: cs := by
  cases l with
  | nil => exact absurd rfl below
  | cons part rest =>
      have split : trail (part :: rest) = ['/'] ++ (part.toList ++ trail rest) := by
        simp [trail]
      rw [split, Percent.encode, codes_append (holds_slash (fun _ => true) rfl), List.flatMap_append]
      exact ⟨_, rfl⟩

/-- An address of plain characters behind the scheme of files is that scheme and a path. -/
theorem address_ofText {cs : List Char} (plain : ∀ c ∈ cs, Percent.isSafe c = true ∨ c = '%') :
    Address.ofText ("file://" ++ String.ofList ('/' :: cs)) = .ok ⟨"file", String.ofList ('/' :: cs)⟩ := by
  have apart {mark : Char} (meant : mark ∈ ['?', '#', '\t', '\n', '\r']) : mark ∉ cs := by
    intro mem
    cases plain mark mem with
    | inl safe => exact (Percent.isSafe_plain safe).2 (by simp at meant ⊢; tauto)
    | inr percent =>
        rw [percent] at meant
        revert meant
        decide
  have whole {mark : Char} (other : mark ∉ cs) (first : mark ≠ '/') :
      ('/' :: cs).takeWhile (!· == mark) = '/' :: cs := by
    rw [List.takeWhile_eq_self_iff]
    intro c mem
    have differs : c ≠ mark := by
      rintro rfl
      cases List.mem_cons.mp mem with
      | inl same => exact first same
      | inr mem => exact other mem
    simpa using differs
  have kept : cs.filter (!Address.isDropped ·) = cs := by
    refine List.filter_eq_self.mpr fun c mem => ?_
    have tab : c ≠ '\t' := fun same => apart (by decide) (same ▸ mem)
    have feed : c ≠ '\n' := fun same => apart (by decide) (same ▸ mem)
    have back : c ≠ '\r' := fun same => apart (by decide) (same ▸ mem)
    simp [Address.isDropped, tab, feed, back]
  have clean : ((("file://" ++ String.ofList ('/' :: cs)).toList.dropWhile Address.isLeading).filter
      (!Address.isDropped ·)) = "file://".toList ++ '/' :: cs := by
    have text : ("file://" ++ String.ofList ('/' :: cs)).toList = "file://".toList ++ '/' :: cs := by simp
    have front : ("file://".toList ++ '/' :: cs).dropWhile Address.isLeading =
        "file://".toList ++ '/' :: cs := rfl
    rw [text, front, List.filter_append, List.filter_cons_of_pos (by decide), kept]
    rfl
  have scheme : Address.splitScheme ("file://".toList ++ '/' :: cs) = ("file", '/' :: '/' :: '/' :: cs) := by
    have small : (String.ofList ['f', 'i', 'l', 'e']).toLower = "file" := by decide +kernel
    show ((String.ofList ['f', 'i', 'l', 'e']).toLower, '/' :: '/' :: '/' :: cs) = _
    rw [small]
  have host : Address.splitHost ('/' :: '/' :: '/' :: cs) = ([], '/' :: cs) := rfl
  rw [Address.ofText, clean]
  dsimp only
  rw [scheme]
  dsimp only
  rw [host]
  have path : (Address.upTo (· == '?') (Address.upTo (· == '#') ('/' :: cs)).1).1 = '/' :: cs := by
    rw [Address.upTo, Address.upTo]
    dsimp only
    rw [whole (apart (by decide)) (by decide), whole (apart (by decide)) (by decide)]
  show Except.ok (Address.mk "file" (String.ofList
    (Address.upTo (· == '?') (Address.upTo (· == '#') ('/' :: cs)).1).1)) = _
  rw [path]

/-- The address of a place leads to the place. -/
theorem localPath_fileAddress (below : l ≠ []) (tidy : (Path.ofLocation l).Tidy)
    (unicode : ∀ part ∈ l, IsUnicode part) : ∃ a, Address.ofText (fileAddress l) = .ok a ∧
      a.scheme = "file" ∧ localPath a (fileAddress l) = .ofLocation l := by
  have held : Holds (!isSurrogate ·) (trail l) := holds_trail (by decide) unicode
  obtain ⟨cs, slash⟩ := encode_trail below
  have plain : ∀ c ∈ cs, Percent.isSafe c = true ∨ c = '%' := fun c mem =>
    Percent.isSafe_of_mem_encode (slash ▸ List.mem_cons_of_mem '/' mem)
  have split := address_ofText plain
  rw [← slash, ← fileAddress_eq below] at split
  refine ⟨_, split, rfl, ?_⟩
  rw [localPath, if_pos rfl, String.toList_ofList, Percent.decode_encode held, ofText_trail below tidy]

/-- Below one place, no two places have one address. -/
theorem fileAddress_injective (held : ∀ part ∈ top, IsHeld part) (some_step : more ≠ [])
    (some_step' : more' ≠ []) (tidy : (Path.ofLocation more).Tidy) (tidy' : (Path.ofLocation more').Tidy)
    (unicode : ∀ part ∈ more, IsUnicode part) (unicode' : ∀ part ∈ more', IsUnicode part)
    (same : fileAddress (top ++ more) = fileAddress (top ++ more')) : more = more' := by
  have codes : Percent.encode (trail (top ++ more)) = Percent.encode (trail (top ++ more')) := by
    rw [fileAddress_eq (by simp [some_step]), fileAddress_eq (by simp [some_step'])] at same
    simpa using congrArg String.toList same
  have split (l : Location) : Percent.encode (trail (top ++ l)) =
      Percent.encode (trail top) ++ Percent.encode (trail l) := by
    rw [trail_append, Percent.encode, codes_append (holds_trail rfl held), List.flatMap_append]
    rfl
  rw [split, split] at codes
  have texts := congrArg Percent.decode (List.append_cancel_left codes)
  rw [Percent.decode_encode (holds_trail (by decide) unicode),
    Percent.decode_encode (holds_trail (by decide) unicode')] at texts
  have paths := congrArg (fun cs => Path.ofText (String.ofList cs)) texts
  rw [ofText_trail some_step tidy, ofText_trail some_step' tidy'] at paths
  exact congrArg Path.parts paths

end Splice.Storage
