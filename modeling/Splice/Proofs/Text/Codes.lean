import Splice.Proofs.Path
import Splice.Text.Surrogate

/-! # Texts and their code points

A text holds code points if it is made of them as they have to be held. Such texts can be put together and
taken apart at slashes: what holds a code point has no slash, but for the slash itself.
-/

namespace Splice.Text

variable {p : Nat → Bool} {cs ds : List Char}

/-- Whether a text is made of code points that satisfy `p`, each held as a text holds it. -/
def Holds (p : Nat → Bool) (cs : List Char) : Prop :=
  (codes cs).flatMap ofCode = cs ∧ ∀ n ∈ codes cs, p n = true

instance (p : Nat → Bool) (cs : List Char) : Decidable (Holds p cs) := inferInstanceAs (Decidable (_ ∧ _))

/-- Whether a text is made of characters only, with no surrogate that stands alone. -/
def IsUnicode (s : String) : Prop := Holds (!isSurrogate ·) s.toList

instance (s : String) : Decidable (IsUnicode s) := inferInstanceAs (Decidable (Holds _ _))

/-- Whether a text is made of characters and surrogates. -/
def IsHeld (s : String) : Prop := Holds (fun _ => true) s.toList

instance (s : String) : Decidable (IsHeld s) := inferInstanceAs (Decidable (Holds _ _))

theorem codes_lt (cs : List Char) : ∀ n ∈ codes cs, n < 0x110000 := by
  have below (c : Char) : c.toNat < 0x110000 := by
    have valid : c.toNat.isValidChar := c.valid
    unfold Nat.isValidChar at valid
    omega
  have all (marked : Bool) : ∀ n ∈ codesFrom marked cs, n < 0x110000 := by
    induction cs generalizing marked with
    | nil => cases marked <;> decide
    | cons c cs ih =>
        have code := below c
        rw [codesFrom]
        split
        · exact List.forall_mem_cons.mpr ⟨code, ih false⟩
        · split
          · exact ih true
          · refine List.forall_mem_cons.mpr ⟨?_, ih false⟩
            split <;> omega
  exact all false

theorem holds_iff : Holds p cs ↔ ∃ ns : List Nat, (∀ n ∈ ns, n < 0x110000 ∧ p n = true) ∧
    cs = ns.flatMap ofCode := by
  constructor
  · rintro ⟨made, all⟩
    exact ⟨codes cs, fun n mem => ⟨codes_lt cs n mem, all n mem⟩, made.symm⟩
  · rintro ⟨ns, all, rfl⟩
    have same := codes_flatMap_ofCode ns fun n mem => (all n mem).1
    exact ⟨by rw [same], fun n mem => (all n (same ▸ mem)).2⟩

theorem codes_append (h : Holds p cs) (ds : List Char) : codes (cs ++ ds) = codes cs ++ codes ds := by
  obtain ⟨ns, all, rfl⟩ := holds_iff.mp h
  clear h
  induction ns with
  | nil => rfl
  | cons n ns ih =>
      rw [List.forall_mem_cons] at all
      rw [List.flatMap_cons, List.append_assoc, codes_ofCode n all.1.1, codes_ofCode n all.1.1,
        ih all.2, List.cons_append]

theorem Holds.append (h : Holds p cs) (h' : Holds p ds) : Holds p (cs ++ ds) := by
  obtain ⟨ns, all, rfl⟩ := holds_iff.mp h
  obtain ⟨ns', all', rfl⟩ := holds_iff.mp h'
  refine holds_iff.mpr ⟨ns ++ ns', fun n mem => ?_, List.flatMap_append.symm⟩
  exact (List.mem_append.mp mem).elim (all n) (all' n)

theorem holds_slash (p : Nat → Bool) (h : p 47 = true) : Holds p ['/'] :=
  holds_iff.mpr ⟨[47], by simpa using h, by decide⟩

/-! ## Slashes -/

theorem splitRuns_plain_append {q : Char → Bool} (plain : ∀ c ∈ cs, q c = false) {run : List Char}
    {more : List (List Char)} (runs : splitRuns q ds = run :: more) :
    splitRuns q (cs ++ ds) = (cs ++ run) :: more := by
  induction cs with
  | nil => exact runs
  | cons c cs ih =>
      rw [List.forall_mem_cons] at plain
      rw [List.cons_append, splitRuns, plain.1, if_neg Bool.false_ne_true, ih plain.2]
      rfl

/-- Nothing but the slash is held with a slash. -/
theorem slash_not_mem_ofCode {n : Nat} (h : n < 0x110000) (other : n ≠ 47) : '/' ∉ ofCode n := by
  intro mem
  have code : '/'.toNat = 47 := rfl
  rw [ofCode] at mem
  split at mem
  · rename_i surrogate
    rw [List.mem_singleton.mp mem, toNat_shifted surrogate] at code
    omega
  · rename_i plain
    simp only [isSurrogate, Bool.and_eq_true, decide_eq_true_eq] at plain
    have same : '/' = Char.ofNat n := by
      unfold held at mem
      split at mem
      · simpa [show '/' ≠ privateMark by decide] using mem
      · exact List.mem_singleton.mp mem
    rw [same, toNat_ofNat (by unfold Nat.isValidChar; omega)] at code
    exact other code

theorem Holds.splitRuns (h : Holds p cs) : ∀ run ∈ splitRuns (· == '/') cs, Holds p run := by
  obtain ⟨ns, all, rfl⟩ := holds_iff.mp h
  clear h
  have empty : Holds p [] := holds_iff.mpr ⟨[], List.forall_mem_nil _, rfl⟩
  induction ns with
  | nil => simpa [Text.splitRuns] using empty
  | cons n ns ih =>
      rw [List.forall_mem_cons] at all
      have rest := ih all.2
      rw [List.flatMap_cons]
      by_cases slash : n = 47
      · rw [slash]
        exact List.forall_mem_cons.mpr ⟨empty, rest⟩
      · cases runs : Text.splitRuns (· == '/') (ns.flatMap ofCode) with
        | nil => exact absurd runs (splitRuns_ne_nil _ _)
        | cons run more =>
            rw [runs, List.forall_mem_cons] at rest
            have plain : ∀ c ∈ ofCode n, (c == '/') = false := by
              intro c mem
              rw [beq_eq_false_iff_ne]
              rintro rfl
              exact slash_not_mem_ofCode all.1.1 slash mem
            have first : Holds p (ofCode n) :=
              holds_iff.mpr ⟨[n], List.forall_mem_singleton.mpr all.1, by simp⟩
            rw [splitRuns_plain_append plain runs]
            exact List.forall_mem_cons.mpr ⟨first.append rest.1, rest.2⟩

end Splice.Text
