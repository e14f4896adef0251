import Splice.Proofs.FilterGraph.Verdict
import Splice.Proofs.Program.Chains

/-! # The pads that a graph gives

Every pad is the stem that was asked for and the count of the pads that this stem gave before. A stem and
a number are read off a pad again if no stem ends in a digit, so that no pad is given twice.
-/

namespace Splice.FilterGraph

/-! ## Stems and numbers -/

/-- A stem that a number can follow: it does not end in a decimal digit. -/
def Stem (stem : String) : Prop := stem.toList.getLast?.any Char.isDigit = false

instance (stem : String) : Decidable (Stem stem) :=
  inferInstanceAs (Decidable (stem.toList.getLast?.any Char.isDigit = false))

theorem toList_numbered (stem : String) (k : Nat) :
    (stem ++ toString k).toList = stem.toList ++ Nat.toDigits 10 k := by
  rw [String.toList_append, Nat.toString_eq_ofList_toDigits, String.toList_ofList]

theorem isDigit_toDigits {k : Nat} {c : Char} (h : c ∈ Nat.toDigits 10 k) : c.isDigit = true :=
  Nat.isDigit_of_mem_toDigits (by decide) (by decide) h

/-- Nothing but digits follows a stem only if nothing follows it. -/
theorem Stem.eq_nil {s t : String} (h : Stem t) {digits : List Char}
    (split : t.toList = s.toList ++ digits) (all : ∀ c ∈ digits, c.isDigit = true) : digits = [] := by
  cases last : digits.getLast? with
  | none => exact List.getLast?_eq_none_iff.mp last
  | some c =>
      have ends : t.toList.getLast? = some c := by
        rw [split, List.getLast?_append, last, Option.some_or]
      have digit := all c (List.mem_of_getLast? last)
      rw [Stem, ends, Option.any_some, digit] at h
      cases h

/-- The stem and the number of a pad are read off it. -/
theorem numbered_injective {s t : String} (hs : Stem s) (ht : Stem t) {k n : Nat}
    (h : s ++ toString k = t ++ toString n) : s = t ∧ k = n := by
  have lists := congrArg String.toList h
  rw [toList_numbered, toList_numbered] at lists
  have stems : s.toList = t.toList := by
    rcases List.append_eq_append_iff.mp lists with ⟨more, split, digits⟩ | ⟨more, split, digits⟩
    · have none := ht.eq_nil split fun c hc => isDigit_toDigits (digits ▸ List.mem_append_left _ hc)
      rw [split, none, List.append_nil]
    · have none := hs.eq_nil split fun c hc => isDigit_toDigits (digits ▸ List.mem_append_left _ hc)
      rw [split, none, List.append_nil]
  rw [stems] at lists
  have numbers := congrArg (Nat.ofDigitChars 10 · 0) (List.append_cancel_left lists)
  exact ⟨String.toList_inj.mp stems, by simpa using numbers⟩

/-- A pad with a number behind its stem is no input stream, which ends in the letter of its medium. -/
theorem not_streamLabel_numbered (stem : String) (k : Nat) : ¬ StreamLabel (stem ++ toString k) := by
  rintro ⟨number, medium, stop, split, -, -, known, ends⟩
  rw [toList_numbered] at split
  obtain ⟨d, last⟩ : ∃ d, (Nat.toDigits 10 k).getLast? = some d :=
    ⟨_, List.getLast?_eq_some_getLast Nat.toDigits_ne_nil⟩
  have digit : d.isDigit = true := isDigit_toDigits (List.mem_of_getLast? last)
  have same := congrArg List.getLast? split
  rw [List.getLast?_append, last, Option.some_or] at same
  have mark : d = medium ∨ d = '\n' := by
    rcases ends with rfl | rfl
    · exact .inl (by simpa using same)
    · exact .inr (by simpa using same)
  rcases mark with rfl | rfl
  · rcases known with rfl | rfl
    · cases digit
    · cases digit
  · cases digit

/-! ## Requests -/

/-- What is asked of a graph while it is built. -/
inductive Request where
  | pad (stem : String)
  | chain (inputs filters outputs : List String)
  | send (output : String)

def Request.stem? : Request → Option String
  | .pad stem => some stem
  | .chain .. | .send _ => none

/-- The graph after a request. A chain that is refused leaves it as it was. -/
def Request.after (g : FilterGraph) : Request → FilterGraph
  | .pad stem => (g.newPad stem).2
  | .chain inputs filters outputs => ((g.add inputs filters outputs).toOption.map (·.2)).getD g
  | .send output => g.map output

/-- A request for a pad adds one to the count of its stem, and nothing else changes a count. -/
theorem Request.count_after (g : FilterGraph) (r : Request) (stem : String) :
    (r.after g).count stem = r.stem?.toList.count stem + g.count stem := by
  cases r with
  | pad other =>
      rw [after, newPad, count_cons, stem?, Option.toList_some, List.count_singleton]
      by_cases same : stem = other
      · rw [if_pos same, if_pos (by simp [same]), same, Nat.add_comm]
      · rw [if_neg same, if_neg (by simpa using Ne.symm same), Nat.zero_add]
  | chain inputs filters outputs =>
      rw [after, add, stem?, Option.toList_none, List.count_nil, Nat.zero_add]
      dsimp only
      split
      · rfl
      · rfl
  | send output => exact (Nat.zero_add _).symm

/-- The stems that are asked for, in order. -/
def stems (requests : List Request) : List String := requests.filterMap Request.stem?

/-- The pads that a graph gives, in order. -/
def padsGiven (g : FilterGraph) : List Request → List String
  | [] => []
  | r :: rest => (r.stem?.map fun stem => (g.newPad stem).1).toList ++ padsGiven (r.after g) rest

/-- Every pad has the count of the pads of its stem before it, those before the requests included. -/
theorem padsGiven_eq (g : FilterGraph) (requests : List Request) :
    padsGiven g requests = (stems requests).mapIdx fun i stem =>
      stem ++ toString (((stems requests).take i).count stem + g.count stem) := by
  induction requests generalizing g with
  | nil => rfl
  | cons r rest ih =>
      rw [padsGiven, ih]
      simp only [r.count_after g]
      cases asked : r.stem? with
      | none =>
          have same : stems (r :: rest) = stems rest := List.filterMap_cons_none asked
          rw [same]
          simp only [Option.map_none, Option.toList_none, List.nil_append, List.count_nil, Nat.zero_add]
      | some stem =>
          have more : stems (r :: rest) = stem :: stems rest := List.filterMap_cons_some asked
          rw [more, List.mapIdx_cons]
          simp only [Option.map_some, Option.toList_some, List.singleton_append, List.take_zero,
            List.count_nil, Nat.zero_add, List.take_succ_cons, newPad]
          congr 2
          funext i other
          rw [List.count_cons, List.count_cons, List.count_nil, Nat.zero_add, Nat.add_assoc]

/-- Two pads of one stem have different numbers, and those of two stems different stems. -/
theorem nodup_padsGiven (g : FilterGraph) {requests : List Request}
    (plain : ∀ stem ∈ stems requests, Stem stem) : (padsGiven g requests).Nodup := by
  rw [padsGiven_eq, List.Nodup, List.pairwise_iff_getElem]
  intro i j hi hj before same
  rw [List.getElem_mapIdx, List.getElem_mapIdx] at same
  rw [List.length_mapIdx] at hi hj
  obtain ⟨stem, number⟩ := numbered_injective (plain _ (List.getElem_mem hi))
    (plain _ (List.getElem_mem hj)) same
  rw [stem] at number
  -- the pads of this stem before the later one are those before the earlier one, itself, and more
  have more : ((stems requests).take (i + 1)).count (stems requests)[j] ≤
      ((stems requests).take j).count (stems requests)[j] :=
    (List.take_sublist_take_left before).count_le _
  rw [List.take_succ_eq_append_getElem hi, List.count_append, stem, List.count_singleton_self] at more
  omega

/-- The first pad of `a1` is the eleventh one of `a`. -/
example : ¬ (padsGiven { inputCount := 0 } (.pad "a1" :: List.replicate 11 (.pad "a"))).Nodup := by decide

/-- A new graph gives the first pad of a stem the number 0, the next one 1, and so on, whatever else is asked
of it in between. If no stem ends in a digit, no pad is given twice; and none is an input stream. -/
theorem pads_numbered (inputCount : Int) {requests : List Request}
    (plain : ∀ stem ∈ stems requests, Stem stem) :
    (padsGiven { inputCount } requests = (stems requests).mapIdx fun i stem =>
        stem ++ toString (((stems requests).take i).count stem)) ∧
      (padsGiven { inputCount } requests).Nodup ∧
      ∀ pad ∈ padsGiven { inputCount } requests, ¬ StreamLabel pad := by
  refine ⟨padsGiven_eq _ requests, nodup_padsGiven _ plain, fun pad given => ?_⟩
  rw [padsGiven_eq] at given
  obtain ⟨i, -, rfl⟩ := List.mem_mapIdx.mp given
  exact not_streamLabel_numbered _ _

/-- The pads of two pictures and a sound, with a chain and an output asked for in between. -/
theorem pads_numbered_mixed :
    let requests : List Request := [.pad "v", .chain ["0:v"] ["null"] ["v0"], .pad "a", .pad "v", .send "v0",
      .pad "v"]
    padsGiven { inputCount := 2 } requests = ["v0", "a0", "v1", "v2"] ∧
      (padsGiven { inputCount := 2 } requests).Nodup ∧ ¬ StreamLabel "v2" := by
  intro requests
  have plain : ∀ stem ∈ stems requests, Stem stem := by decide
  obtain ⟨numbered, distinct, other⟩ := pads_numbered 2 plain
  have pads : padsGiven { inputCount := 2 } requests = ["v0", "a0", "v1", "v2"] := numbered.trans (by decide)
  exact ⟨pads, distinct, other "v2" (by rw [pads]; simp)⟩

end Splice.FilterGraph
