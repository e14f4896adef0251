import Mathlib.Data.List.TakeWhile
import Splice.Proofs.FilterGraph.WellFormed

/-! # What is said of a graph

A graph is accepted if it is well formed. Any other graph is refused for a fault that it has: the pad
that is named is read too early or too often, written too often, sent without being written, or never
used.
-/

namespace Splice.FilterGraph

open Outcome

/-- The label of an input stream: a number, a colon and the letter of a medium. A line feed may
follow. -/
def StreamLabel (pad : String) : Prop :=
  ∃ number medium stop, pad.toList = number ++ ':' :: medium :: stop ∧ number ≠ [] ∧
    (∀ d ∈ number, Text.isDigit d = true) ∧ (medium = 'v' ∨ medium = 'a') ∧
    (stop = [] ∨ stop = ['\n'])

theorem endsStream_iff {cs : List Char} : endsStream cs = true ↔
    ∃ medium stop, cs = ':' :: medium :: stop ∧ (medium = 'v' ∨ medium = 'a') ∧
      (stop = [] ∨ stop = ['\n']) := by
  unfold endsStream
  split
  · simp
  · simp
  · rename_i alone followed
    simp only [Bool.false_eq_true, false_iff]
    rintro ⟨medium, stop, rfl, -, rfl | rfl⟩
    · exact alone medium rfl
    · exact followed medium rfl

theorem isInputStream_iff {pad : String} : isInputStream pad = true ↔ StreamLabel pad := by
  have colon : Text.isDigit ':' = false := by decide
  simp only [isInputStream, Bool.and_eq_true, endsStream_iff, StreamLabel]
  constructor
  · rintro ⟨first, medium, stop, rest, known, ends⟩
    refine ⟨pad.toList.takeWhile Text.isDigit, medium, stop, ?_, ?_, ?_, known, ends⟩
    · rw [← rest, List.takeWhile_append_dropWhile]
    · intro none
      cases split : pad.toList with
      | nil => simp [split] at first
      | cons d cs =>
          rw [split, List.head?_cons, Option.any_some] at first
          simp [split, first] at none
    · exact fun d hd => List.mem_takeWhile_imp hd
  · rintro ⟨number, medium, stop, split, some_digit, digits, known, ends⟩
    rw [split]
    refine ⟨?_, medium, stop, ?_, known, ends⟩
    · cases number with
      | nil => exact absurd rfl some_digit
      | cons d ds => simpa using digits d List.mem_cons_self
    · rw [List.dropWhile_append_of_pos digits, List.dropWhile_cons_of_neg (by simp [colon])]

/-- A graph has the fault that is told of it. -/
def Fault.Of (g : FilterGraph) : Fault → Prop
  | .undeclared number pad => ∃ c, g.chains[number]? = some c ∧ pad ∈ c.inputs ∧
      ¬ StreamLabel pad ∧ pad ∉ written (g.chains.take number)
  | .consumedTwice pad => 2 ≤ (read g.chains ++ g.mapped).count pad
  | .producedTwice pad => 2 ≤ (written g.chains).count pad ∨
      pad ∈ written g.chains ∧ StreamLabel pad
  | .undeclaredMap pad => pad ∈ g.mapped ∧ pad ∉ written g.chains
  | .unused pads => pads ≠ [] ∧ pads.Pairwise (· ≤ ·) ∧
      ∀ pad, pad ∈ pads ↔ pad ∈ written g.chains ∧ pad ∉ read g.chains ++ g.mapped
  -- these two are told while a graph is put together
  | .noInput _ _ => False
  | .emptyChain _ _ => False

/-- What occurs among some names and next after them occurs twice. -/
theorem two_le_count (front back : List String) {pads : List String} {pad : String}
    (split : pads = front ++ pad :: back) (before : pad ∈ front) : 2 ≤ pads.count pad := by
  have once := List.count_pos_iff.mpr before
  rw [split, List.count_append, List.count_cons_self]
  omega

namespace Ledger

variable {l : Ledger} {pad : String} {f : Fault}

theorem consume_eq_error (h : l.consume pad = .error f) :
    pad ∈ l.consumed ∧ f = .consumedTwice pad := by
  simp only [consume, List.contains_iff_mem] at h
  split at h
  · exact ⟨‹_›, (Except.error.inj h).symm⟩
  · cases h

theorem input_eq_error {number : Nat} (h : input number l pad = .error f) :
    pad ∈ l.consumed ∧ f = .consumedTwice pad ∨
      ¬ StreamLabel pad ∧ pad ∉ l.produced ∧ f = .undeclared number pad := by
  simp only [input, Bool.or_eq_true, List.contains_iff_mem] at h
  split at h
  · exact .inl (consume_eq_error h)
  · rename_i neither
    rw [not_or, isInputStream_iff] at neither
    exact .inr ⟨neither.1, neither.2, (Except.error.inj h).symm⟩

theorem output_eq_error (h : output l pad = .error f) :
    (pad ∈ l.produced ∨ StreamLabel pad) ∧ f = .producedTwice pad := by
  simp only [output] at h
  split at h
  · rename_i seen
    rw [Bool.or_eq_true, List.contains_iff_mem, isInputStream_iff] at seen
    exact ⟨seen, (Except.error.inj h).symm⟩
  · cases h

theorem send_eq_error (h : send l pad = .error f) :
    pad ∈ l.consumed ∧ f = .consumedTwice pad ∨
      pad ∉ l.produced ∧ f = .undeclaredMap pad := by
  simp only [send, List.contains_iff_mem] at h
  split at h
  · exact .inl (consume_eq_error h)
  · exact .inr ⟨‹_›, (Except.error.inj h).symm⟩

/-- The chain at which going through the chains fails. -/
theorem chains_eq_error {number : Nat} {chains : List Chain}
    (h : l.chains number chains = .error f) : ∃ front c back l', chains = front ++ c :: back ∧
      l.chains number front = .ok l' ∧ l'.chain (number + front.length) c = .error f := by
  induction chains generalizing l number with
  | nil => cases h
  | cons c rest ih =>
      rw [Ledger.chains, bind_eq_error] at h
      rcases h with failed | ⟨k, stepped, h⟩
      · exact ⟨[], c, rest, l, rfl, rfl, failed⟩
      · obtain ⟨front, d, back, l', rfl, walked, failed⟩ := ih h
        refine ⟨c :: front, d, back, l', rfl, ?_, ?_⟩
        · rw [Ledger.chains, stepped, ok_bind, walked]
        · rw [← failed, List.length_cons, Nat.add_right_comm, Nat.add_assoc]

end Ledger

section Faults

variable {g : FilterGraph} {f : Fault} {front back : List Chain} {c : Chain}

/-- A chain that cannot be entered into the ledger of the chains before it. -/
theorem of_chain_error (split : g.chains = front ++ c :: back)
    (h : Ledger.chain ⟨written front, read front⟩ front.length c = .error f) : f.Of g := by
  have reads : read g.chains = read front ++ (c.inputs ++ read back) := by simp [split, read]
  have writes : written g.chains = written front ++ (c.outputs ++ written back) := by simp [split]
  rw [Ledger.chain, bind_eq_error] at h
  rcases h with failed | ⟨l, entered, failed⟩
  · obtain ⟨before, pad, after, l, inputs, entered, failed⟩ := foldlM_eq_error failed
    obtain ⟨-, -, rfl⟩ := Ledger.inputs_eq_ok.mp entered
    rcases Ledger.input_eq_error failed with ⟨seen, rfl⟩ | ⟨unlabelled, unwritten, rfl⟩
    · exact two_le_count (read front ++ before) (after ++ (read back ++ g.mapped))
        (by simp [reads, inputs]) seen
    · exact ⟨c, by simp [split], by simp [inputs], unlabelled, by simpa [split] using unwritten⟩
  · obtain ⟨-, -, rfl⟩ := Ledger.inputs_eq_ok.mp entered
    obtain ⟨before, pad, after, l, outputs, entered, failed⟩ := foldlM_eq_error failed
    obtain ⟨-, -, rfl⟩ := Ledger.outputs_eq_ok.mp entered
    obtain ⟨seen | labelled, rfl⟩ := Ledger.output_eq_error failed
    · exact .inl (two_le_count (written front ++ before) (after ++ written back)
        (by simp [writes, outputs]) seen)
    · exact .inr ⟨by simp [writes, outputs], labelled⟩

theorem of_send_error
    (h : g.mapped.foldlM Ledger.send ⟨written g.chains, read g.chains⟩ = .error f) : f.Of g := by
  obtain ⟨before, pad, after, l, sent, entered, failed⟩ := foldlM_eq_error h
  obtain ⟨-, -, rfl⟩ := Ledger.sends_eq_ok.mp entered
  rcases Ledger.send_eq_error failed with ⟨seen, rfl⟩ | ⟨unwritten, rfl⟩
  · exact two_le_count (read g.chains ++ before) after (by simp [sent]) seen
  · exact ⟨by simp [sent], unwritten⟩

theorem of_unused {pads : List String}
    (h : ((written g.chains).filter (!(read g.chains ++ g.mapped).contains ·)).mergeSort
      (fun a b => decide (a ≤ b)) = pads) (some_pad : pads ≠ []) : (Fault.unused pads).Of g := by
  refine ⟨some_pad, ?_, fun pad => ?_⟩
  · have trans : ∀ a b c : String, decide (a ≤ b) = true → decide (b ≤ c) = true →
        decide (a ≤ c) = true := fun a b c hab hbc =>
      decide_eq_true (String.le_trans (of_decide_eq_true hab) (of_decide_eq_true hbc))
    have total : ∀ a b : String, (decide (a ≤ b) || decide (b ≤ a)) = true := fun a b => by
      simpa using String.le_total a b
    have sorted := List.pairwise_mergeSort trans total
      ((written g.chains).filter (!(read g.chains ++ g.mapped).contains ·))
    rw [h] at sorted
    exact sorted.imp of_decide_eq_true
  · rw [← h, List.mem_mergeSort, List.mem_filter]
    simp

/-- A graph that is refused has the fault that it is refused for. -/
theorem of_check_error (h : g.check = .error f) : f.Of g := by
  simp only [check, bind_eq_error] at h
  rcases h with failed | ⟨l, entered, failed | ⟨l', sent, failed⟩⟩
  · obtain ⟨front, c, back, l, split, entered, failed⟩ := Ledger.chains_eq_error failed
    obtain ⟨-, -, rfl⟩ := Ledger.chains_eq_ok.mp entered
    simp only [List.nil_append, Nat.zero_add] at failed
    exact of_chain_error split failed
  · obtain ⟨-, -, rfl⟩ := Ledger.chains_eq_ok.mp entered
    exact of_send_error failed
  · obtain ⟨-, -, rfl⟩ := Ledger.chains_eq_ok.mp entered
    obtain ⟨-, -, rfl⟩ := Ledger.sends_eq_ok.mp sent
    split at failed
    · cases failed
    · rename_i some_pad
      obtain rfl := Except.error.inj failed
      exact of_unused rfl (by simpa using some_pad)

end Faults

/-- A graph is accepted exactly if it is well formed, and otherwise refused for a fault that it has. The
streams that need no chain to write them are those with the label of one. -/
theorem check_verdict (g : FilterGraph) :
    (g.check = .ok () ↔ g.WellFormed) ∧
      (¬ g.WellFormed → ∃ f, g.check = .error f ∧ f.Of g) ∧
      ∀ pad, isInputStream pad = true ↔ StreamLabel pad := by
  refine ⟨check_eq_ok_iff, fun ill => ?_, fun pad => isInputStream_iff⟩
  cases verdict : g.check with
  | ok u => exact absurd (check_eq_ok_iff.mp verdict) ill
  | error f => exact ⟨f, rfl, of_check_error verdict⟩

/-- A graph that reads a pad and sends it as well. -/
def forked : FilterGraph where
  inputCount := 1
  chains := [⟨["0:v"], ["fps=30"], ["v0"]⟩, ⟨["v0"], ["hflip"], ["outv"]⟩]
  mapped := ["outv", "v0"]

theorem check_verdict_forked : ¬ forked.WellFormed ∧
    forked.check = .error (.consumedTwice "v0") ∧ (Fault.consumedTwice "v0").Of forked := by
  have ill : ¬ forked.WellFormed := by decide
  have told : forked.check = .error (.consumedTwice "v0") := by rfl
  obtain ⟨f, refused, known⟩ := (check_verdict forked).2.1 ill
  obtain rfl := Except.error.inj (refused.symm.trans told)
  exact ⟨ill, told, known⟩

end Splice.FilterGraph
