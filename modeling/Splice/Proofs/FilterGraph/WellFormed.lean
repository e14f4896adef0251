import Mathlib.Data.List.Nodup
import Splice.FilterGraph.Basic
import Splice.Proofs.Outcome

/-! # Well-formed graphs

A graph is well formed if every pad that is not an input stream is written once, by an earlier chain
than the one that reads it, and read once. The check goes through the chains with a ledger; it
succeeds on the well-formed graphs and on no others.
-/

namespace Splice

/-- The pads that a chain reads and writes. -/
structure Wiring where
  inputs : List String
  outputs : List String
  deriving DecidableEq

def Chain.wiring (c : Chain) : Wiring := ⟨c.inputs, c.outputs⟩

namespace FilterGraph

def written (chains : List Chain) : List String := chains.flatMap Chain.outputs

def read (chains : List Chain) : List String := chains.flatMap Chain.inputs

@[simp] theorem written_nil : written [] = [] := rfl
@[simp] theorem written_cons (c : Chain) (rest : List Chain) :
    written (c :: rest) = c.outputs ++ written rest := rfl
@[simp] theorem written_append (front back : List Chain) :
    written (front ++ back) = written front ++ written back := List.flatMap_append
@[simp] theorem read_nil : read [] = [] := rfl
@[simp] theorem read_cons (c : Chain) (rest : List Chain) :
    read (c :: rest) = c.inputs ++ read rest := rfl

/-- What the pads of a graph have to satisfy. -/
structure WellFormed (g : FilterGraph) : Prop where
  /-- A chain reads input streams and what chains before it write. -/
  declared : ∀ front c back, g.chains = front ++ c :: back → ∀ pad ∈ c.inputs,
    isInputStream pad = true ∨ pad ∈ written front
  writtenOnce : (written g.chains).Nodup
  noStream : ∀ pad ∈ written g.chains, isInputStream pad = false
  /-- What goes to the output is written by a chain. -/
  sent : ∀ pad ∈ g.mapped, pad ∈ written g.chains
  readOnce : (read g.chains ++ g.mapped).Nodup
  used : ∀ pad ∈ written g.chains, pad ∈ read g.chains ++ g.mapped

/-- Names that differ from each other and from those seen before. -/
def Fresh (seen pads : List String) : Prop := pads.Nodup ∧ ∀ pad ∈ pads, pad ∉ seen

theorem fresh_nil (seen : List String) : Fresh seen [] := ⟨List.nodup_nil, by simp⟩

theorem nodup_iff_fresh (pads : List String) : pads.Nodup ↔ Fresh [] pads := by
  simp [Fresh]

theorem fresh_append {seen front back : List String} :
    Fresh seen (front ++ back) ↔ Fresh seen front ∧ Fresh (seen ++ front) back := by
  simp only [Fresh, List.nodup_append, List.mem_append, not_or]
  constructor
  · rintro ⟨⟨hf, hb, apart⟩, unseen⟩
    exact ⟨⟨hf, fun pad h => unseen pad (.inl h)⟩, hb,
      fun pad h => ⟨unseen pad (.inr h), fun hm => apart pad hm pad h rfl⟩⟩
  · rintro ⟨⟨hf, unseenFront⟩, hb, unseenBack⟩
    refine ⟨⟨hf, hb, ?_⟩, ?_⟩
    · rintro pad hm other ho rfl
      exact (unseenBack pad ho).2 hm
    · rintro pad (hm | hm)
      · exact unseenFront pad hm
      · exact (unseenBack pad hm).1

theorem fresh_cons {seen : List String} {pad : String} {rest : List String} :
    Fresh seen (pad :: rest) ↔ pad ∉ seen ∧ Fresh (seen ++ [pad]) rest := by
  have single : Fresh seen [pad] ↔ pad ∉ seen := by simp [Fresh]
  simpa only [List.singleton_append, single] using
    @fresh_append seen [pad] rest

namespace Ledger

open Outcome

theorem consume_eq_ok {l l' : Ledger} {pad : String} :
    l.consume pad = .ok l' ↔ pad ∉ l.consumed ∧ l' = ⟨l.produced, l.consumed ++ [pad]⟩ := by
  simp only [consume, List.contains_iff_mem]
  split
  · simp [*]
  · simp [*, eq_comm]

theorem input_eq_ok {n : Nat} {l l' : Ledger} {pad : String} :
    input n l pad = .ok l' ↔ (isInputStream pad = true ∨ pad ∈ l.produced) ∧
      pad ∉ l.consumed ∧ l' = ⟨l.produced, l.consumed ++ [pad]⟩ := by
  simp only [input, Bool.or_eq_true, List.contains_iff_mem]
  split
  · simp only [consume_eq_ok, *, true_and]
  · simp [*]

theorem output_eq_ok {l l' : Ledger} {pad : String} :
    output l pad = .ok l' ↔ isInputStream pad = false ∧ pad ∉ l.produced ∧
      l' = ⟨l.produced ++ [pad], l.consumed⟩ := by
  simp only [output, Bool.or_eq_true, List.contains_iff_mem]
  split
  · next h => simp; intro hs; simp [hs] at h; simp [h]
  · next h => simp at h; simp [h, eq_comm]

theorem send_eq_ok {l l' : Ledger} {pad : String} :
    send l pad = .ok l' ↔ pad ∈ l.produced ∧
      pad ∉ l.consumed ∧ l' = ⟨l.produced, l.consumed ++ [pad]⟩ := by
  simp only [send, List.contains_iff_mem]
  split
  · simp only [consume_eq_ok, *, true_and]
  · simp [*]

/-- Reading pads one after the other succeeds exactly when each of them may be read, given what was
written, and none was read before. -/
theorem reads_eq_ok {step : Ledger → String → Except Fault Ledger}
    (mayRead : List String → String → Prop)
    (step_eq_ok : ∀ l l' pad, step l pad = .ok l' ↔ mayRead l.produced pad ∧
      pad ∉ l.consumed ∧ l' = ⟨l.produced, l.consumed ++ [pad]⟩)
    {pads : List String} {l l' : Ledger} :
    pads.foldlM step l = .ok l' ↔ (∀ pad ∈ pads, mayRead l.produced pad) ∧
      Fresh l.consumed pads ∧ l' = ⟨l.produced, l.consumed ++ pads⟩ := by
  induction pads generalizing l with
  | nil => simpa [fresh_nil] using eq_comm
  | cons pad rest ih =>
      simp only [List.foldlM_cons, bind_eq_ok, step_eq_ok, List.forall_mem_cons, fresh_cons]
      constructor
      · rintro ⟨_, ⟨declared, unread, rfl⟩, hr⟩
        obtain ⟨restDeclared, restFresh, rfl⟩ := ih.mp hr
        exact ⟨⟨declared, restDeclared⟩, ⟨unread, restFresh⟩, by simp⟩
      · rintro ⟨⟨declared, restDeclared⟩, ⟨unread, restFresh⟩, rfl⟩
        exact ⟨_, ⟨declared, unread, rfl⟩, ih.mpr ⟨restDeclared, restFresh, by simp⟩⟩

theorem inputs_eq_ok {n : Nat} {pads : List String} {l l' : Ledger} :
    pads.foldlM (input n) l = .ok l' ↔
      (∀ pad ∈ pads, isInputStream pad = true ∨ pad ∈ l.produced) ∧
      Fresh l.consumed pads ∧ l' = ⟨l.produced, l.consumed ++ pads⟩ :=
  reads_eq_ok (fun produced pad => isInputStream pad = true ∨ pad ∈ produced)
    fun _ _ _ => input_eq_ok

theorem sends_eq_ok {pads : List String} {l l' : Ledger} :
    pads.foldlM send l = .ok l' ↔ (∀ pad ∈ pads, pad ∈ l.produced) ∧
      Fresh l.consumed pads ∧ l' = ⟨l.produced, l.consumed ++ pads⟩ :=
  reads_eq_ok (fun produced pad => pad ∈ produced) fun _ _ _ => send_eq_ok

theorem outputs_eq_ok {pads : List String} {l l' : Ledger} :
    pads.foldlM output l = .ok l' ↔ (∀ pad ∈ pads, isInputStream pad = false) ∧
      Fresh l.produced pads ∧ l' = ⟨l.produced ++ pads, l.consumed⟩ := by
  induction pads generalizing l with
  | nil => simpa [fresh_nil] using eq_comm
  | cons pad rest ih =>
      simp only [List.foldlM_cons, bind_eq_ok, output_eq_ok, List.forall_mem_cons, fresh_cons]
      constructor
      · rintro ⟨_, ⟨noStream, unwritten, rfl⟩, hr⟩
        obtain ⟨restNoStream, restFresh, rfl⟩ := ih.mp hr
        exact ⟨⟨noStream, restNoStream⟩, ⟨unwritten, restFresh⟩, by simp⟩
      · rintro ⟨⟨noStream, restNoStream⟩, ⟨unwritten, restFresh⟩, rfl⟩
        exact ⟨_, ⟨noStream, unwritten, rfl⟩, ih.mpr ⟨restNoStream, restFresh, by simp⟩⟩

theorem chain_eq_ok {n : Nat} {c : Chain} {l l' : Ledger} :
    l.chain n c = .ok l' ↔
      ((∀ pad ∈ c.inputs, isInputStream pad = true ∨ pad ∈ l.produced) ∧
        Fresh l.consumed c.inputs) ∧
      ((∀ pad ∈ c.outputs, isInputStream pad = false) ∧ Fresh l.produced c.outputs) ∧
      l' = ⟨l.produced ++ c.outputs, l.consumed ++ c.inputs⟩ := by
  simp only [chain, bind_eq_ok, inputs_eq_ok, outputs_eq_ok]
  constructor
  · rintro ⟨_, ⟨declared, freshRead, rfl⟩, noStream, freshWritten, rfl⟩
    exact ⟨⟨declared, freshRead⟩, ⟨noStream, freshWritten⟩, rfl⟩
  · rintro ⟨⟨declared, freshRead⟩, ⟨noStream, freshWritten⟩, rfl⟩
    exact ⟨_, ⟨declared, freshRead, rfl⟩, noStream, freshWritten, rfl⟩

end Ledger

/-- Each chain reads input streams and what is written before it, given what was written before all
of them. -/
def Declared (before : List String) : List Chain → Prop
  | [] => True
  | c :: rest => (∀ pad ∈ c.inputs, isInputStream pad = true ∨ pad ∈ before) ∧
      Declared (before ++ c.outputs) rest

theorem declared_iff {before : List String} {chains : List Chain} :
    Declared before chains ↔ ∀ front c back, chains = front ++ c :: back → ∀ pad ∈ c.inputs,
      isInputStream pad = true ∨ pad ∈ before ++ written front := by
  induction chains generalizing before with
  | nil => simp [Declared]
  | cons c rest ih =>
      simp only [Declared, ih]
      constructor
      · rintro ⟨here, later⟩ front d back split
        cases front with
        | nil =>
            obtain ⟨rfl, rfl⟩ := List.cons.inj split
            simpa using here
        | cons first front =>
            obtain ⟨rfl, rfl⟩ := List.cons.inj split
            simpa using later front d back rfl
      · intro h
        refine ⟨by simpa using h [] c rest rfl, fun front d back split => ?_⟩
        simpa [split] using h (c :: front) d back (by simp [split])

/-- Going through the chains succeeds exactly when they read and write as they should; the ledger
then holds all that they wrote and read. -/
theorem Ledger.chains_eq_ok {n : Nat} {chains : List Chain} {l l' : Ledger} :
    l.chains n chains = .ok l' ↔
      (Declared l.produced chains ∧ Fresh l.consumed (read chains)) ∧
      ((∀ pad ∈ written chains, isInputStream pad = false) ∧ Fresh l.produced (written chains)) ∧
      l' = ⟨l.produced ++ written chains, l.consumed ++ read chains⟩ := by
  induction chains generalizing n l with
  | nil => simpa [Ledger.chains, Declared, fresh_nil] using eq_comm
  | cons c rest ih =>
      simp only [Ledger.chains, Outcome.bind_eq_ok, chain_eq_ok, Declared, read_cons, written_cons,
        fresh_append, List.forall_mem_append]
      constructor
      · rintro ⟨_, ⟨⟨here, freshRead⟩, ⟨noStream, freshWritten⟩, rfl⟩, hr⟩
        obtain ⟨⟨later, laterRead⟩, ⟨laterNoStream, laterWritten⟩, rfl⟩ := ih.mp hr
        exact ⟨⟨⟨here, later⟩, freshRead, laterRead⟩,
          ⟨⟨noStream, laterNoStream⟩, freshWritten, laterWritten⟩, by simp⟩
      · rintro ⟨⟨⟨here, later⟩, freshRead, laterRead⟩,
          ⟨⟨noStream, laterNoStream⟩, freshWritten, laterWritten⟩, rfl⟩
        exact ⟨_, ⟨⟨here, freshRead⟩, ⟨noStream, freshWritten⟩, rfl⟩,
          ih.mpr ⟨⟨later, laterRead⟩, ⟨laterNoStream, laterWritten⟩, by simp⟩⟩

theorem declared_congr {before : List String} {chains chains' : List Chain}
    (wiring : chains.map Chain.wiring = chains'.map Chain.wiring) :
    Declared before chains ↔ Declared before chains' := by
  induction chains generalizing before chains' with
  | nil =>
      obtain rfl := List.map_eq_nil_iff.mp wiring.symm
      rfl
  | cons c rest ih =>
      cases chains' with
      | nil => simp at wiring
      | cons c' rest' =>
          simp only [List.map_cons, List.cons.injEq, Chain.wiring, Wiring.mk.injEq] at wiring
          obtain ⟨⟨inputs, outputs⟩, later⟩ := wiring
          simp only [Declared, inputs, outputs, ih later]

instance decidableDeclared : (before : List String) → (chains : List Chain) →
    Decidable (Declared before chains)
  | _, [] => .isTrue trivial
  | before, c :: rest => by
      unfold Declared
      have := decidableDeclared (before ++ c.outputs) rest
      infer_instance

theorem wellFormed_iff {g : FilterGraph} : g.WellFormed ↔
    Declared [] g.chains ∧ (written g.chains).Nodup ∧
    (∀ pad ∈ written g.chains, isInputStream pad = false) ∧
    (∀ pad ∈ g.mapped, pad ∈ written g.chains) ∧ (read g.chains ++ g.mapped).Nodup ∧
    ∀ pad ∈ written g.chains, pad ∈ read g.chains ++ g.mapped := by
  rw [declared_iff]
  constructor
  · intro h
    exact ⟨h.declared, h.writtenOnce, h.noStream, h.sent, h.readOnce, h.used⟩
  · rintro ⟨declared, writtenOnce, noStream, sent, readOnce, used⟩
    exact ⟨declared, writtenOnce, noStream, sent, readOnce, used⟩

instance (g : FilterGraph) : Decidable g.WellFormed := decidable_of_iff' _ wellFormed_iff

theorem mergeSort_isEmpty {pads : List String} (le : String → String → Bool) :
    (pads.mergeSort le).isEmpty = true ↔ pads = [] := by
  rw [List.isEmpty_iff, ← List.length_eq_zero_iff, List.length_mergeSort, List.length_eq_zero_iff]

/-- The check accepts exactly the well-formed graphs. -/
theorem check_eq_ok_iff {g : FilterGraph} : g.check = .ok () ↔ g.WellFormed := by
  have unused_iff (produced consumed : List String) :
      produced.filter (!consumed.contains ·) = [] ↔ ∀ pad ∈ produced, pad ∈ consumed := by
    simp [List.filter_eq_nil_iff]
  simp only [check, Outcome.bind_eq_ok, Ledger.chains_eq_ok, Ledger.sends_eq_ok, wellFormed_iff,
    List.nil_append]
  constructor
  · rintro ⟨_, ⟨⟨declared, freshRead⟩, ⟨noStream, freshWritten⟩, rfl⟩, _,
      ⟨sent, freshSent, rfl⟩, unused⟩
    have readOnce : Fresh [] (read g.chains ++ g.mapped) := fresh_append.mpr ⟨freshRead, freshSent⟩
    refine ⟨declared, freshWritten.1, noStream, sent, readOnce.1, ?_⟩
    split at unused
    · next h => exact (unused_iff _ _).mp ((mergeSort_isEmpty _).mp h)
    · simp at unused
  · rintro ⟨declared, writtenOnce, noStream, sent, readOnce, used⟩
    have freshRead := fresh_append.mp ((nodup_iff_fresh _).mp readOnce)
    refine ⟨_, ⟨⟨declared, freshRead.1⟩,
      ⟨noStream, (nodup_iff_fresh _).mp writtenOnce⟩, rfl⟩, _, ⟨sent, freshRead.2, rfl⟩, ?_⟩
    have noneUnused := (mergeSort_isEmpty (fun a b : String => decide (a ≤ b))).mpr
      ((unused_iff _ _).mpr used)
    simp only [noneUnused, if_true, Outcome.pure_eq]

/-- Every pad of a graph, as often as it occurs. -/
def pads (g : FilterGraph) : List String := read g.chains ++ written g.chains ++ g.mapped

/-- Pads connect chains: each that is not an input stream is written once and read once, and by a
later chain than the one that writes it if a chain reads it at all. -/
structure Linked (g : FilterGraph) : Prop where
  once : ∀ pad ∈ g.pads, isInputStream pad = false →
    (written g.chains).count pad = 1 ∧ (read g.chains ++ g.mapped).count pad = 1
  later : ∀ front c back, g.chains = front ++ c :: back → ∀ pad ∈ c.inputs,
    isInputStream pad = false → pad ∈ written front

theorem WellFormed.linked {g : FilterGraph} (h : g.WellFormed) : g.Linked := by
  have later : ∀ front c back, g.chains = front ++ c :: back → ∀ pad ∈ c.inputs,
      isInputStream pad = false → pad ∈ written front := by
    intro front c back split pad hp hs
    exact (h.declared front c back split pad hp).resolve_left (by simp [hs])
  have written_of_mem : ∀ pad ∈ g.pads, isInputStream pad = false → pad ∈ written g.chains := by
    intro pad hp hs
    simp only [pads, List.mem_append] at hp
    rcases hp with (hr | hw) | hm
    · obtain ⟨c, hc, hp⟩ := List.mem_flatMap.mp hr
      obtain ⟨front, back, split⟩ := List.append_of_mem hc
      rw [split, written_append]
      exact List.mem_append_left _ (later front c back split pad hp hs)
    · exact hw
    · exact h.sent pad hm
  refine ⟨fun pad hp hs => ?_, later⟩
  have hw := written_of_mem pad hp hs
  exact ⟨List.count_eq_one_of_mem h.writtenOnce hw, List.count_eq_one_of_mem h.readOnce (h.used pad hw)⟩

/-- Whether a graph is well formed depends on its wiring only. -/
theorem wellFormed_congr {g g' : FilterGraph}
    (wiring : g.chains.map Chain.wiring = g'.chains.map Chain.wiring) (mapped : g.mapped = g'.mapped)
    (h : g'.WellFormed) : g.WellFormed := by
  have written_eq : written g.chains = written g'.chains := by
    have (chains : List Chain) : written chains = (chains.map Chain.wiring).flatMap Wiring.outputs := by
      simp [written, List.flatMap_map, Chain.wiring]
    rw [this, wiring, ← this]
  have read_eq : read g.chains = read g'.chains := by
    have (chains : List Chain) : read chains = (chains.map Chain.wiring).flatMap Wiring.inputs := by
      simp [read, List.flatMap_map, Chain.wiring]
    rw [this, wiring, ← this]
  rw [wellFormed_iff] at h ⊢
  rw [written_eq, read_eq, mapped, declared_congr wiring]
  exact h

end FilterGraph
end Splice
