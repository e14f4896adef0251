import Splice.Proofs.Action
import Splice.Proofs.Identifier
import Splice.Proofs.Store.Changes

/-! # Operations on the store of a file

An operation reads the store at a place, and leaves another one there. What it does to the store is
said by the operations on stores alone. Nothing of the machine changes but the stores, the clock and
the count of identifiers; an operation that fails leaves the stores alone as well.
-/

namespace Splice

/-- The moment that the clock of a machine shows, if the calendar has it. -/
def Machine.moment? (m : Machine) : Option Instant :=
  if m.clock < 0 ∨ Machine.lastMicro < m.clock then none else some ⟨m.clock.toNat⟩

/-- The machine with another store at a place. -/
def Machine.holding (m : Machine) (l : Location) (s : Store) : Machine :=
  { m with stores := (l, s) :: m.stores.filter (·.1 != l) }

namespace Jobs

open Splice.Action

variable {l : Location} {m n : Machine}

@[simp] theorem ends_storeAt {s : Store} :
    Ends (storeAt l) m s n ↔ m.stores.lookup l = some s ∧ n = m := by
  simp only [storeAt, ends_bind, ends_get]
  constructor
  · rintro ⟨_, k, ⟨rfl, rfl⟩, h⟩
    cases opened : k.stores.lookup l with
    | none => simp [opened] at h
    | some t => simpa [opened, eq_comm] using h
  · rintro ⟨opened, rfl⟩
    exact ⟨n, n, ⟨rfl, rfl⟩, by simp [opened]⟩

/-- The clock is read if the calendar has its moment, and goes on. -/
theorem ends_now_iff {now : String} : Ends Machine.now m now n ↔
    ∃ i, m.moment? = some i ∧ now = i.text ∧ n = { m with clock := m.clock + Machine.tick } := by
  simp only [Machine.now, ends_bind, ends_get, Machine.moment?]
  constructor
  · rintro ⟨_, _, ⟨rfl, rfl⟩, h⟩
    split at h
    · exact absurd h not_ends_throw
    · rename_i inside
      simp only [ends_bind, ends_set, ends_pure] at h
      obtain ⟨_, _, rfl, rfl, rfl⟩ := h
      exact ⟨_, if_neg inside, rfl, rfl⟩
  · rintro ⟨i, shown, rfl, rfl⟩
    refine ⟨m, m, ⟨rfl, rfl⟩, ?_⟩
    split at shown
    · cases shown
    · rename_i inside
      obtain rfl := Option.some.inj shown
      rw [if_neg inside]
      exact ends_bind.mpr ⟨(), _, ends_set.mpr rfl, ends_pure.mpr ⟨rfl, rfl⟩⟩

theorem ends_now {now : String} (h : Ends Machine.now m now n) : n.stores = m.stores := by
  obtain ⟨i, -, -, rfl⟩ := ends_now_iff.mp h
  rfl

theorem lookup_holding (s : Store) : (m.holding l s).stores.lookup l = some s := by
  simp [Machine.holding]

/-- A change ends when the store at the place takes it. -/
theorem ends_change_iff {f : Store → Except Store.Fault Store} {u : Unit} : Ends (change l f) m u n ↔
    ∃ s t, m.stores.lookup l = some s ∧ f s = .ok t ∧ n = m.holding l t := by
  simp only [change, ends_bind, ends_storeAt, ends_lift, ends_modify]
  constructor
  · rintro ⟨s, _, ⟨opened, rfl⟩, t, _, ⟨made, rfl⟩, rfl⟩
    exact ⟨s, t, opened, made, rfl⟩
  · rintro ⟨s, t, opened, made, rfl⟩
    exact ⟨s, m, ⟨opened, rfl⟩, t, m, ⟨made, rfl⟩, rfl⟩

theorem ends_change {f : Store → Except Store.Fault Store} {u : Unit} (h : Ends (change l f) m u n) :
    ∃ s t, m.stores.lookup l = some s ∧ f s = .ok t ∧ n.stores.lookup l = some t := by
  obtain ⟨s, t, opened, made, rfl⟩ := ends_change_iff.mp h
  exact ⟨s, t, opened, made, lookup_holding t⟩

/-- A change at the moment that the clock shows. -/
theorem ends_timed_iff {f : String → Store → Except Store.Fault Store} {u : Unit} :
    Ends (Machine.now >>= fun now => change l (f now)) m u n ↔
      ∃ i s t, m.moment? = some i ∧ m.stores.lookup l = some s ∧ f i.text s = .ok t ∧
        n = { m with clock := m.clock + Machine.tick }.holding l t := by
  rw [ends_bind]
  constructor
  · rintro ⟨now, k, read, changed⟩
    obtain ⟨i, moment, rfl, rfl⟩ := ends_now_iff.mp read
    obtain ⟨s, t, opened, made, rfl⟩ := ends_change_iff.mp changed
    exact ⟨i, s, t, moment, opened, made, rfl⟩
  · rintro ⟨i, s, t, moment, opened, made, rfl⟩
    exact ⟨_, _, ends_now_iff.mpr ⟨i, moment, rfl, rfl⟩, ends_change_iff.mpr ⟨s, t, opened, made, rfl⟩⟩

/-- A claim finds nothing, or starts the oldest pending job and gives its row as it is then. -/
theorem ends_claim_iff {r : Option Store.JobRow} : Ends (claim l) m r n ↔
    ∃ s, m.stores.lookup l = some s ∧ ((s.nextPending? = none ∧ r = none ∧ n = m) ∨
      ∃ row i t, s.nextPending? = some row ∧ m.moment? = some i ∧ s.start (row .id) i.text = .ok t ∧
        r = t.get? (row .id) ∧ n = { m with clock := m.clock + Machine.tick }.holding l t) := by
  simp only [claim, ends_bind (x := storeAt l), ends_storeAt]
  constructor
  · rintro ⟨s, _, ⟨opened, rfl⟩, h⟩
    refine ⟨s, opened, ?_⟩
    cases next : s.nextPending? with
    | none =>
        simp only [next, ends_pure] at h
        exact .inl ⟨rfl, h.1, h.2⟩
    | some row =>
        simp only [next] at h
        simp only [ends_bind, ends_storeAt, ends_pure] at h
        obtain ⟨now, k, read, u, j, changed, t', _, ⟨left, rfl⟩, rfl, rfl⟩ := h
        obtain ⟨i, moment, rfl, rfl⟩ := ends_now_iff.mp read
        obtain ⟨s', t, opened', made, rfl⟩ := ends_change_iff.mp changed
        obtain rfl := Option.some.inj (opened.symm.trans opened')
        obtain rfl := Option.some.inj (left.symm.trans (lookup_holding t))
        exact .inr ⟨row, i, _, rfl, moment, made, rfl, rfl⟩
  · rintro ⟨s, opened, ⟨next, rfl, rfl⟩ | ⟨row, i, t, next, moment, made, rfl, rfl⟩⟩
    · exact ⟨s, n, ⟨opened, rfl⟩, by simp [next]⟩
    · refine ⟨s, m, ⟨opened, rfl⟩, ?_⟩
      simp only [next, ends_bind, ends_storeAt, ends_pure]
      exact ⟨_, _, ends_now_iff.mpr ⟨i, moment, rfl, rfl⟩, (), _,
        ends_change_iff.mpr ⟨s, t, opened, made, rfl⟩,
        t, _, ⟨lookup_holding t, rfl⟩, rfl, rfl⟩

/-- A claim that nothing comes between takes the oldest pending job, if there is one, and gives its
row as it is then. -/
theorem ends_claim {r : Option Store.JobRow} (h : Ends (claim l) m r n) :
    ∃ s t, m.stores.lookup l = some s ∧ n.stores.lookup l = some t ∧
      ((s.nextPending? = none ∧ r = none ∧ t = s) ∨
        ∃ row now, s.nextPending? = some row ∧ s.start (row .id) now = .ok t ∧
          r = t.get? (row .id)) := by
  obtain ⟨s, opened, ⟨next, rfl, rfl⟩ | ⟨row, i, t, next, -, made, rfl, rfl⟩⟩ := ends_claim_iff.mp h
  · exact ⟨s, s, opened, opened, .inl ⟨next, rfl, rfl⟩⟩
  · exact ⟨s, t, opened, lookup_holding t, .inr ⟨row, i.text, next, made, rfl⟩⟩

/-- Among jobs with keys of their own, the row that a claim gives is the one that it chose, moved to
processing. -/
theorem ends_claim_keyed {s : Store} {r : Option Store.JobRow} (opened : m.stores.lookup l = some s)
    (keyed : s.Keyed) (h : Ends (claim l) m r n) :
    (s.nextPending? = none ∧ r = none ∧ n.stores.lookup l = some s) ∨
      ∃ row key now, s.nextPending? = some row ∧ row .id = some key ∧
        r = some (row.setAll [(.status, some "processing"), (.updated, some now)]) ∧
        n.stores.lookup l = some (s.edit key fun q =>
          q.setAll [(.status, some "processing"), (.updated, some now)]) := by
  obtain ⟨s', t, opened', left, ⟨next, rfl, rfl⟩ | ⟨row, now, next, started, rfl⟩⟩ := ends_claim h
  · obtain rfl := Option.some.inj (opened.symm.trans opened')
    exact .inl ⟨next, rfl, left⟩
  · obtain rfl := Option.some.inj (opened.symm.trans opened')
    obtain ⟨mem, -⟩ := Store.nextPending?_eq_some next
    obtain ⟨key, own⟩ := keyed.someKey row mem
    rw [own] at started
    have moved : row.setAll [(.status, some "processing"), (.updated, some now)] ∈ t.jobs := by
      rw [Store.start_eq started]
      exact List.mem_map.mpr ⟨row, mem, if_pos own⟩
    have found := ((Store.start_moves started).keyed keyed).get?_of_mem moved
    exact .inr ⟨row, key, now, next, own, found, Store.start_eq started ▸ left⟩

/-! ## What operations leave alone -/

/-- Only the stores, the clock and the count of identifiers may differ. -/
def Bookkeeping (m n : Machine) : Prop :=
  n = { m with clock := n.clock, issued := n.issued, stores := n.stores }

instance : IsPreorder Machine Bookkeeping where
  refl _ := rfl
  trans m k n first second := by
    unfold Bookkeeping at first second ⊢
    rw [second, first]

theorem ends_now_eq {now : String} (h : Ends Machine.now m now n) :
    n = { m with clock := n.clock } := by
  obtain ⟨i, -, -, rfl⟩ := ends_now_iff.mp h
  rfl

theorem fails_now_iff {f : Failure} :
    Fails Machine.now m f n ↔ m.moment? = none ∧ f = .clock ∧ n = m := by
  simp only [Machine.now, fails_bind, not_fails_get, ends_get, false_or, Machine.moment?]
  constructor
  · rintro ⟨_, _, ⟨rfl, rfl⟩, h⟩
    split at h
    · rename_i outside
      simp only [fails_bind, not_ends_throw, false_and, exists_false, or_false, fails_throw] at h
      exact ⟨if_pos outside, h⟩
    · simp only [fails_bind, not_fails_pure, not_fails_set, and_false, exists_false, or_false] at h
  · rintro ⟨none, rfl, rfl⟩
    refine ⟨n, n, ⟨rfl, rfl⟩, ?_⟩
    split at none
    · rename_i outside
      rw [if_pos outside]
      exact fails_bind.mpr (.inl (fails_throw.mpr ⟨rfl, rfl⟩))
    · cases none

theorem fails_now {f : Failure} (h : Fails Machine.now m f n) : f = .clock ∧ n = m :=
    (fails_now_iff.mp h).2

theorem ends_freshId_iff {id : String} : Ends Machine.freshId m id n ↔
    id = Machine.identifier (m.issued + 1) ∧ n = { m with issued := m.issued + 1 } := by
  simp only [Machine.freshId, ends_bind, ends_get, ends_set, ends_pure]
  constructor
  · rintro ⟨_, _, ⟨rfl, rfl⟩, _, _, rfl, rfl, rfl⟩
    exact ⟨rfl, rfl⟩
  · rintro ⟨rfl, rfl⟩
    exact ⟨m, m, ⟨rfl, rfl⟩, (), _, rfl, rfl, rfl⟩

theorem ends_freshId {id : String} (h : Ends Machine.freshId m id n) :
    id = Machine.identifier (m.issued + 1) ∧ n = { m with issued := m.issued + 1 } :=
  ends_freshId_iff.mp h

theorem not_fails_freshId {f : Failure} : ¬ Fails Machine.freshId m f n := by
  simp only [Machine.freshId, fails_bind, not_fails_get, not_fails_set, not_fails_pure, and_false,
    exists_false, or_false, not_false_eq_true]

theorem fails_storeAt_iff {f : Failure} :
    Fails (storeAt l) m f n ↔ m.stores.lookup l = none ∧ f = .store .unopened ∧ n = m := by
  simp only [storeAt, fails_bind, not_fails_get, ends_get, false_or]
  constructor
  · rintro ⟨_, k, ⟨rfl, rfl⟩, h⟩
    cases opened : k.stores.lookup l with
    | none => simpa [opened] using h
    | some s => simp [opened] at h
  · rintro ⟨none, rfl, rfl⟩
    exact ⟨n, n, ⟨rfl, rfl⟩, by simp [none]⟩

theorem fails_storeAt {f : Failure} (h : Fails (storeAt l) m f n) : f = .store .unopened ∧ n = m :=
  (fails_storeAt_iff.mp h).2

/-- A change fails where there is no store, or when the store refuses it. -/
theorem fails_change_iff {g : Store → Except Store.Fault Store} {f : Failure} :
    Fails (change l g) m f n ↔
    n = m ∧ (m.stores.lookup l = none ∧ f = .store .unopened ∨
      ∃ s fault, m.stores.lookup l = some s ∧ g s = .error fault ∧ f = .store fault) := by
  simp only [change, fails_bind, ends_storeAt, fails_storeAt_iff, fails_lift, not_fails_modify,
    and_false,
    exists_false, or_false]
  constructor
  · rintro (⟨none, rfl, rfl⟩ | ⟨s, _, ⟨opened, rfl⟩, fault, refused, rfl, rfl⟩)
    · exact ⟨rfl, .inl ⟨none, rfl⟩⟩
    · exact ⟨rfl, .inr ⟨s, fault, opened, refused, rfl⟩⟩
  · rintro ⟨rfl, ⟨none, rfl⟩ | ⟨s, fault, opened, refused, rfl⟩⟩
    · exact .inl ⟨none, rfl, rfl⟩
    · exact .inr ⟨s, n, ⟨opened, rfl⟩, fault, refused, rfl, rfl⟩

theorem fails_change {g : Store → Except Store.Fault Store} {f : Failure}
    (h : Fails (change l g) m f n) :
    (∃ fault, f = .store fault) ∧ n = m := by
  obtain ⟨same, ⟨-, rfl⟩ | ⟨s, fault, -, -, rfl⟩⟩ := fails_change_iff.mp h
  · exact ⟨⟨_, rfl⟩, same⟩
  · exact ⟨⟨_, rfl⟩, same⟩

/-- A change at the moment that the clock shows fails without a moment, or as the change does. -/
theorem fails_timed {g : String → Store → Except Store.Fault Store} {f : Failure}
    (h : Fails (Machine.now >>= fun now => change l (g now)) m f n) :
    (f = .clock ∨ ∃ fault, f = .store fault) ∧ n.stores = m.stores := by
  rcases fails_bind.mp h with failed | ⟨now, k, read, failed⟩
  · obtain ⟨rfl, rfl⟩ := fails_now failed
    exact ⟨.inl rfl, rfl⟩
  · obtain ⟨fault, rfl⟩ := fails_change failed
    exact ⟨.inr fault, ends_now read⟩

/-- A claim fails where there is no store, or when the chosen job cannot be started. -/
theorem fails_claim {f : Failure} (h : Fails (claim l) m f n) : n.stores = m.stores ∧
    (m.stores.lookup l = none ∨ ∃ s row, m.stores.lookup l = some s ∧ s.nextPending? = some row ∧
      (m.moment? = none ∧ f = .clock ∨
        ∃ i fault, m.moment? = some i ∧ s.start (row .id) i.text = .error fault ∧
        f = .store fault)) := by
  simp only [claim, fails_bind (x := storeAt l), ends_storeAt, fails_storeAt_iff] at h
  obtain ⟨none, -, rfl⟩ | ⟨s, _, ⟨opened, rfl⟩, h⟩ := h
  · exact ⟨rfl, .inl none⟩
  cases next : s.nextPending? with
  | none =>
      simp only [next] at h
      exact absurd h not_fails_pure
  | some row =>
      simp only [next] at h
      rcases fails_bind.mp h with failed | ⟨now, k, read, h⟩
      · obtain ⟨none, rfl, rfl⟩ := fails_now_iff.mp failed
        exact ⟨rfl, .inr ⟨s, row, opened, next, .inl ⟨none, rfl⟩⟩⟩
      obtain ⟨i, moment, rfl, rfl⟩ := ends_now_iff.mp read
      rcases fails_bind.mp h with failed | ⟨u, j, changed, h⟩
      · obtain ⟨rfl, ⟨none, -⟩ | ⟨s', fault, opened', refused, rfl⟩⟩ := fails_change_iff.mp failed
        · exact absurd (none.symm.trans opened) nofun
        · obtain rfl := Option.some.inj (opened.symm.trans opened')
          exact ⟨rfl, .inr ⟨s, row, opened, next, .inr ⟨i, fault, moment, refused, rfl⟩⟩⟩
      -- the store that was changed is there to be looked at
      · obtain ⟨s', t, -, -, rfl⟩ := ends_change_iff.mp changed
        simp only [fails_bind, fails_storeAt_iff, lookup_holding, not_fails_pure, and_false,
          exists_false,
          or_false, reduceCtorEq, false_and] at h

theorem keeps_now : Keeps Bookkeeping Machine.now :=
  keeps_iff.mpr ⟨fun m _ n h => by rw [ends_now_eq h]; rfl,
    fun m _ n h => by rw [(fails_now h).2]; rfl⟩

theorem keeps_freshId : Keeps Bookkeeping Machine.freshId :=
  keeps_iff.mpr ⟨fun m _ n h => by rw [(ends_freshId h).2]; rfl,
    fun m _ n h => absurd h not_fails_freshId⟩

theorem keeps_storeAt (l : Location) : Keeps Bookkeeping (storeAt l) :=
  keeps_iff.mpr ⟨fun m _ n h => by rw [(ends_storeAt.mp h).2]; rfl,
    fun m _ n h => by rw [(fails_storeAt h).2]; rfl⟩

theorem keeps_change (l : Location) (g : Store → Except Store.Fault Store) :
    Keeps Bookkeeping (change l g) :=
  keeps_bind (keeps_storeAt l) fun _ => keeps_bind (keeps_lift _ _) fun _ =>
    keeps_modify fun _ => rfl

theorem keeps_get? (l : Location) (id : Value) : Keeps Bookkeeping (get? l id) :=
  keeps_bind (keeps_storeAt l) fun _ => keeps_bind (keeps_lift _ _) fun _ => keeps_pure _

theorem keeps_claim (l : Location) : Keeps Bookkeeping (claim l) := by
  refine keeps_bind (keeps_storeAt l) fun s => ?_
  split
  · exact keeps_pure _
  · exact keeps_bind keeps_now fun _ => keeps_bind (keeps_change l _) fun _ =>
      keeps_bind (keeps_storeAt l) fun _ => keeps_pure _

theorem keeps_enqueue (l : Location) (o : Store.Order) : Keeps Bookkeeping (enqueue l o) :=
  keeps_bind (keeps_lift _ _) fun _ => keeps_bind keeps_now fun _ => keeps_bind keeps_freshId
    fun _ => keeps_bind (keeps_change l _) fun _ => keeps_get? l _

theorem keeps_markDone (l : Location) (id url : Value) : Keeps Bookkeeping (markDone l id url) :=
  keeps_bind keeps_now fun _ => keeps_change l _

theorem keeps_markError (l : Location) (id message : Value) :
    Keeps Bookkeeping (markError l id message) :=
  keeps_bind keeps_now fun _ => keeps_change l _

theorem keeps_addVideo (l : Location) (user url filename storagePath : Value) :
    Keeps Bookkeeping (addVideo l user url filename storagePath) :=
  keeps_bind keeps_freshId fun _ => keeps_bind keeps_now fun _ => keeps_change l _

/-! ## What operations do to the store -/

theorem ends_look {k : String} (encodable : Text.unencodable? k = none) {r : Option Store.JobRow} :
    Ends (get? l (.text k)) m r n ↔ ∃ s, m.stores.lookup l = some s ∧ r = s.get? (some k) ∧ n = m := by
  have key : Store.cell 1 (.text k) = .ok (some k) := Store.cell_text.mpr ⟨encodable, rfl⟩
  simp only [get?, ends_bind, ends_storeAt, ends_lift, ends_pure]
  constructor
  · rintro ⟨s, _, ⟨opened, rfl⟩, c, _, ⟨held, rfl⟩, rfl, rfl⟩
    exact ⟨s, opened, by rw [Except.ok.inj (key.symm.trans held)], rfl⟩
  · rintro ⟨s, opened, rfl, rfl⟩
    exact ⟨s, n, ⟨opened, rfl⟩, some k, n, ⟨key, rfl⟩, rfl, rfl⟩

/-- A job is added when its configuration has a stored form, the clock shows a moment, and the store at
the place takes it. -/
theorem ends_enqueue_iff {o : Store.Order} {r : Option Store.JobRow} : Ends (enqueue l o) m r n ↔
    ∃ config i s t, Store.storedConfig o.editConfig = .ok config ∧ m.moment? = some i ∧
      m.stores.lookup l = some s ∧
      s.enqueue (Machine.identifier (m.issued + 1)) i.text { o with editConfig := config } = .ok t ∧
      r = t.get? (some (Machine.identifier (m.issued + 1))) ∧
      n = { m with clock := m.clock + Machine.tick, issued := m.issued + 1 }.holding l t := by
  have encodable := Machine.unencodable?_identifier (m.issued + 1)
  simp only [enqueue, ends_bind, ends_lift]
  constructor
  · rintro ⟨config, _, ⟨stored, rfl⟩, now, _, read, id, _, given, _, _, changed, looked⟩
    obtain ⟨i, moment, rfl, rfl⟩ := ends_now_iff.mp read
    obtain ⟨rfl, rfl⟩ := ends_freshId given
    obtain ⟨s, t, opened, made, rfl⟩ := ends_change_iff.mp changed
    obtain ⟨t', left, rfl, rfl⟩ := (ends_look encodable).mp looked
    obtain rfl := Option.some.inj (left.symm.trans (lookup_holding t))
    exact ⟨config, i, s, _, stored, moment, opened, made, rfl, rfl⟩
  · rintro ⟨config, i, s, t, stored, moment, opened, made, rfl, rfl⟩
    exact ⟨config, m, ⟨stored, rfl⟩, _, _, ends_now_iff.mpr ⟨i, moment, rfl, rfl⟩, _, _,
      ends_freshId_iff.mpr ⟨rfl, rfl⟩, (), _, ends_change_iff.mpr ⟨s, t, opened, made, rfl⟩,
      (ends_look encodable).mpr ⟨t, lookup_holding t, rfl, rfl⟩⟩

theorem ends_enqueue {o : Store.Order} {r : Option Store.JobRow} (h : Ends (enqueue l o) m r n) :
    ∃ s t i now o', m.stores.lookup l = some s ∧ n.stores.lookup l = some t ∧
      s.enqueue (Machine.identifier i) now o' = .ok t := by
  obtain ⟨config, i, s, t, -, -, opened, made, -, rfl⟩ := ends_enqueue_iff.mp h
  exact ⟨s, t, _, _, _, opened, lookup_holding t, made⟩

theorem ends_markDone {k url : String} {u : Unit}
    (h : Ends (markDone l (.text k) (.text url)) m u n) :
    Text.unencodable? k = none ∧ ∃ s now, m.stores.lookup l = some s ∧
      n.stores.lookup l = some (s.edit k fun r =>
        r.setAll [(.status, some "done"), (.outputUrl, some url), (.updated, some now)]) := by
  simp only [markDone, ends_bind] at h
  obtain ⟨now, j, read, changed⟩ := h
  obtain ⟨s, t, opened, marked, left⟩ := ends_change changed
  obtain ⟨encodable, c, held, rfl⟩ := Store.markDone_eq marked
  obtain ⟨-, rfl⟩ := Store.cell_text.mp held
  exact ⟨encodable, s, now, ends_now read ▸ opened, left⟩

theorem ends_markError {k message : String} {u : Unit}
    (h : Ends (markError l (.text k) (.text message)) m u n) :
    Text.unencodable? k = none ∧ ∃ s now, m.stores.lookup l = some s ∧
      n.stores.lookup l = some (s.edit k fun r =>
        r.setAll [(.status, some "error"), (.errorMessage, some message), (.updated, some now)]) := by
  simp only [markError, ends_bind] at h
  obtain ⟨now, j, read, changed⟩ := h
  obtain ⟨s, t, opened, marked, left⟩ := ends_change changed
  obtain ⟨encodable, c, held, rfl⟩ := Store.markError_eq marked
  obtain ⟨-, rfl⟩ := Store.cell_text.mp held
  exact ⟨encodable, s, now, ends_now read ▸ opened, left⟩

theorem ends_addVideo {user url filename storagePath : String} {u : Unit}
    (h : Ends (addVideo l (.text user) (.text url) (.text filename) (.text storagePath)) m u n) :
    ∃ s id now, m.stores.lookup l = some s ∧ n.stores.lookup l = some { s with
      videos := s.videos ++ [⟨id, user, url, filename, "output", storagePath, now⟩] } := by
  simp only [addVideo, ends_bind] at h
  obtain ⟨id, k, given, now, j, read, changed⟩ := h
  obtain ⟨s, t, opened, added, left⟩ := ends_change changed
  rw [ends_now read, (ends_freshId given).2] at opened
  refine ⟨s, id, now, opened, ?_⟩
  rw [left]
  simp only [Store.addVideo, Outcome.bind_eq_ok, Store.cell_text] at added
  obtain ⟨_, ⟨-, rfl⟩, _, ⟨-, rfl⟩, _, ⟨-, rfl⟩, _, ⟨-, rfl⟩, _, ⟨⟩, _, ⟨⟩, _, ⟨⟩, _, ⟨⟩, added⟩ := added
  split at added
  · simp at added
  · exact congrArg some (Except.ok.inj added).symm

theorem fails_addVideo {user url filename storagePath : Value} {f : Failure}
    (h : Fails (addVideo l user url filename storagePath) m f n) :
    (f = .clock ∨ ∃ fault, f = .store fault) ∧ n.stores = m.stores := by
  rcases fails_bind.mp h with failed | ⟨id, k, given, failed⟩
  · exact absurd failed not_fails_freshId
  · obtain ⟨cause, stores⟩ := fails_timed failed
    exact ⟨cause, stores.trans (by rw [(ends_freshId given).2])⟩

/-- A job that is not added leaves the stores alone. -/
theorem fails_enqueue {o : Store.Order} {f : Failure} (h : Fails (enqueue l o) m f n) :
    n.stores = m.stores := by
  rcases fails_bind.mp h with failed | ⟨config, k, stored, rest⟩
  · obtain ⟨e, -, -, rfl⟩ := fails_lift.mp failed
    rfl
  rw [(ends_lift.mp stored).2] at rest
  rcases fails_bind.mp rest with failed | ⟨now, k, read, rest⟩
  · rw [(fails_now failed).2]
  obtain ⟨i, -, -, rfl⟩ := ends_now_iff.mp read
  rcases fails_bind.mp rest with failed | ⟨id, k, given, rest⟩
  · exact absurd failed not_fails_freshId
  obtain ⟨rfl, rfl⟩ := ends_freshId given
  rcases fails_bind.mp rest with failed | ⟨u, k, changed, failed⟩
  · rw [(fails_change failed).2]
  -- the new job has a key that can be looked up
  · obtain ⟨s, t, -, -, rfl⟩ := ends_change_iff.mp changed
    simp only [get?, fails_bind, fails_storeAt_iff, lookup_holding, ends_storeAt, ends_lift,
      fails_lift, not_fails_pure,
      Store.cell, Machine.unencodable?_identifier, reduceCtorEq, false_and, and_false, exists_false,
      or_false] at failed

end Jobs
end Splice
