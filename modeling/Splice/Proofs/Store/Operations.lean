import Splice.Proofs.Calendar
import Splice.Proofs.Jobs
import Splice.Proofs.Store.Lawful

/-! # Operations on the tables

An operation that fails leaves the tables alone. One that succeeds adds a row, or changes at most the row
of the job that it is about, at the moment that the clock shows. What any run of operations on an empty
store leads to follows from what each one does.
-/

namespace Splice.Jobs

open Splice.Action Store

/-- An operation that may change the tables. -/
inductive Operation where
  | enqueue (order : Order)
  | claim
  | markDone (id outputUrl : Value)
  | markError (id message : Value)
  | update (id : Value) (values : List (String × Value))
  | addVideo (user url filename storagePath : Value)

variable {l : Location} {m n : Machine} {s t : Store}

namespace Operation

/-- Run an operation on the store at a place. A new or claimed job is given. -/
def perform (l : Location) : Operation → Action (Option JobRow)
  | .enqueue order => Jobs.enqueue l order
  | .claim => Jobs.claim l
  | .markDone id outputUrl => Jobs.markDone l id outputUrl >>= fun _ => pure none
  | .markError id message => Jobs.markError l id message >>= fun _ => pure none
  | .update id values => Jobs.update l id values >>= fun _ => pure none
  | .addVideo user url filename storagePath =>
      Jobs.addVideo l user url filename storagePath >>= fun _ => pure none

/-- The columns that an operation sets, besides the time of the last change. -/
def columns : Operation → List JobColumn
  | .claim => [.status]
  | .markDone .. => [.status, .outputUrl]
  | .markError .. => [.status, .errorMessage]
  | .update _ values => named values
  | .enqueue _ | .addVideo .. => []

/-- The key of the job that an operation is about: the one given, or the one that is claimed. -/
def Addresses (s : Store) (key : Cell) : Operation → Prop
  | .claim => ∃ row, s.nextPending? = some row ∧ row .id = key
  | .markDone id _ | .markError id _ | .update id _ => ∃ p, cell p id = .ok key
  | .enqueue _ | .addVideo .. => False

/-- The job that an operation gives: a new one or one that was claimed, as it is in the end. -/
def shown (t : Store) (key : Cell) : Operation → Option JobRow
  | .enqueue _ | .claim => t.get? key
  | _ => none

/-- How an operation gets from one store to another, at a moment and about a key. -/
inductive Makes (s : Store) (i : Instant) : Operation → Cell → Store → Prop
  | job {o o' : Order} {id : String} {t : Store} (made : s.enqueue id i.text o' = .ok t) :
      Makes s i (.enqueue o) (some id) t
  | change {op : Operation} {key : Cell} {changes : List (JobColumn × Cell)} {t : Store}
      (addressed : op.Addresses s key) (made : s.change key changes = .ok t)
      (timed : (.updated, some i.text) ∈ changes)
      (only : ∀ c ∈ changes, c = (.updated, some i.text) ∨ c.1 ∈ op.columns) : Makes s i op key t
  | video {user url filename storagePath : Value} {id : String} {t : Store}
      (made : s.addVideo id i.text user url filename storagePath = .ok t) :
      Makes s i (.addVideo user url filename storagePath) none t

/-- An update at a moment is a change of the job of its key. -/
theorem makes_update {op : Operation} {i : Instant} {id : Value} {values : List (String × Value)}
    (about : ∀ p key, cell p id = .ok key → op.Addresses s key) (sets : named values = op.columns)
    (made : s.update id i.text values = .ok t) : ∃ key, Makes s i op key t := by
  obtain ⟨p, key, changes, stored, made, timed, only⟩ := update_eq_ok made
  exact ⟨key, .change (about p key stored) made timed (sets ▸ only)⟩

/-- What an operation that succeeds does: it finds nothing to claim, or reads the clock once and changes
the store. -/
def Does (l : Location) (op : Operation) (m : Machine) (r : Option JobRow) (n : Machine) : Prop :=
  ∃ s, m.stores.lookup l = some s ∧ ((op = .claim ∧ s.nextPending? = none ∧ r = none ∧ n = m) ∨
    ∃ i key t, m.moment? = some i ∧ n.stores.lookup l = some t ∧ n.clock = m.clock + Machine.tick ∧
      Makes s i op key t ∧ r = op.shown t key)

/-- An update at a moment that gives nothing. -/
theorem does_update {op : Operation} {id : Value} {values : List (String × Value)} {r : Option JobRow}
    (silent : ∀ t key, op.shown t key = none)
    (about : ∀ s p key, cell p id = .ok key → op.Addresses s key) (sets : named values = op.columns)
    (h : Ends ((Machine.now >>= fun now => change l fun s => s.update id now values) >>= fun _ =>
      pure none) m r n) : op.Does l m r n := by
  obtain ⟨_, _, changed, given⟩ := ends_bind.mp h
  obtain ⟨rfl, rfl⟩ := ends_pure.mp given
  obtain ⟨i, s, t, moment, opened, updated, rfl⟩ := ends_timed_iff.mp changed
  obtain ⟨key, made⟩ := makes_update (about s) sets updated
  exact ⟨s, opened, .inr ⟨i, key, t, moment, lookup_holding t, rfl, made, (silent t key).symm⟩⟩

theorem ends_perform {op : Operation} {r : Option JobRow} (h : Ends (op.perform l) m r n) :
    op.Does l m r n := by
  cases op with
  | enqueue order =>
      obtain ⟨config, i, s, t, -, moment, opened, made, rfl, rfl⟩ := ends_enqueue_iff.mp h
      exact ⟨s, opened, .inr ⟨i, _, t, moment, lookup_holding t, rfl, .job made, rfl⟩⟩
  | claim =>
      obtain ⟨s, opened, ⟨next, rfl, rfl⟩ | ⟨row, i, t, next, moment, made, rfl, rfl⟩⟩ :=
        ends_claim_iff.mp h
      · exact ⟨s, opened, .inl ⟨rfl, next, rfl, rfl⟩⟩
      · refine ⟨s, opened, .inr ⟨i, row .id, t, moment, lookup_holding t, rfl, ?_, rfl⟩⟩
        exact .change ⟨row, next, rfl⟩ made (by simp) (by simp [columns])
  | markDone id outputUrl =>
      exact does_update (fun _ _ => rfl) (fun s p key stored => ⟨p, stored⟩)
        (named_names [(.status, .text "done"), (.outputUrl, outputUrl)]) h
  | markError id message =>
      exact does_update (fun _ _ => rfl) (fun s p key stored => ⟨p, stored⟩)
        (named_names [(.status, .text "error"), (.errorMessage, message)]) h
  | update id values =>
      simp only [perform, Jobs.update] at h
      split at h
      · obtain ⟨_, _, failed, -⟩ := ends_bind.mp h
        exact absurd failed not_ends_throw
      · exact does_update (fun _ _ => rfl) (fun s p key stored => ⟨p, stored⟩) rfl h
  | addVideo user url filename storagePath =>
      obtain ⟨_, _, added, given⟩ := ends_bind.mp h
      obtain ⟨rfl, rfl⟩ := ends_pure.mp given
      obtain ⟨id, k, issued, changed⟩ := ends_bind.mp added
      obtain ⟨-, rfl⟩ := ends_freshId issued
      obtain ⟨i, s, t, moment, opened, made, rfl⟩ := ends_timed_iff.mp changed
      exact ⟨s, opened, .inr ⟨i, none, t, moment, lookup_holding t, rfl, .video made, rfl⟩⟩

theorem fails_perform {op : Operation} {f : Failure} (h : Fails (op.perform l) m f n) :
    n.stores = m.stores := by
  have quiet {x : Action Unit} (kept : ∀ f n, Fails x m f n → n.stores = m.stores)
      (h : Fails (x >>= fun _ => pure (none : Option JobRow)) m f n) : n.stores = m.stores := by
    rcases fails_bind.mp h with failed | ⟨_, k, -, failed⟩
    · exact kept f n failed
    · exact absurd failed not_fails_pure
  cases op with
  | enqueue order => exact fails_enqueue h
  | claim => exact (fails_claim h).1
  | markDone | markError => exact quiet (fun _ _ failed => (fails_timed failed).2) h
  | update id values =>
      refine quiet (fun f n failed => ?_) h
      simp only [Jobs.update] at failed
      split at failed
      · rw [(fails_throw.mp failed).2]
      · exact (fails_timed failed).2
  | addVideo => exact quiet (fun _ _ failed => (fails_addVideo failed).2) h

/-! ## What operations do to the tables -/

/-- An operation adds one row, or changes at most the row of the job that it is about, and of that row
only the columns that it sets and the time of the last change. -/
def Effect (s t : Store) : Operation → Prop
  | .enqueue _ => (∃ row, t.jobs = s.jobs ++ [row]) ∧ t.videos = s.videos
  | .addVideo .. => (∃ v, t.videos = s.videos ++ [v]) ∧ t.jobs = s.jobs
  | op => t.videos = s.videos ∧ (t.jobs = s.jobs ∨
      ∃ key, op.Addresses s key ∧ Touches key (.updated :: op.columns) s.jobs t.jobs)

/-- An operation keeps the rules of the tables. -/
theorem Makes.effect {op : Operation} {i : Instant} {key : Cell} (lawful : s.Lawful)
    (h : Makes s i op key t) :
    op.Effect s t ∧ t.Lawful := by
  cases h with
  | job made =>
      obtain ⟨row, -, -, -, -, rfl, after⟩ := lawful.enqueue made
      exact ⟨⟨⟨row, rfl⟩, rfl⟩, after⟩
  | @change _ _ changes _ addressed made timed only =>
      obtain ⟨touches, videos, after⟩ := lawful.change made
      have less : changes.map Prod.fst ⊆ .updated :: op.columns := by
        intro c mem
        obtain ⟨d, given, rfl⟩ := List.mem_map.mp mem
        rcases only d given with rfl | known
        · exact List.mem_cons_self ..
        · exact List.mem_cons_of_mem _ known
      refine ⟨?_, after⟩
      cases op with
      | enqueue | addVideo => exact addressed.elim
      | _ => exact ⟨videos, .inr ⟨key, addressed, touches.mono less⟩⟩
  | video made =>
      obtain ⟨v, -, -, rfl, after⟩ := lawful.addVideo made
      exact ⟨⟨⟨v, rfl⟩, rfl⟩, after⟩

/-- Whether the times of a job are left to the store. -/
def LeavesTimes (op : Operation) : Prop := .created ∉ op.columns ∧ .updated ∉ op.columns

end Operation

/-- The times of a job are among some instants, and it was not changed before it was created. -/
def Timed (seen : List Instant) (r : JobRow) : Prop :=
  ∃ i ∈ seen, ∃ j ∈ seen, r .created = some i.text ∧ r .updated = some j.text ∧ i.micros ≤ j.micros

theorem Timed.mono {seen more : List Instant} {r : JobRow} (h : Timed seen r) (sub : seen ⊆ more) :
    Timed more r := by
  obtain ⟨i, mem, j, mem', times⟩ := h
  exact ⟨i, sub mem, j, sub mem', times⟩

/-- An operation at a moment that none was seen after keeps the times of all jobs. -/
theorem Operation.Makes.timed {op : Operation} {i : Instant} {key : Cell} {seen : List Instant}
    (lawful : s.Lawful)
    (h : Makes s i op key t) (leaves : op.LeavesTimes) (last : ∀ j ∈ seen, j.micros ≤ i.micros)
    (times : ∀ r ∈ s.jobs, Timed seen r) : ∀ r ∈ t.jobs, Timed (seen ++ [i]) r := by
  have known (r : JobRow) (mem : r ∈ s.jobs) : Timed (seen ++ [i]) r :=
    (times r mem).mono (List.subset_append_left ..)
  have now : i ∈ seen ++ [i] := List.mem_append_right _ (List.mem_singleton_self i)
  intro r mem
  cases h with
  | job made =>
      obtain ⟨row, -, -, created, updated, rfl, -⟩ := lawful.enqueue made
      rcases List.mem_append.mp mem with mem | mem
      · exact known r mem
      · obtain rfl := List.mem_singleton.mp mem
        exact ⟨i, now, i, now, created, updated, Nat.le_refl _⟩
  | change addressed made timed only =>
      obtain ⟨rfl, -⟩ := change_eq_ok.mp made
      obtain ⟨q, held, rfl⟩ := List.mem_map.mp mem
      split
      · obtain ⟨j, earlier, -, -, created, -⟩ := times q held
        refine ⟨j, List.mem_append_left _ earlier, i, now, ?_, ?_, last j earlier⟩
        · refine (setAll_other fun v given => ?_).trans created
          rcases only _ given with same | named
          · cases same
          · exact leaves.1 named
        · refine setAll_only timed fun w given => ?_
          rcases only _ given with same | named
          · exact (Prod.mk.inj same).2
          · exact absurd named leaves.2
      · exact known q held
  | video made =>
      obtain ⟨v, -, -, rfl, -⟩ := lawful.addVideo made
      exact known r mem

/-! ## Runs of operations -/

/-- An operation that was run, with the machines around it. -/
structure Event where
  operation : Operation
  before : Machine
  outcome : Except Failure (Option JobRow)
  after : Machine

/-- What the clock showed to an operation. The clock goes on when it is read. -/
def Event.reading? (e : Event) : Option Instant :=
  if e.after.clock = e.before.clock then none else e.before.moment?

def readings (events : List Event) : List Instant := events.filterMap Event.reading?

/-- How a store that was empty got to what it is: by operations, in which anything may fail, while
everything but its tables may become another in between. -/
inductive History (l : Location) : List Event → Machine → Prop
  | empty {m : Machine} {s : Store} (opened : m.stores.lookup l = some s) (jobs : s.jobs = [])
      (videos : s.videos = []) : History l [] m
  | around {events : List Event} {m n : Machine} {s t : Store} (h : History l events m)
      (before : m.stores.lookup l = some s) (after : n.stores.lookup l = some t) (jobs : t.jobs = s.jobs)
      (videos : t.videos = s.videos) : History l events n
  | perform {events : List Event} {m n : Machine} {op : Operation} {o : Except Failure (Option JobRow)}
      (h : History l events m) (ran : Gives (op.perform l) m o n) :
      History l (events ++ [⟨op, m, o, n⟩]) n

/-- A store with a history follows the rules of its tables. -/
theorem History.lawful {events : List Event} (h : History l events m) :
    ∃ s, m.stores.lookup l = some s ∧ s.Lawful := by
  induction h with
  | empty opened jobs videos => exact ⟨_, opened, .of_empty jobs videos⟩
  | around h before after jobs videos ih =>
      obtain ⟨s, opened, lawful⟩ := ih
      obtain rfl := Option.some.inj (opened.symm.trans before)
      exact ⟨_, after, lawful.congr jobs videos⟩
  | @perform events m n op o h ran ih =>
      obtain ⟨s, opened, lawful⟩ := ih
      cases o with
      | error f =>
          have stores := Operation.fails_perform (gives_error.mp ran)
          exact ⟨s, stores ▸ opened, lawful⟩
      | ok r =>
          obtain ⟨s', opened', ⟨-, -, -, rfl⟩ | ⟨i, key, t, -, left, -, made, -⟩⟩ :=
            Operation.ends_perform (gives_ok.mp ran)
          · exact ⟨s, opened, lawful⟩
          · obtain rfl := Option.some.inj (opened.symm.trans opened')
            exact ⟨t, left, (made.effect lawful).2⟩

/-- If the clock never went back, and the times of jobs were left to the store, they are what it
showed. -/
theorem History.timed {events : List Event} (h : History l events m)
    (forward : (readings events).Pairwise fun i j => i.micros ≤ j.micros)
    (leaves : ∀ e ∈ events, e.operation.LeavesTimes) (opened : m.stores.lookup l = some s) :
    ∀ r ∈ s.jobs, Timed (readings events) r := by
  induction h generalizing s with
  | empty opened' jobs videos =>
      obtain rfl := Option.some.inj (opened.symm.trans opened')
      rw [jobs]
      exact fun r => nofun
  | around h before after jobs videos ih =>
      obtain rfl := Option.some.inj (opened.symm.trans after)
      rw [jobs]
      exact ih forward leaves before
  | @perform events m n op o h ran ih =>
      have split : readings (events ++ [⟨op, m, o, n⟩]) = readings events ++ readings [⟨op, m, o, n⟩] :=
        List.filterMap_append
      rw [split] at forward ⊢
      obtain ⟨before, -, last⟩ := List.pairwise_append.mp forward
      obtain ⟨old, opened', lawful⟩ := h.lawful
      have times := ih before (fun e mem => leaves e (List.mem_append_left _ mem)) opened'
      have same : n.stores = m.stores →
        ∀ r ∈ s.jobs, Timed (readings events ++ readings [⟨op, m, o, n⟩]) r := by
        intro stores r mem
        obtain rfl := Option.some.inj (opened'.symm.trans (stores ▸ opened))
        exact (times r mem).mono (List.subset_append_left ..)
      cases o with
      | error f => exact same (Operation.fails_perform (gives_error.mp ran))
      | ok r =>
          obtain ⟨s', opened₂, ⟨-, -, -, rfl⟩ | ⟨i, key, t, moment, left, ticked, made, -⟩⟩ :=
            Operation.ends_perform (gives_ok.mp ran)
          · exact same rfl
          · obtain rfl := Option.some.inj (opened'.symm.trans opened₂)
            obtain rfl := Option.some.inj (left.symm.trans opened)
            have shown : readings [⟨op, m, .ok r, n⟩] = [i] := by
              have moved : n.clock ≠ m.clock := by
                rw [ticked, Machine.tick]
                omega
              simp only [readings, List.filterMap_cons, Event.reading?, if_neg moved, moment,
                List.filterMap_nil]
            rw [shown] at last ⊢
            refine made.timed lawful
              (leaves _ (List.mem_append_right _ (List.mem_singleton_self _))) ?_ times
            exact fun j mem => last j mem i (List.mem_singleton_self i)

/-! ## Faults -/

/-- A claim of a job that waits gives that job, when nothing is in the way. -/
theorem exists_ends_claim {row : JobRow} {k : String} {i : Instant} (opened : m.stores.lookup l = some s)
    (lawful : s.Lawful) (next : s.nextPending? = some row) (own : row .id = some k)
    (free : s.blocked = false)
    (moment : m.moment? = some i) : ∃ n, Ends (claim l) m
      (some (row.setAll [(.status, some "processing"), (.updated, some i.text)])) n := by
  obtain ⟨t, started⟩ := lawful.start free (row .id) i.text
  refine ⟨_, ends_claim_iff.mpr ⟨s, opened, .inr ⟨row, i, t, next, moment, started, ?_, rfl⟩⟩⟩
  have after : t.Lawful := (lawful.change started).2.2
  rw [own] at started ⊢
  have moved : row.setAll [(.status, some "processing"), (.updated, some i.text)] .id = some k := own
  refine (after.get?_of_mem ?_ moved).symm
  rw [start_eq started]
  exact List.mem_map.mpr ⟨row, (nextPending?_eq_some next).1, if_pos own⟩

/-- A claim that the store refuses chose a job with a key; once nothing is in the way, it is claimed. -/
theorem claim_after_refusal {fault : Fault} (opened : m.stores.lookup l = some s) (lawful : s.Lawful)
    (h : Fails (claim l) m (.store fault) n) : ∃ row, s.nextPending? = some row ∧
      ∀ k t i, k.stores.lookup l = some t → t.jobs = s.jobs → t.videos = s.videos → t.blocked = false →
        k.moment? = some i → ∃ j, Ends (claim l) k
          (some (row.setAll [(.status, some "processing"), (.updated, some i.text)])) j := by
  obtain ⟨-, none | ⟨s', row, opened', next, ⟨-, absurd⟩ | ⟨i, f, -, refused, -⟩⟩⟩ := fails_claim h
  · cases none.symm.trans opened
  · cases absurd
  obtain rfl := Option.some.inj (opened.symm.trans opened')
  have own : ∃ key, row .id = some key := by
    cases id : row .id with
    | some key => exact ⟨key, rfl⟩
    | none =>
        -- no row is the one of no key, so nothing can be refused
        have kept : s.start none i.text = .ok _ := change_eq_ok.mpr ⟨rfl, fun r _ hit => by cases hit⟩
        rw [id, kept] at refused
        cases refused
  obtain ⟨key, own⟩ := own
  refine ⟨row, next, fun k t i there jobs videos free moment => ?_⟩
  have next : t.nextPending? = some row := by rw [← next, nextPending?, nextPending?, jobs]
  exact exists_ends_claim there (lawful.congr jobs videos) next own free moment

/-- A store with a job that waits, whose changes may be refused. -/
def waiting (blocked : Bool) : Store where
  jobs := [newRow "a" (Instant.mk 0).text (some "u") (some "h") (some "d") none none]
  blocked

def emptyStore : Machine where
  stores := [(["jobs.db"], {})]

def newJob : Operation := .enqueue ⟨.text "u", .text "h", .text "d", .null, .null⟩

/-- An operation as it runs on a machine. -/
def Event.of (l : Location) (op : Operation) (m : Machine) : Event :=
  ⟨op, m, ((op.perform l).run.run m).1, Action.after (op.perform l) m⟩

end Splice.Jobs
