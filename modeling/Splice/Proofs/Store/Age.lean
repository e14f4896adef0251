import Splice.Proofs.Store.Changes

/-! # The age of jobs

A job is older than another if its creation time as text is less, or the same and it was added first.
The next pending job is older than every other one that waits.
-/

namespace Splice.Store

/-- Among some jobs, one was created before another, or at the same time and stands before it. -/
def Before (jobs : List JobRow) (a b : JobRow) : Prop :=
  createdAt a < createdAt b ∨ createdAt a = createdAt b ∧ [a, b].Sublist jobs

theorem Before.mono {jobs more : List JobRow} {a b : JobRow} (h : Before jobs a b)
    (sub : jobs.Sublist more) : Before more a b :=
  h.imp_right fun ⟨same, both⟩ => ⟨same, both.trans sub⟩

/-- A job that takes another's place in a list is created later, or not at all sooner. -/
theorem foldl_older_first (r : JobRow) (rest : List JobRow) :
    (rest.foldl older r = r ∨ createdAt (rest.foldl older r) < createdAt r) ∧
      ∀ q ∈ rest, q = rest.foldl older r ∨ Before (r :: rest) (rest.foldl older r) q := by
  induction rest generalizing r with
  | nil => simp
  | cons q rest ih =>
      rw [List.foldl_cons]
      obtain ⟨head, others⟩ := ih (older r q)
      by_cases younger : createdAt q < createdAt r
      · have chosen : older r q = q := if_pos younger
        rw [chosen] at head others ⊢
        have sub : (q :: rest).Sublist (r :: q :: rest) := List.sublist_cons_self r _
        refine ⟨.inr ?_, fun p hp => ?_⟩
        · rcases head with same | less
          · rwa [same]
          · exact String.lt_trans less younger
        · rcases List.mem_cons.mp hp with rfl | hp
          · exact head.imp Eq.symm .inl
          · exact (others p hp).imp_right (·.mono sub)
      · have chosen : older r q = r := if_neg younger
        rw [chosen] at head others ⊢
        have sub : (r :: rest).Sublist (r :: q :: rest) :=
          (List.sublist_cons_self q rest).cons_cons r
        refine ⟨head, fun p hp => ?_⟩
        rcases List.mem_cons.mp hp with rfl | hp
        · right
          have later := String.not_lt.mp younger
          rcases head with same | less
          · rw [same]
            rcases Std.le_iff_lt_or_eq.mp later with less | equal
            · exact .inl less
            · exact .inr ⟨equal, by simp⟩
          · exact .inl (Std.lt_of_lt_of_le less later)
        · exact (others p hp).imp_right (·.mono sub)

theorem nextPending?_first {s : Store} {r : JobRow} (h : s.nextPending? = some r) :
    ∀ q ∈ s.jobs, q .status = some "pending" → q = r ∨ Before s.jobs r q := by
  intro q hq pending
  have mem : q ∈ s.jobs.filter isPending := List.mem_filter.mpr ⟨hq, by simp [isPending, pending]⟩
  rw [nextPending?] at h
  cases waiting : s.jobs.filter isPending with
  | nil => simp [waiting] at mem
  | cons first rest =>
      rw [waiting] at h mem
      obtain rfl := Option.some.inj h
      obtain ⟨head, others⟩ := foldl_older_first first rest
      have sub : (first :: rest).Sublist s.jobs := waiting ▸ List.filter_sublist
      rcases List.mem_cons.mp mem with rfl | mem
      · exact head.imp Eq.symm .inl
      · exact (others q mem).imp_right (·.mono sub)

end Splice.Store
