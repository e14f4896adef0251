import Splice.Proofs.Store.Changes

/-! # What the tables demand

A store that follows the rules of its tables goes on to do so. Since no two jobs share a key, a change
touches at most one row, and of that row only the columns that it names.
-/

namespace Splice.Store

variable {s t : Store} {r : JobRow}

/-- The rules of the tables: what each row must hold, and keys that differ. A job may have no key. -/
structure Lawful (s : Store) : Prop where
  rows : ∀ r ∈ s.jobs, r.check = .ok ()
  keys : s.jobs.Pairwise fun a b => (a .id).isSome → a .id ≠ b .id
  videos : (s.videos.map (·.id)).Nodup

theorem Lawful.of_empty (jobs : s.jobs = []) (videos : s.videos = []) : s.Lawful := by
  constructor
  · rw [jobs]
    exact fun r => nofun
  · rw [jobs]
    exact .nil
  · rw [videos]
    exact .nil

theorem Lawful.congr (h : s.Lawful) (jobs : t.jobs = s.jobs) (videos : t.videos = s.videos) : t.Lawful :=
  ⟨jobs ▸ h.rows, jobs ▸ h.keys, videos ▸ h.videos⟩

/-- At most the row of a key differs, and that only in some columns. -/
def Touches (key : Cell) (columns : List JobColumn) (jobs jobs' : List JobRow) : Prop :=
  jobs' = jobs ∨ ∃ before r r' after, key.isSome ∧ r .id = key ∧ jobs = before ++ r :: after ∧
    jobs' = before ++ r' :: after ∧ ∀ c, c ∉ columns → r' c = r c

theorem Touches.mono {key : Cell} {columns more : List JobColumn} {jobs jobs' : List JobRow}
    (h : Touches key columns jobs jobs') (sub : columns ⊆ more) : Touches key more jobs jobs' := by
  rcases h with same | ⟨before, r, r', after, some', own, split, split', kept⟩
  · exact .inl same
  · exact .inr ⟨before, r, r', after, some', own, split, split',
      fun c out => kept c fun mem => out (sub mem)⟩

/-! ## Rows -/

theorem check_eq_ok : r.check = .ok () ↔
    (∀ c, c.isRequired = true → (r c).isSome) ∧ ∃ status ∈ statuses, r .status = some status := by
  have full : JobColumn.all.find? (fun c => c.isRequired && (r c).isNone) = none ↔
      ∀ c, c.isRequired = true → (r c).isSome := by
    rw [List.find?_eq_none]
    constructor
    · intro h c required
      have here := h c (by cases c <;> decide)
      cases held : r c with
      | none => simp [required, held] at here
      | some v => rfl
    · intro h c _ missing
      simp only [Bool.and_eq_true, Option.isNone_iff_eq_none] at missing
      have held := h c missing.1
      rw [missing.2] at held
      cases held
  rw [JobRow.check]
  split
  · rename_i c found
    refine iff_of_false (by simp) fun h => ?_
    rw [full.mpr h.1] at found
    cases found
  · rename_i none
    rw [full] at none
    split
    · rename_i known
      simp only [List.any_eq_true, beq_iff_eq] at known
      exact iff_of_true rfl ⟨none, known⟩
    · rename_i unknown
      refine iff_of_false (by simp) fun h => unknown ?_
      simp only [List.any_eq_true, beq_iff_eq]
      exact h.2

/-- A column that changes do not name stays. -/
theorem setAll_other {changes : List (JobColumn × Cell)} {c : JobColumn}
    (other : ∀ v, (c, v) ∉ changes) :
    r.setAll changes c = r c := by
  induction changes generalizing r with
  | nil => rfl
  | cons d rest ih =>
      have apart : c ≠ d.1 := by
        rintro rfl
        exact other d.2 (List.mem_cons_self ..)
      rw [JobRow.setAll, List.foldl_cons]
      apply (ih fun v mem => other v (List.mem_cons_of_mem d mem)).trans
      exact if_neg apart

/-- A column that is given one value only has it. -/
theorem setAll_only {changes : List (JobColumn × Cell)} {c : JobColumn} {v : Cell}
    (given : (c, v) ∈ changes)
    (only : ∀ w, (c, w) ∈ changes → w = v) : r.setAll changes c = v := by
  induction changes generalizing r with
  | nil => cases given
  | cons d rest ih =>
      rw [JobRow.setAll, List.foldl_cons]
      by_cases later : (c, v) ∈ rest
      · exact ih later fun w mem => only w (List.mem_cons_of_mem d mem)
      · have none : ∀ w, (c, w) ∉ rest := by
          intro w mem
          rw [only w (List.mem_cons_of_mem d mem)] at mem
          exact later mem
        obtain rfl : (c, v) = d := (List.mem_cons.mp given).resolve_right later
        apply (setAll_other none).trans
        exact if_pos rfl

/-! ## Changes -/

/-- None of some rows has the key of one of the others. -/
theorem apart_iff {changed others : List JobRow} :
    ¬ changed.any (fun r => (r .id).isSome && others.any (· .id == r .id)) = true ↔
      ∀ r ∈ changed, (r .id).isSome → ∀ q ∈ others, q .id ≠ r .id := by
  simp only [List.any_eq_true, Bool.and_eq_true, beq_iff_eq, not_exists, not_and, ne_eq]

/-- A change is made when each row of its key may be changed, follows the rules then, and gets no key of
another row. -/
theorem change_eq_ok {key : Cell} {changes : List (JobColumn × Cell)} : s.change key changes = .ok t ↔
    t = { s with jobs := s.jobs.map fun r =>
      if (key.isSome && r .id == key) = true then r.setAll changes else r } ∧
    ∀ r ∈ s.jobs, (key.isSome && r .id == key) = true → s.blocked = false ∧
      (r.setAll changes).check = .ok () ∧
      ∀ q ∈ s.jobs, (key.isSome && q .id == key) = false → (r.setAll changes .id).isSome →
        q .id ≠ r.setAll changes .id := by
  simp only [change]
  by_cases any : s.jobs.any (fun r => key.isSome && r .id == key) = true
  · rw [if_pos any]
    obtain ⟨first, mem, hit⟩ := List.any_eq_true.mp any
    cases blocked : s.blocked with
    | true => exact iff_of_false (by simp) fun h => by cases (h.2 first mem hit).1
    | false =>
        rw [if_neg (by decide), Outcome.bind_eq_ok]
        constructor
        · rintro ⟨_, checked, h⟩
          split at h
          · simp at h
          · rename_i fresh
            have checked := Outcome.forM_eq_ok.mp checked
            have fresh := apart_iff.mp fresh
            simp only [List.forall_mem_map, List.mem_filter, and_imp, Bool.not_eq_true'] at checked fresh
            exact ⟨(Except.ok.inj h).symm, fun r mem hit => ⟨rfl, checked r mem hit,
              fun q mem' other some' => fresh r mem hit some' q mem' other⟩⟩
        · rintro ⟨rfl, passes⟩
          refine ⟨(), Outcome.forM_eq_ok.mpr ?_, ?_⟩
          · simp only [List.forall_mem_map, List.mem_filter, and_imp]
            exact fun r mem hit => (passes r mem hit).2.1
          · rw [if_neg (apart_iff.mpr ?_)]
            · rfl
            · simp only [List.forall_mem_map, List.mem_filter, and_imp, Bool.not_eq_true']
              exact fun r mem hit some' q mem' other => (passes r mem hit).2.2 q mem' other some'
  · rw [if_neg any]
    have none : ∀ r ∈ s.jobs, (key.isSome && r .id == key) ≠ true :=
      fun r mem hit => any (List.any_eq_true.mpr ⟨r, mem, hit⟩)
    constructor
    · intro h
      exact ⟨(Except.ok.inj h).symm, fun r mem hit => absurd hit (none r mem)⟩
    · rintro ⟨rfl, -⟩
      rfl

/-- The only row of a key, and those around it. -/
theorem Lawful.split (h : s.Lawful) {key : Cell} (some' : key.isSome) (mem : r ∈ s.jobs)
    (own : r .id = key) :
    ∃ before after, s.jobs = before ++ r :: after ∧ ∀ q ∈ before ++ after, q .id ≠ key := by
  obtain ⟨before, after, split⟩ := List.append_of_mem mem
  refine ⟨before, after, split, ?_⟩
  have keys := h.keys
  rw [split, List.pairwise_append, List.pairwise_cons] at keys
  obtain ⟨-, ⟨later, -⟩, across⟩ := keys
  intro q mem same
  rcases List.mem_append.mp mem with mem | mem
  · exact across q mem r (List.mem_cons_self ..) (same ▸ some') (same.trans own.symm)
  · exact later q mem (own ▸ some') (own.trans same.symm)

theorem Lawful.get?_of_mem (h : s.Lawful) {k : String} (mem : r ∈ s.jobs) (own : r .id = some k) :
    s.get? (some k) = some r := by
  obtain ⟨before, after, split, others⟩ := h.split rfl mem own
  have none : before.find? (fun q => q .id == some k) = none := by
    rw [List.find?_eq_none]
    intro q mem same
    exact others q (List.mem_append_left after mem) (beq_iff_eq.mp same)
  rw [get?_some, split, List.find?_append, none, Option.none_or, List.find?_cons, beq_iff_eq.mpr own]

/-- Two rows of one key are one row. -/
theorem Lawful.eq_of_id (h : s.Lawful) {q : JobRow} {k : String} (mem : q ∈ s.jobs) (mem' : r ∈ s.jobs)
    (own : q .id = some k) (own' : r .id = some k) : q = r :=
  Option.some.inj ((h.get?_of_mem mem own).symm.trans (h.get?_of_mem mem' own'))

/-- A row in the place of another one, whose key no other row has, if it is one. -/
theorem Lawful.replace (h : s.Lawful) {before after : List JobRow} {r' : JobRow}
    (split : s.jobs = before ++ r :: after) (checked : r'.check = .ok ())
    (fresh : ∀ q ∈ before ++ after, (r' .id).isSome → q .id ≠ r' .id) :
    Lawful { s with jobs := before ++ r' :: after } := by
  have rows := h.rows
  have keys := h.keys
  rw [split] at rows keys
  rw [List.pairwise_append, List.pairwise_cons] at keys
  obtain ⟨first, ⟨-, rest⟩, across⟩ := keys
  constructor
  · intro q mem
    rcases List.mem_append.mp mem with mem | mem
    · exact rows q (List.mem_append_left _ mem)
    · rcases List.mem_cons.mp mem with rfl | mem
      · exact checked
      · exact rows q (List.mem_append_right _ (List.mem_cons_of_mem r mem))
  · rw [List.pairwise_append, List.pairwise_cons]
    refine ⟨first, ⟨fun q mem some' same => ?_, rest⟩, fun a mem b mem' some' => ?_⟩
    · exact fresh q (List.mem_append_right before mem) some' same.symm
    · rcases List.mem_cons.mp mem' with rfl | mem'
      · exact fun same => fresh a (List.mem_append_left after mem) (same ▸ some') same
      · exact across a mem b (List.mem_cons_of_mem r mem') some'
  · exact h.videos

/-- A change touches at most the row of its key, and only the columns that it gives; the rules go on to
hold. -/
theorem Lawful.change (h : s.Lawful) {key : Cell} {changes : List (JobColumn × Cell)}
    (made : s.change key changes = .ok t) :
    Touches key (changes.map Prod.fst) s.jobs t.jobs ∧ t.videos = s.videos ∧ t.Lawful := by
  obtain ⟨rfl, checked⟩ := change_eq_ok.mp made
  by_cases any : ∃ r ∈ s.jobs, (key.isSome && r .id == key) = true
  · obtain ⟨r, mem, hit⟩ := any
    have found := Bool.and_eq_true_iff.mp hit
    obtain ⟨before, after, split, others⟩ := h.split found.1 mem (beq_iff_eq.mp found.2)
    have miss : ∀ q ∈ before ++ after, (key.isSome && q .id == key) = false := by
      intro q mem
      rw [beq_eq_false_iff_ne.mpr (others q mem), Bool.and_false]
    have same (part : List JobRow) (sub : part ⊆ before ++ after) :
        part.map (fun r => if (key.isSome && r .id == key) = true then r.setAll changes else r) = part :=
      (List.map_congr_left fun q mem => if_neg (by rw [miss q (sub mem)]; decide)).trans
        (List.map_id part)
    have jobs :
      s.jobs.map (fun r => if (key.isSome && r .id == key) = true then r.setAll changes else r) =
        before ++ r.setAll changes :: after := by
      rw [split, List.map_append, List.map_cons, if_pos hit, same before (List.subset_append_left ..),
        same after (List.subset_append_right ..)]
    obtain ⟨-, passes, fresh⟩ := checked r mem hit
    rw [jobs]
    refine ⟨.inr ⟨before, r, _, after, found.1, beq_iff_eq.mp found.2, split, rfl,
      fun c other => ?_⟩, rfl, ?_⟩
    · exact setAll_other fun v mem => other (List.mem_map.mpr ⟨_, mem, rfl⟩)
    · refine h.replace split passes fun q mem => fresh q ?_ (miss q mem)
      rw [split]
      exact List.mem_append.mpr ((List.mem_append.mp mem).imp_right (List.mem_cons_of_mem r))
  · have jobs :
      s.jobs.map (fun r => if (key.isSome && r .id == key) = true then r.setAll changes else r) =
      s.jobs :=
      (List.map_congr_left fun r mem => if_neg fun hit => any ⟨r, mem, hit⟩).trans (List.map_id s.jobs)
    rw [jobs]
    exact ⟨.inl rfl, rfl, h⟩

/-- Where changes are not refused, a job starts. -/
theorem Lawful.start (h : s.Lawful) (free : s.blocked = false) (key : Cell) (now : String) :
    ∃ t, s.start key now = .ok t := by
  refine ⟨_, change_eq_ok.mpr ⟨rfl, fun r mem hit => ⟨free, ?_, fun q _ other _ same => ?_⟩⟩⟩
  · obtain ⟨full, -⟩ := check_eq_ok.mp (h.rows r mem)
    refine check_eq_ok.mpr ⟨fun c required => ?_, "processing", by decide, rfl⟩
    cases c with
    | status | updated => rfl
    | _ => exact full _ required
  · have own : r.setAll [(.status, some "processing"), (.updated, some now)] .id = r .id := rfl
    rw [same, own, hit] at other
    cases other

/-! ## New rows -/

/-- A new job is the last row, and waits. -/
theorem Lawful.enqueue (h : s.Lawful) {id now : String} {o : Order} (made : s.enqueue id now o = .ok t) :
    ∃ row : JobRow, row .id = some id ∧ row .status = some "pending" ∧ row .created = some now ∧
      row .updated = some now ∧ t = { s with jobs := s.jobs ++ [row] } ∧ t.Lawful := by
  simp only [Store.enqueue, Outcome.bind_eq_ok] at made
  obtain ⟨user, -, hookUrl, -, demoUrl, -, hookText, -, editConfig, -, _, checked, made⟩ := made
  split at made
  · simp at made
  · rename_i fresh
    obtain rfl := Except.ok.inj made
    refine ⟨_, rfl, rfl, rfl, rfl, rfl, ?_, ?_, h.videos⟩
    · intro r mem
      rcases List.mem_append.mp mem with mem | mem
      · exact h.rows r mem
      · rwa [List.mem_singleton.mp mem]
    · refine List.pairwise_append.mpr
        ⟨h.keys, List.pairwise_singleton _ _, fun a mem b mem' _ same => fresh ?_⟩
      obtain rfl := List.mem_singleton.mp mem'
      exact List.any_eq_true.mpr ⟨a, mem, beq_iff_eq.mpr same⟩

/-- A new video is the last row of the library. -/
theorem Lawful.addVideo (h : s.Lawful) {id now : String} {user url filename storagePath : Value}
    (made : s.addVideo id now user url filename storagePath = .ok t) :
    ∃ v : Video, v.id = id ∧ v.created = now ∧ t = { s with videos := s.videos ++ [v] } ∧ t.Lawful := by
  simp only [Store.addVideo, Outcome.bind_eq_ok] at made
  obtain ⟨_, -, _, -, _, -, _, -, user, -, url, -, filename, -, storagePath, -, made⟩ := made
  split at made
  · simp at made
  · rename_i fresh
    obtain rfl := Except.ok.inj made
    refine ⟨_, rfl, rfl, rfl, h.rows, h.keys, ?_⟩
    rw [List.map_append, List.nodup_append]
    refine ⟨h.videos, List.nodup_singleton _, fun a mem b mem' same => fresh ?_⟩
    obtain ⟨v, held, rfl⟩ := List.mem_map.mp mem
    obtain rfl := List.mem_singleton.mp mem'
    exact List.any_eq_true.mpr ⟨v, held, beq_iff_eq.mpr same⟩

/-! ## Columns by name -/

/-- What a value given for a column by name is stored as. -/
def Sets (e : String × Value) (c : JobColumn × Cell) : Prop :=
  JobColumn.ofName? e.1 = some c.1 ∧ ∃ p, cell p e.2 = .ok c.2

/-- The names and the values of entries, and a key after them, give a change for each entry. -/
theorem changes_of_entries {entries : List (String × Value)} {id : Value} {place : Nat}
    {columns : List JobColumn} {given : List Cell} (known : columnsOf (entries.map (·.1)) = .ok columns)
    (stored : cells place (entries.map (·.2) ++ [id]) = .ok given) :
    ∃ p key, ∃ changes : List (JobColumn × Cell), cell p id = .ok key ∧
    given = changes.map Prod.snd ++ [key] ∧
      columns = changes.map Prod.fst ∧ (∀ c ∈ changes, ∃ e ∈ entries, Sets e c) ∧
      ∀ e ∈ entries, ∃ c ∈ changes, Sets e c := by
  induction entries generalizing place columns given with
  | nil =>
      obtain ⟨key, rest, first, last, rfl⟩ := cells_cons stored
      obtain rfl := Except.ok.inj last
      obtain rfl := Except.ok.inj known
      exact ⟨place, key, [], first, rfl, rfl, nofun, nofun⟩
  | cons e entries ih =>
      obtain ⟨v, rest, first, others, rfl⟩ := cells_cons stored
      simp only [columnsOf, List.map_cons, List.mapM_cons, Outcome.bind_eq_ok, Outcome.pure_eq] at known
      obtain ⟨c, found, cs, known, same⟩ := known
      obtain rfl := Except.ok.inj same
      obtain ⟨p, key, changes, last, rfl, rfl, onto, into⟩ := ih known others
      have sets : Sets e (c, v) := by
        refine ⟨?_, place, first⟩
        split at found
        · rename_i here
          rw [here, Except.ok.inj found]
        · cases found
      refine ⟨p, key, (c, v) :: changes, last, rfl, rfl,
        List.forall_mem_cons.mpr ⟨⟨e, List.mem_cons_self .., sets⟩, ?_⟩,
        List.forall_mem_cons.mpr ⟨⟨_, List.mem_cons_self .., sets⟩, ?_⟩⟩
      · intro d mem
        obtain ⟨x, mem, h⟩ := onto d mem
        exact ⟨x, List.mem_cons_of_mem e mem, h⟩
      · intro x mem
        obtain ⟨d, mem, h⟩ := into x mem
        exact ⟨d, List.mem_cons_of_mem _ mem, h⟩

theorem zip_changes (changes : List (JobColumn × Cell)) (key : Cell) :
    (changes.map Prod.fst).zip (changes.map Prod.snd ++ [key]) = changes := by
  induction changes with
  | nil => rfl
  | cons c changes ih => rw [List.map_cons, List.map_cons, List.cons_append, List.zip_cons_cons, ih]

/-- The columns that values are given for by name. -/
def named (values : List (String × Value)) : List JobColumn :=
  values.filterMap fun v => JobColumn.ofName? v.1

theorem named_names (changes : List (JobColumn × Value)) :
    named (changes.map fun c => (c.1.name, c.2)) = changes.map Prod.fst := by
  rw [named, List.filterMap_map]
  simp only [Function.comp_def, ofName?_name, List.filterMap_eq_map']

/-- The entries of an update: those that are kept, and the time of the last change in some place. -/
theorem mem_timed (place : Option Nat) (kept : List (String × Value)) (time e : String × Value) :
    e ∈ (match place with
      | some i => kept.take i ++ [time] ++ kept.drop i
      | none => kept ++ [time]) ↔ e = time ∨ e ∈ kept := by
  cases place with
  | some i =>
      conv_rhs => rw [← List.take_append_drop i kept]
      simp only [List.mem_append, List.mem_singleton]
      tauto
  | none => simp only [List.mem_append, List.mem_singleton, or_comm]

/-- An update changes the row of its key: it sets the columns that it names, and the time of the last
change. -/
theorem update_eq_ok {id : Value} {now : String} {values : List (String × Value)}
    (h : s.update id now values = .ok t) : ∃ p key changes, cell p id = .ok key ∧
      s.change key changes = .ok t ∧ (.updated, some now) ∈ changes ∧
      ∀ c ∈ changes, c = (.updated, some now) ∨ c.1 ∈ named values := by
  simp only [update] at h
  split at h
  · simp at h
  obtain ⟨columns, known, h⟩ := Outcome.bind_eq_ok.mp h
  obtain ⟨given, stored, h⟩ := Outcome.bind_eq_ok.mp h
  obtain ⟨p, key, changes, last, rfl, rfl, onto, into⟩ := changes_of_entries known stored
  rw [zip_changes, List.getLast?_concat, Option.join_some] at h
  refine ⟨p, key, changes, last, h, ?_, fun c mem => ?_⟩
  · obtain ⟨c, mem, column, _, held⟩ := into _ ((mem_timed _ _ _ _).mpr (.inl rfl))
    rw [ofName?_name] at column
    obtain ⟨-, value⟩ := cell_text.mp held
    rwa [Option.some.inj column, ← value]
  · obtain ⟨e, mem', column, _, held⟩ := onto c mem
    rcases (mem_timed _ _ _ _).mp mem' with rfl | mem'
    · rw [ofName?_name] at column
      obtain ⟨-, value⟩ := cell_text.mp held
      exact .inl (Prod.ext (Option.some.inj column).symm value)
    · exact .inr (List.mem_filterMap.mpr ⟨e, List.mem_of_mem_filter mem', column⟩)

end Splice.Store
