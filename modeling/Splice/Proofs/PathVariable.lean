import Mathlib.Data.List.TakeWhile
import Splice.PathVariable
import Splice.Proofs.Outcome

/-! # Texts with variables

A text is split in one way: at the leftmost variable, then at the leftmost one of what follows it, and so
on. Replacing the variables gives the literal parts with the values between them as they are, or tells the
leftmost name that has no value.
-/

namespace Splice.PathVariable

/-- A name of a variable: a word. -/
structure IsName (name : List Char) : Prop where
  filled : name ≠ []
  word : ∀ c ∈ name, isWord c = true

/-- A variable as a text has it. -/
def written (name : List Char) : List Char := '$' :: '\x7b' :: (name ++ ['\x7d'])

/-- A text begins with a variable. -/
def Begins (cs : List Char) : Prop := ∃ name rest, IsName name ∧ cs = written name ++ rest

/-- A literal part and the variable after it. -/
structure Part where
  literal : List Char
  name : List Char

def Part.variable (p : Part) : String := String.ofList p.name

/-- A text is split at its variables, from the left: none begins within a literal part, or after the last
one. -/
inductive Splits : List Char → List Part → List Char → Prop
  | last {cs : List Char} (none : ∀ i, ¬ Begins (cs.drop i)) : Splits cs [] cs
  | found {literal name rest last : List Char} {parts : List Part} (named : IsName name)
      (first : ∀ i < literal.length, ¬ Begins ((literal ++ (written name ++ rest)).drop i))
      (more : Splits rest parts last) :
      Splits (literal ++ (written name ++ rest)) (⟨literal, name⟩ :: parts) last

/-! ## Names -/

section Names

variable {name rest cs : List Char} {c : Char}

theorem not_isWord_brace : isWord '\x7d' = false := by decide

/-- A name is read up to the brace that closes it. -/
theorem name?_eq_some_iff : name? cs = some name ↔ IsName name ∧ ∃ rest, cs = name ++ '\x7d' :: rest := by
  constructor
  · intro read
    simp only [name?] at read
    split at read
    · cases read
    · rename_i filled
      split at read
      · rename_i closed
        obtain rfl := Option.some.inj read
        obtain ⟨rest, after⟩ := List.head?_eq_some_iff.mp closed
        refine ⟨⟨by simpa using filled, fun c mem => List.mem_takeWhile_imp mem⟩, rest, ?_⟩
        rw [← after, List.takeWhile_append_dropWhile]
      · cases read
  · rintro ⟨⟨filled, word⟩, rest, rfl⟩
    have whole : (name ++ '\x7d' :: rest).takeWhile isWord = name := by
      rw [List.takeWhile_append_of_pos word, List.takeWhile_cons, not_isWord_brace]
      simp
    have after : (name ++ '\x7d' :: rest).dropWhile isWord = '\x7d' :: rest := by
      rw [List.dropWhile_append_of_pos word, List.dropWhile_cons, not_isWord_brace]
      simp
    simp only [name?, whole, after]
    simpa using filled

theorem name_eq {name' rest' : List Char} (named : IsName name) (named' : IsName name')
    (same : written name ++ rest = written name' ++ rest') : name = name' ∧ rest = rest' := by
  simp only [written, List.cons_append, List.append_assoc, List.nil_append, List.cons.injEq,
    true_and] at same
  have read := name?_eq_some_iff.mpr ⟨named, rest, rfl⟩
  have read' := name?_eq_some_iff.mpr ⟨named', rest', rfl⟩
  rw [same] at read
  obtain rfl := Option.some.inj (read.symm.trans read')
  exact ⟨rfl, (List.cons.inj (List.append_cancel_left same)).2⟩

end Names

/-! ## Pieces of a text -/

section Pieces

variable {name literal rest cs : List Char} {c : Char}

theorem piecesFrom_skip (front rest : List Char) :
    piecesFrom front.length (front ++ rest) = piecesFrom 0 rest := by
  induction front with
  | nil => rfl
  | cons c front ih => exact ih

theorem piecesFrom_written (named : IsName name) (rest : List Char) :
    piecesFrom 0 (written name ++ rest) = .variable name :: piecesFrom 0 rest := by
  have split : written name ++ rest = '$' :: '\x7b' :: (name ++ '\x7d' :: rest) := by simp [written]
  have read := name?_eq_some_iff.mpr ⟨named, rest, rfl⟩
  have passed := piecesFrom_skip ('\x7b' :: (name ++ ['\x7d'])) rest
  have size : ('\x7b' :: (name ++ ['\x7d'])).length = name.length + 2 := by simp
  have same : '\x7b' :: (name ++ ['\x7d']) ++ rest = '\x7b' :: (name ++ '\x7d' :: rest) := by simp
  rw [size, same] at passed
  rw [split, piecesFrom, List.head?_cons, if_pos ⟨rfl, rfl⟩, List.drop_one, List.tail_cons, read]
  exact congrArg _ passed

theorem piecesFrom_literal (h : ¬ Begins (c :: cs)) :
    piecesFrom 0 (c :: cs) = .literal c :: piecesFrom 0 cs := by
  rw [piecesFrom]
  split
  · rename_i name found
    split at found
    · rename_i opened
      obtain ⟨rfl, brace⟩ := opened
      obtain ⟨rest, rfl⟩ := List.head?_eq_some_iff.mp brace
      obtain ⟨named, rest, after⟩ := name?_eq_some_iff.mp found
      rw [List.drop_one, List.tail_cons] at after
      refine absurd ⟨name, rest, named, ?_⟩ h
      rw [after]
      simp [written]
    · cases found
  · rfl

theorem piecesFrom_append (first : ∀ i < literal.length, ¬ Begins ((literal ++ rest).drop i)) :
    piecesFrom 0 (literal ++ rest) = literal.map .literal ++ piecesFrom 0 rest := by
  induction literal with
  | nil => rfl
  | cons c literal ih =>
      have start : ¬ Begins (c :: (literal ++ rest)) := first 0 (Nat.zero_lt_succ _)
      have later := ih fun i less => first (i + 1) (Nat.succ_lt_succ less)
      rw [List.cons_append, piecesFrom_literal start, later, List.map_cons, List.cons_append]

/-- The pieces of a part of a text. -/
def Part.pieces (p : Part) : List Piece := p.literal.map .literal ++ [.variable p.name]

theorem Splits.pieces_eq {parts : List Part} {last : List Char} (h : Splits cs parts last) :
    piecesFrom 0 cs = parts.flatMap Part.pieces ++ last.map .literal := by
  induction h with
  | @last cs none =>
      have all : piecesFrom 0 (cs ++ []) = cs.map .literal ++ piecesFrom 0 [] := by
        refine piecesFrom_append fun i _ => ?_
        rw [List.append_nil]
        exact none i
      simpa [piecesFrom] using all
  | found named first more ih =>
      rw [piecesFrom_append first, piecesFrom_written named, ih]
      simp [Part.pieces]

end Pieces

/-! ## There is one way to split a text -/

section Splitting

variable {literal literal' name name' rest rest' cs last last' : List Char} {parts parts' : List Part}

theorem not_begins_nil : ¬ Begins [] := by
  rintro ⟨name, rest, -, split⟩
  cases split

theorem Begins.written (named : IsName name) (rest : List Char) : Begins (written name ++ rest) :=
  ⟨name, rest, named, rfl⟩

/-- A literal part ends at the first variable. -/
theorem length_le_of_first (named' : IsName name')
    (first : ∀ i < literal.length, ¬ Begins ((literal ++ (written name ++ rest)).drop i))
    (same : literal ++ (written name ++ rest) = literal' ++ (written name' ++ rest')) :
    literal.length ≤ literal'.length := by
  by_contra longer
  apply first literal'.length (Nat.lt_of_not_le longer)
  rw [same, List.drop_left]
  exact .written named' rest'

theorem Splits.unique (h : Splits cs parts last) (h' : Splits cs parts' last') :
    parts' = parts ∧ last' = last := by
  induction h generalizing parts' last' with
  | last none =>
      cases h' with
      | last => exact ⟨rfl, rfl⟩
      | @found literal name rest _ _ named =>
          refine absurd (none literal.length) (not_not.mpr ?_)
          rw [List.drop_left]
          exact .written named rest
  | @found literal name rest last parts named first more ih =>
      generalize whole : literal ++ (written name ++ rest) = cs at h'
      cases h' with
      | last none =>
          refine absurd (none literal.length) (not_not.mpr ?_)
          rw [← whole, List.drop_left]
          exact .written named rest
      | @found literal' name' rest' _ parts' named' first' more' =>
          have size := Nat.le_antisymm (length_le_of_first named' first whole)
            (length_le_of_first named first' whole.symm)
          obtain ⟨rfl, after⟩ := List.append_inj whole size
          obtain ⟨rfl, rfl⟩ := name_eq named named' after
          obtain ⟨rfl, rfl⟩ := ih more'
          exact ⟨rfl, rfl⟩

/-- A character that begins no variable is put in front of the first literal part. -/
theorem Splits.cons {c : Char} (h : Splits cs parts last) (start : ¬ Begins (c :: cs)) :
    ∃ parts last, Splits (c :: cs) parts last := by
  cases h with
  | last none =>
      refine ⟨[], c :: cs, .last fun i => ?_⟩
      cases i with
      | zero => exact start
      | succ i => exact none i
  | @found literal name rest _ parts named first more =>
      refine ⟨⟨c :: literal, name⟩ :: parts, last, ?_⟩
      rw [← List.cons_append]
      refine .found named (fun i less => ?_) more
      cases i with
      | zero => exact start
      | succ i => exact first i (Nat.lt_of_succ_lt_succ less)

theorem exists_splits : (cs : List Char) → ∃ parts last, Splits cs parts last
  | [] => by
    refine ⟨[], [], .last fun i => ?_⟩
    rw [List.drop_nil]
    exact not_begins_nil
  | c :: cs => by
    by_cases start : Begins (c :: cs)
    · obtain ⟨name, rest, named, split⟩ := start
      have shorter : rest.length < (c :: cs).length := by
        rw [split, List.length_append, PathVariable.written, List.length_cons]
        omega
      obtain ⟨parts, last, more⟩ := exists_splits rest
      rw [split]
      have here : Splits ([] ++ (PathVariable.written name ++ rest)) (⟨[], name⟩ :: parts) last :=
        .found named (by simp) more
      exact ⟨_, _, here⟩
    · obtain ⟨parts, last, more⟩ := exists_splits cs
      exact more.cons start
termination_by cs => cs.length
decreasing_by
  · exact shorter
  · exact Nat.lt_succ_self _

end Splitting

/-! ## Replacing -/

section Replacing

/-- A mapping from names to texts. -/
def given (paths : List (String × String)) : Value :=
  .mapping (paths.map fun e => (.text e.1, .text e.2))

variable {paths : List (String × String)}

theorem lookup?_given (name : String) : Value.lookup? name (paths.map fun e => (.text e.1, .text e.2)) =
    (paths.lookup name).map .text := by
  induction paths with
  | nil => rfl
  | cons e rest ih =>
      rw [List.map_cons, Value.lookup?, List.lookup_cons, ih]
      by_cases same : e.1 = name
      · simp [same]
      · have other : (name == e.1) = false := by simpa using Ne.symm same
        rw [if_neg same, other]

theorem exists_lookup {name : String} (h : name ∈ paths.map Prod.fst) : ∃ v, paths.lookup name = some v := by
  obtain ⟨e, mem, rfl⟩ := List.mem_map.mp h
  exact Option.isSome_iff_exists.mp (List.lookup_isSome_iff.mpr ⟨e, mem, beq_self_eq_true _⟩)

theorem lookup_eq_none {name : String} (h : name ∉ paths.map Prod.fst) : paths.lookup name = none := by
  refine List.lookup_eq_none_iff.mpr fun e mem => bne_iff_ne.mpr ?_
  rintro rfl
  exact h (List.mem_map_of_mem mem)

/-- What a variable becomes, when it is known. -/
def shown (paths : List (String × String)) (name : List Char) : String :=
  (paths.lookup (String.ofList name)).getD ""

/-- What a part of a text becomes: its literal characters and the value after them, both as they are. -/
def Part.replaced (paths : List (String × String)) (p : Part) : String :=
  String.ofList p.literal ++ shown paths p.name

def Piece.replaced (paths : List (String × String)) : Piece → String
  | .literal c => c.toString
  | .variable name => shown paths name

theorem Piece.replaced_literals (cs : List Char) :
    String.join ((cs.map Piece.literal).map (Piece.replaced paths)) = String.ofList cs := by
  rw [← String.toList_inj, String.toList_join]
  induction cs with
  | nil => rfl
  | cons c cs ih => simpa [Piece.replaced] using ih

theorem Part.replaced_pieces (p : Part) :
    String.join (p.pieces.map (Piece.replaced paths)) = p.replaced paths := by
  rw [Part.pieces, List.map_append, String.join_append, Piece.replaced_literals]
  simp [Piece.replaced, Part.replaced, String.join]

theorem replaced_parts (parts : List Part) : String.join ((parts.flatMap Part.pieces).map (Piece.replaced paths)) =
    String.join (parts.map (Part.replaced paths)) := by
  rw [← String.toList_inj, String.toList_join, String.toList_join]
  induction parts with
  | nil => rfl
  | cons p parts ih =>
      have first : (p.pieces.map (Piece.replaced paths)).flatMap String.toList = (p.replaced paths).toList := by
        rw [← String.toList_join, p.replaced_pieces]
      rw [List.flatMap_cons, List.map_append, List.flatMap_append, first, ih, List.map_cons,
        List.flatMap_cons]

theorem valueOf_known {name : List Char} (h : String.ofList name ∈ paths.map Prod.fst) :
    valueOf (given paths) (.variable name) = .ok (.text (shown paths name)) := by
  obtain ⟨v, found⟩ := exists_lookup h
  simp [valueOf, given, value, lookup?_given, found, shown]

theorem valueOf_unknown {name : List Char} (h : String.ofList name ∉ paths.map Prod.fst) :
    valueOf (given paths) (.variable name) = .error (.unknown (String.ofList name)) := by
  simp [valueOf, given, value, lookup?_given, lookup_eq_none h]

/-- The pieces of parts whose variables are known. -/
theorem valueOf_pieces {parts : List Part} (h : ∀ p ∈ parts, p.variable ∈ paths.map Prod.fst) :
    ∀ x ∈ parts.flatMap Part.pieces, valueOf (given paths) x = .ok (.text (x.replaced paths)) := by
  intro x mem
  obtain ⟨p, among, mem⟩ := List.mem_flatMap.mp mem
  rw [Part.pieces, List.mem_append, List.mem_map, List.mem_singleton] at mem
  rcases mem with ⟨c, -, rfl⟩ | rfl
  · rfl
  · exact valueOf_known (h p among)

theorem substitute_known {s : String} {parts : List Part} {last : List Char}
    (split : Splits s.toList parts last) (h : ∀ p ∈ parts, p.variable ∈ paths.map Prod.fst) :
    substitute (given paths) s =
      .ok (String.join (parts.map (Part.replaced paths)) ++ String.ofList last) := by
  have each : ∀ x ∈ pieces s, valueOf (given paths) x = .ok (.text (x.replaced paths)) := by
    rw [pieces, split.pieces_eq]
    refine List.forall_mem_append.mpr ⟨valueOf_pieces h, fun x mem => ?_⟩
    obtain ⟨c, -, rfl⟩ := List.mem_map.mp mem
    rfl
  have texts : ((pieces s).map fun x => Value.text (x.replaced paths)).mapM textOf =
      .ok ((pieces s).map (Piece.replaced paths)) := by
    rw [List.mapM_map]
    exact Outcome.mapM_eq_map fun _ _ => rfl
  rw [substitute, Outcome.mapM_eq_map each, Outcome.ok_bind, texts, Outcome.ok_bind, Outcome.pure_eq,
    pieces, split.pieces_eq, List.map_append, String.join_append, replaced_parts,
    Piece.replaced_literals]

theorem substitute_unknown {s : String} {front back : List Part} {p : Part} {last : List Char}
    (split : Splits s.toList (front ++ p :: back) last) (known : ∀ q ∈ front, q.variable ∈ paths.map Prod.fst)
    (h : p.variable ∉ paths.map Prod.fst) : substitute (given paths) s = .error (.unknown p.variable) := by
  have found : (pieces s).mapM (valueOf (given paths)) = .error (.unknown p.variable) := by
    refine Outcome.mapM_eq_error.mpr ⟨front.flatMap Part.pieces ++ p.literal.map .literal,
      .variable p.name, back.flatMap Part.pieces ++ last.map .literal, ?_, ?_, valueOf_unknown h⟩
    · rw [pieces, split.pieces_eq]
      simp [Part.pieces]
    · refine List.forall_mem_append.mpr ⟨fun x mem => ⟨_, valueOf_pieces known x mem⟩, fun x mem => ?_⟩
      obtain ⟨c, -, rfl⟩ := List.mem_map.mp mem
      exact ⟨_, rfl⟩
  rw [substitute, found, Outcome.error_bind]

/-- A text has exactly one split. When all of its names are known, the text becomes the literal parts with
the values between them, which are not read again; otherwise the first unknown name is told. A text
without a variable is left alone. -/
theorem substitute_splits (paths : List (String × String)) (s : String) :
    ∃ parts last, (∀ parts' last', Splits s.toList parts' last' ↔ parts' = parts ∧ last' = last) ∧
      ((∀ p ∈ parts, p.variable ∈ paths.map Prod.fst) → substitute (given paths) s =
        .ok (String.join (parts.map (Part.replaced paths)) ++ String.ofList last)) ∧
      (∀ front p back, parts = front ++ p :: back → (∀ q ∈ front, q.variable ∈ paths.map Prod.fst) →
        p.variable ∉ paths.map Prod.fst → ∃ e, substitute (given paths) s = .error e ∧
          e = .unknown p.variable ∧ e.message = "Unknown path variable: $\x7b" ++ p.variable ++ "\x7d") ∧
      ((∀ i, ¬ Begins (s.toList.drop i)) → substitute (given paths) s = .ok s) := by
  obtain ⟨parts, last, split⟩ := exists_splits s.toList
  refine ⟨parts, last, fun parts' last' => ⟨split.unique, ?_⟩, substitute_known split, ?_, fun none => ?_⟩
  · rintro ⟨rfl, rfl⟩
    exact split
  · rintro front p back rfl known unknown
    exact ⟨_, substitute_unknown split known unknown, rfl, rfl⟩
  · have whole := substitute_known (.last none)
      (List.forall_mem_nil fun p : Part => p.variable ∈ paths.map Prod.fst)
    simpa [String.join] using whole

/-- A variable is not formed again by a value and the sign before it. -/
theorem substitute_splits_edge : Splits "$$\x7ba\x7d".toList [⟨['$'], ['a']⟩] [] ∧
    substitute (given [("a", "\x7ba\x7d")]) "$$\x7ba\x7d" = .ok "$\x7ba\x7d" := by
  have letter : isWord 'a' = true := by decide
  have named : IsName ['a'] := ⟨List.cons_ne_nil _ _, List.forall_mem_singleton.mpr letter⟩
  have first : ∀ i < ['$'].length, ¬ Begins ((['$'] ++ (written ['a'] ++ [])).drop i) := by
    rintro i less ⟨name, rest, -, split⟩
    obtain rfl := Nat.lt_one_iff.mp less
    simp [written] at split
  have none : ∀ i, ¬ Begins (([] : List Char).drop i) := fun i => by
    rw [List.drop_nil]
    exact not_begins_nil
  have split : Splits "$$\x7ba\x7d".toList [⟨['$'], ['a']⟩] [] := .found named first (.last none)
  obtain ⟨parts, last, only, known, -, -⟩ := substitute_splits [("a", "\x7ba\x7d")] "$$\x7ba\x7d"
  obtain ⟨rfl, rfl⟩ := (only _ _).mp split
  have a : Part.variable ⟨['$'], ['a']⟩ = "a" := rfl
  exact ⟨split, known (by simp [a])⟩

end Replacing

end Splice.PathVariable
