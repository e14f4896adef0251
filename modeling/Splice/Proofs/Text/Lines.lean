import Splice.Proofs.Marks
import Splice.Text.Lines

/-! # Lines of a text

A text is its lines, each with what ends it. There is one way to take a text apart in this manner, and
it is the one that is used; no line has a line end of its own.
-/

namespace Splice.Text

/-- A text without a line end. -/
def OneLine (cs : List Char) : Prop := ∀ c ∈ cs, isLineEnd c = false

instance (cs : List Char) : Decidable (OneLine cs) := List.decidableBAll (isLineEnd · = false) cs

namespace OneLine

variable {cs ds : List Char}

theorem mono (h : OneLine ds) (sub : cs ⊆ ds) : OneLine cs := fun c hc => h c (sub hc)

theorem reverse (h : OneLine cs) : OneLine cs.reverse := h.mono fun _ mem => List.mem_reverse.mp mem

theorem append (h : OneLine cs) (h' : OneLine ds) : OneLine (cs ++ ds) := by
  intro c hc
  rcases List.mem_append.mp hc with hc | hc
  · exact h c hc
  · exact h' c hc

theorem intercalate {sep : List Char} {parts : List (List Char)} (between : OneLine sep)
    (each : ∀ part ∈ parts, OneLine part) : OneLine (sep.intercalate parts) := by
  intro c hc
  rcases mem_intercalate hc with hc | ⟨part, hp, hc⟩
  · exact between c hc
  · exact each part hp c hc

end OneLine

/-- Numbers are written in one line. -/
theorem oneLine_of_numeral {s : String} (h : Numeral s) : OneLine s.toList := by
  intro c hc
  cases ends : isLineEnd c with
  | false => rfl
  | true =>
      have code : c.toNat ∈ [10, 11, 12, 13, 0x1C, 0x1D, 0x1E, 0x85, 0x2028, 0x2029] := by
        simp only [isLineEnd, Bool.or_eq_true, Bool.and_eq_true, decide_eq_true_eq, beq_iff_eq] at ends
        simp only [List.mem_cons, List.not_mem_nil, or_false]
        omega
      have none : ∀ n ∈ [10, 11, 12, 13, 0x1C, 0x1D, 0x1E, 0x85, 0x2028, 0x2029],
          isNumeral (Char.ofNat n) = false := by decide
      have := none _ code
      rw [Char.ofNat_toNat, h c hc] at this
      contradiction

/-- What ends a line, given what follows: a carriage return and the line feed after it, or one line end
that is not the first half of such a pair. -/
inductive LineStop : List Char → List Char → Prop
  | pair {rest : List Char} : LineStop ['\r', '\n'] rest
  | single {c : Char} {rest : List Char} (ends : isLineEnd c = true)
      (alone : c = '\r' → rest.head? ≠ some '\n') : LineStop [c] rest

/-- A text is made of its lines: each but the last has an end, and the last is not empty where it has
none. -/
inductive Lined : List Char → List (List Char) → Prop
  | none : Lined [] []
  | last {line : List Char} (clean : OneLine line) (nonempty : line ≠ []) : Lined line [line]
  | ended {line stop rest : List Char} {lines : List (List Char)} (clean : OneLine line)
      (stops : LineStop stop rest) (more : Lined rest lines) :
      Lined (line ++ (stop ++ rest)) (line :: lines)

/-- Characters that end no line are put to the line that is being read. -/
theorem linesFrom_append {clean : List Char} (h : OneLine clean) (line rest : List Char) :
    linesFrom line (clean ++ rest) = linesFrom (clean.reverse ++ line) rest := by
  induction clean generalizing line with
  | nil => rfl
  | cons c cs ih =>
      have inside : isLineEnd c = false := h c List.mem_cons_self
      have notReturn : c ≠ '\r' := by
        rintro rfl
        exact absurd inside (by decide)
      have step : linesFrom line (c :: (cs ++ rest)) = linesFrom (c :: line) (cs ++ rest) := by
        rw [linesFrom.eq_3 line c (cs ++ rest) fun _ is => absurd is notReturn, inside]
        rfl
      rw [List.cons_append, step, ih (h.mono (List.subset_cons_self c cs)), List.reverse_cons,
        List.append_assoc]
      rfl

theorem linesFrom_stop {stop rest : List Char} (h : LineStop stop rest) (line : List Char) :
    linesFrom line (stop ++ rest) = line.reverse :: linesFrom [] rest := by
  cases h with
  | pair => rfl
  | @single c rest ends alone =>
      have notPair : ∀ more, c = '\r' → rest = '\n' :: more → False := by
        rintro more is rfl
        exact alone is rfl
      rw [List.singleton_append, linesFrom.eq_3 line c rest notPair, if_pos ends]

theorem Lined.linesFrom_eq {cs : List Char} {lines : List (List Char)} (h : Lined cs lines) :
    linesFrom [] cs = lines := by
  induction h with
  | none => rfl
  | @last line clean nonempty =>
      have read := linesFrom_append clean [] []
      rw [List.append_nil, List.append_nil] at read
      rw [read, linesFrom, if_neg (by simpa using nonempty), List.reverse_reverse]
  | ended clean stops more ih =>
      rw [linesFrom_append clean, linesFrom_stop stops, ih, List.append_nil, List.reverse_reverse]

theorem lined_linesFrom {line cs : List Char} (clean : OneLine line) :
    Lined (line.reverse ++ cs) (linesFrom line cs) := by
  fun_induction linesFrom line cs with
  | case1 line empty =>
      rw [List.isEmpty_iff.mp empty]
      exact .none
  | case2 line filled =>
      rw [List.append_nil]
      exact .last clean.reverse (by simpa using filled)
  | case3 line rest ih => exact .ended clean.reverse .pair (ih (by simp [OneLine]))
  | case4 line c rest notPair ends ih =>
      refine .ended clean.reverse (.single ends fun is first => ?_) (ih (by simp [OneLine]))
      cases rest with
      | nil => cases first
      | cons d rest =>
          obtain rfl := Option.some.inj first
          exact notPair rest is rfl
  | case5 line c rest notPair inside ih =>
      have longer : OneLine (c :: line) := by
        intro d hd
        rcases List.mem_cons.mp hd with rfl | hd
        · simpa using inside
        · exact clean d hd
      simpa using ih longer

theorem Lined.oneLine {cs : List Char} {lines : List (List Char)} (h : Lined cs lines) :
    ∀ line ∈ lines, OneLine line := by
  induction h with
  | none => simp
  | last clean nonempty => simpa using clean
  | ended clean stops more ih => exact List.forall_mem_cons.mpr ⟨clean, ih⟩

/-- A text has one sequence of lines. -/
theorem lined_iff {cs : List Char} {lines : List (List Char)} :
    Lined cs lines ↔ linesFrom [] cs = lines := by
  constructor
  · exact Lined.linesFrom_eq
  · rintro rfl
    have empty : OneLine [] := by simp [OneLine]
    exact lined_linesFrom empty

theorem lines_eq_of_lined {s : String} {raw : List String}
    (h : Lined s.toList (raw.map String.toList)) : lines s = raw := by
  have same : String.ofList ∘ String.toList = id := funext fun _ => String.ofList_toList
  rw [lines, lined_iff.mp h, List.map_map, same, List.map_id]

theorem lined_lines (s : String) : Lined s.toList ((lines s).map String.toList) := by
  have same : String.toList ∘ String.ofList = id := funext fun _ => String.toList_ofList
  rw [lined_iff, lines, List.map_map, same, List.map_id]

theorem oneLine_lines {s line : String} (h : line ∈ lines s) : OneLine line.toList := by
  obtain ⟨l, hl, rfl⟩ := List.mem_map.mp h
  rw [String.toList_ofList]
  exact (lined_iff.mpr rfl).oneLine l hl

end Splice.Text
