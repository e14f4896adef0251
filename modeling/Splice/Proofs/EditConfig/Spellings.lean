import Splice.EditConfig.Keys
import Splice.Proofs.Text.Trimming

/-! # Spellings of a name

A name is made of parts. It may be written with underscores or with hyphens between them, or in camel
case, and each of these spellings is brought to the first one. A capital is only seen as the start of a
part behind a small letter or digit, so a part of one letter has to be the first or the last.
-/

namespace Splice

namespace Text

variable {c : Char} {cs : List Char}

/-! ## Characters of ASCII -/

theorem isUpper_iff : c.isUpper = true ↔ 65 ≤ c.toNat ∧ c.toNat ≤ 90 := by
  change decide (65 ≤ c.val ∧ c.val ≤ 90) = true ↔ _
  simp [UInt32.le_iff_toNat_le]

theorem isLower_iff : c.isLower = true ↔ 97 ≤ c.toNat ∧ c.toNat ≤ 122 := by
  change (decide (97 ≤ c.val) && decide (c.val ≤ 122)) = true ↔ _
  simp [UInt32.le_iff_toNat_le]

theorem isBlank_visible (h : 33 ≤ c.toNat) (ascii : c.toNat < 128) : isBlank c = false := by
  simp only [isBlank, Bool.or_eq_false_iff, Bool.and_eq_false_iff, decide_eq_false_iff_not,
    beq_eq_false_iff_ne]
  omega

theorem toNat_toUpper (h : c.isLower = true) : c.toUpper.toNat = c.toNat - 32 := by
  have code := isLower_iff.mp h
  have letter : 'a'.val ≤ c.val ∧ c.val ≤ 'z'.val := by
    rw [UInt32.le_iff_toNat_le, UInt32.le_iff_toNat_le]
    exact code
  -- The difference of the letters is counted around the range of codes.
  have sum : (c.val + ('A'.val - 'a'.val)).toNat = (c.toNat + (2 ^ 32 - 32)) % 2 ^ 32 :=
    UInt32.toNat_add _ _
  have raised : c.toUpper = _ := dif_pos letter
  rw [raised]
  change (c.val + ('A'.val - 'a'.val)).toNat = _
  omega

theorem toNat_toLower (h : c.isUpper = true) : c.toLower.toNat = c.toNat + 32 := by
  have code := isUpper_iff.mp h
  have letter : c.val ≥ 'A'.val ∧ c.val ≤ 'Z'.val := by
    rw [ge_iff_le, UInt32.le_iff_toNat_le, UInt32.le_iff_toNat_le]
    exact code
  have sum : (c.val + ('a'.val - 'A'.val)).toNat = (c.toNat + 32) % 2 ^ 32 := UInt32.toNat_add _ _
  have lowered : c.toLower = _ := dif_pos letter
  rw [lowered]
  change (c.val + ('a'.val - 'A'.val)).toNat = _
  omega

theorem toLower_of_not_isUpper (h : c.isUpper = false) : c.toLower = c := by
  have other : ¬ (c.val ≥ 'A'.val ∧ c.val ≤ 'Z'.val) := by
    rw [ge_iff_le, UInt32.le_iff_toNat_le, UInt32.le_iff_toNat_le]
    exact fun code => absurd (isUpper_iff.mpr code) (by simp [h])
  exact dif_neg other

/-! ## Small letters -/

/-- The capitals of ASCII are the first that have a small letter, and no other capital is in ASCII. -/
theorem capitalRuns_eq : ∃ later, capitalRuns = ⟨0x41, 0x5A, 1, 32⟩ :: later ∧
    ∀ run ∈ later, 128 ≤ run.first :=
  ⟨capitalRuns.tail, rfl, by decide +kernel⟩

theorem lowerLetter_ascii (h : c.toNat < 128) : lowerLetter c = c.toLower := by
  obtain ⟨later, runs, beyond⟩ := capitalRuns_eq
  have none : later.find? (fun run => decide (run.first ≤ c.toNat) && decide (c.toNat ≤ run.last) &&
      (c.toNat - run.first) % run.stride == 0) = none := by
    rw [List.find?_eq_none]
    intro run mem found
    have start := beyond run mem
    simp only [Bool.and_eq_true, decide_eq_true_eq] at found
    omega
  cases upper : c.isUpper with
  | true =>
      have code := isUpper_iff.mp upper
      have sum : ((c.toNat : Int) + 32).toNat = c.toLower.toNat := by
        rw [toNat_toLower upper]
        omega
      rw [lowerLetter, runs, List.find?_cons_of_pos (by simpa [Nat.mod_one] using code)]
      dsimp only
      rw [sum, Char.ofNat_toNat]
  | false =>
      have code : ¬ (65 ≤ c.toNat ∧ c.toNat ≤ 90) := mt isUpper_iff.mpr (Bool.eq_false_iff.mp upper)
      rw [lowerLetter, runs, List.find?_cons_of_neg (by simpa [Nat.mod_one] using code), none,
        toLower_of_not_isUpper upper]

theorem lowerFrom_ascii (h : ∀ c ∈ cs, c.toNat < 128) (before : List Char) :
    lowerFrom before cs = cs.map Char.toLower := by
  induction cs generalizing before with
  | nil => rfl
  | cons c cs ih =>
      rw [List.forall_mem_cons] at h
      have dotted : c ≠ 'İ' := fun same => absurd h.1 (same ▸ by decide)
      have sigma : c ≠ 'Σ' := fun same => absurd h.1 (same ▸ by decide)
      rw [lowerFrom, lowerIn, if_neg dotted, if_neg sigma, lowerLetter_ascii h.1, ih h.2]
      rfl

end Text

namespace EditConfig

open Text

variable {c : Char} {cs rest : List Char}

/-! ## Characters of names -/

/-- What a character of a key of ASCII becomes. -/
def settled (c : Char) : Char := underscore c.toLower

theorem endsSegment_iff : endsSegment c = true ↔
    97 ≤ c.toNat ∧ c.toNat ≤ 122 ∨ 48 ≤ c.toNat ∧ c.toNat ≤ 57 := by
  simp [endsSegment, Char.isDigit, isLower_iff, UInt32.le_iff_toNat_le]

theorem endsSegment_ascii (h : endsSegment c = true) : c.toNat < 128 := by
  rw [endsSegment_iff] at h
  omega

theorem settled_of_not_isUpper (h : c.isUpper = false) (other : c ≠ '-') : settled c = c := by
  rw [settled, toLower_of_not_isUpper h, underscore, if_neg other]

/-- Small letters and digits stay as they are. -/
theorem endsSegment_stays (h : endsSegment c = true) :
    c.isUpper = false ∧ isBlank c = false ∧ settled c = c := by
  have code := endsSegment_iff.mp h
  have small : c.isUpper = false := by
    rw [Bool.eq_false_iff, ne_eq, isUpper_iff]
    omega
  have other : c ≠ '-' := by
    rintro rfl
    exact absurd h (by decide)
  exact ⟨small, isBlank_visible (by omega) (endsSegment_ascii h), settled_of_not_isUpper small other⟩

/-- The capital of a small letter is a hump, and goes back to the letter. -/
theorem isLower_raised (h : c.isLower = true) : c.toUpper.isUpper = true ∧
    endsSegment c.toUpper = false ∧ isBlank c.toUpper = false ∧ c.toUpper.toNat < 128 ∧
      settled c.toUpper = c := by
  have code := isLower_iff.mp h
  have raised := toNat_toUpper h
  have upper : c.toUpper.isUpper = true := by
    rw [isUpper_iff]
    omega
  have back : c.toUpper.toLower = c := by
    rw [← Char.toNat_inj, toNat_toLower upper]
    omega
  have other : c ≠ '-' := by
    rintro rfl
    exact absurd h (by decide)
  refine ⟨upper, ?_, isBlank_visible (by omega) (by omega), by omega, ?_⟩
  · rw [Bool.eq_false_iff, ne_eq, endsSegment_iff]
    omega
  · rw [settled, back, underscore, if_neg other]

/-- What a character of a key ends up as: no capital, no hyphen, and a blank only if it was one. -/
theorem ascii_settled (h : c.toNat < 128) : (settled c).isUpper = false ∧
    settled (settled c) = settled c ∧
      (settled c).toNat < 128 ∧ isBlank (settled c) = isBlank c := by
  cases upper : c.isUpper with
  | true =>
      have code := isUpper_iff.mp upper
      have lowered := toNat_toLower upper
      have ends : endsSegment c.toLower = true := by
        rw [endsSegment_iff]
        omega
      have other : c.toLower ≠ '-' := by
        intro same
        exact absurd (same ▸ ends) (by decide)
      have text : settled c = c.toLower := by rw [settled, underscore, if_neg other]
      obtain ⟨small, visible, stays⟩ := endsSegment_stays ends
      rw [text]
      exact ⟨small, stays, endsSegment_ascii ends, visible.trans (isBlank_visible (by omega) h).symm⟩
  | false =>
      by_cases hyphen : c = '-'
      · subst hyphen
        decide
      · have stays := settled_of_not_isUpper upper hyphen
        rw [stays]
        exact ⟨upper, stays, h, rfl⟩

/-! ## Humps -/

theorem splitHumps_plain (h : ∀ c ∈ cs, c.isUpper = false) (b : Bool) : splitHumps b cs = cs := by
  induction cs generalizing b with
  | nil => rfl
  | cons c cs ih =>
      rw [List.forall_mem_cons] at h
      rw [splitHumps, h.1, Bool.and_false, if_neg Bool.false_ne_true, ih h.2]

/-- Behind small letters and digits a hump may start. -/
theorem splitHumps_append (h : ∀ c ∈ cs, endsSegment c = true) (filled : cs ≠ []) (b : Bool) :
    splitHumps b (cs ++ rest) = cs ++ splitHumps true rest := by
  induction cs generalizing b with
  | nil => exact absurd rfl filled
  | cons c cs ih =>
      rw [List.forall_mem_cons] at h
      rw [List.cons_append, splitHumps, (endsSegment_stays h.1).1, Bool.and_false,
        if_neg Bool.false_ne_true, h.1]
      cases cs with
      | nil => rfl
      | cons d cs =>
          rw [ih h.2 (List.cons_ne_nil d cs)]
          rfl

theorem mem_splitHumps (b : Bool) (h : c ∈ splitHumps b cs) : c ∈ cs ∨ c = '_' := by
  induction cs generalizing b with
  | nil => exact .inl h
  | cons d cs ih =>
      rw [splitHumps] at h
      have later : c ∈ d :: splitHumps (endsSegment d) cs → c ∈ d :: cs ∨ c = '_' := by
        intro mem
        cases List.mem_cons.mp mem with
        | inl same => exact .inl (same ▸ List.mem_cons_self)
        | inr mem => exact (ih _ mem).imp_left (List.mem_cons_of_mem d)
      split at h
      · cases List.mem_cons.mp h with
        | inl same => exact .inr same
        | inr mem => exact later mem
      · exact later h

theorem head?_splitHumps (cs : List Char) : (splitHumps false cs).head? = cs.head? := by
  cases cs with
  | nil => rfl
  | cons c cs => rfl

theorem getLast?_splitHumps (b : Bool) (cs : List Char) : (splitHumps b cs).getLast? = cs.getLast? := by
  induction cs generalizing b with
  | nil => rfl
  | cons c cs ih =>
      have later : (c :: splitHumps (endsSegment c) cs).getLast? = (c :: cs).getLast? := by
        rw [List.getLast?_cons, List.getLast?_cons, ih]
      rw [splitHumps]
      split
      · rw [List.getLast?_cons, later, List.getLast?_cons]
        rfl
      · exact later

/-! ## Keys of ASCII -/

theorem splitHumps_ascii (h : ∀ c ∈ cs, c.toNat < 128) (b : Bool) : ∀ c ∈ splitHumps b cs, c.toNat < 128 := by
  intro c mem
  cases mem_splitHumps b mem with
  | inl mem => exact h c mem
  | inr same =>
      rw [same]
      decide

theorem toList_snake {key : String} (trimmed : trimList isBlank key.toList = cs)
    (h : ∀ c ∈ cs, c.toNat < 128) : (snake key).toList = (splitHumps false cs).map settled := by
  rw [snake, String.toList_ofList, trimmed, lowerFrom_ascii (splitHumps_ascii h false), List.map_map]
  rfl

/-- A key that was brought to small letters with underscores stays so. -/
theorem snake_snake {key : String} (h : ∀ c ∈ key.toList, c.toNat < 128) :
    snake (snake key) = snake key := by
  obtain ⟨cs, trimmed⟩ : ∃ cs, trimList isBlank key.toList = cs := ⟨_, rfl⟩
  have ends : IsTrimmed isBlank cs := trimmed ▸ isTrimmed_trimList _ _
  have plain : ∀ c ∈ cs, c.toNat < 128 := fun c mem => h c (trimList_subset isBlank _ (trimmed ▸ mem))
  have ascii := splitHumps_ascii plain false
  have text := toList_snake trimmed plain
  have stays : ∀ c ∈ (snake key).toList, c.toNat < 128 ∧ c.isUpper = false ∧ settled c = c := by
    rw [text]
    intro c mem
    obtain ⟨d, among, rfl⟩ := List.mem_map.mp mem
    have facts := ascii_settled (ascii d among)
    exact ⟨facts.2.2.1, facts.1, facts.2.1⟩
  have filled {d : Char} (among : d ∈ splitHumps false cs) (plain : isBlank d = false) :
      isBlank (settled d) = false :=
    (ascii_settled (ascii d among)).2.2.2.trans plain
  have kept : IsTrimmed isBlank (snake key).toList := by
    rw [text]
    constructor
    · intro c mem
      rw [List.head?_map] at mem
      obtain ⟨d, first, rfl⟩ := Option.map_eq_some_iff.mp mem
      exact filled (List.mem_of_head? first) (ends.1 d (head?_splitHumps cs ▸ first))
    · intro c mem
      rw [List.getLast?_map] at mem
      obtain ⟨d, last, rfl⟩ := Option.map_eq_some_iff.mp mem
      exact filled (List.mem_of_getLast? last) (ends.2 d (getLast?_splitHumps _ cs ▸ last))
  apply String.toList_injective
  rw [toList_snake (trimList_of_isTrimmed kept) fun c mem => (stays c mem).1,
    splitHumps_plain (fun c mem => (stays c mem).2.1),
    List.map_congr_left fun c mem => (stays c mem).2.2, List.map_id']

/-! ## Names -/

/-- A name in parts of small letters and digits. Each later part starts with a letter, and all but the
first and the last have two characters at least. -/
structure Name where
  first : List Char
  later : List (List Char)
  filled : first ≠ []
  small : ∀ part ∈ first :: later, ∀ c ∈ part, endsSegment c = true
  started : ∀ part ∈ later, part.head?.any Char.isLower = true
  long : ∀ part ∈ later.dropLast, 2 ≤ part.length

theorem Name.small_of {parts : List (List Char)} (h : parts.all (·.all endsSegment) = true) :
    ∀ part ∈ parts, ∀ c ∈ part, endsSegment c = true :=
  fun part mem => List.all_eq_true.mp (List.all_eq_true.mp h part mem)

/-- The ways of writing a name. -/
inductive Style where
  | snake
  | kebab
  | camel

def capitalized : List Char → List Char
  | [] => []
  | c :: rest => c.toUpper :: rest

/-- A later part of a name behind the others. -/
def Style.attached : Style → List Char → List Char
  | .snake, part => '_' :: part
  | .kebab, part => '-' :: part
  | .camel, part => capitalized part

namespace Name

def spelled (n : Name) (style : Style) : List Char := n.first ++ n.later.flatMap style.attached

/-- The name itself: its parts with underscores between them. -/
def text (n : Name) : String := String.ofList (n.spelled .snake)

/-- The start of a later part is seen, and what is behind the part goes on after a small character. -/
theorem settled_attached (style : Style) (start : c.isLower = true)
    (small : ∀ d ∈ cs, endsSegment d = true) (seen : cs ≠ [] ∨ rest = []) :
    (splitHumps true (style.attached (c :: cs) ++ rest)).map settled =
      '_' :: c :: cs ++ (splitHumps true rest).map settled := by
  have stays {cs : List Char} (small : ∀ d ∈ cs, endsSegment d = true) : cs.map settled = cs := by
    rw [List.map_congr_left fun d mem => (endsSegment_stays (small d mem)).2.2, List.map_id']
  have all : ∀ d ∈ c :: cs, endsSegment d = true :=
    List.forall_mem_cons.mpr ⟨by simp [endsSegment, start], small⟩
  have joined (mark : Char) (capital : mark.isUpper = false) (other : endsSegment mark = false)
      (same : settled mark = '_') : (splitHumps true (mark :: (c :: cs) ++ rest)).map settled =
        '_' :: c :: cs ++ (splitHumps true rest).map settled := by
    rw [List.cons_append, splitHumps, capital, Bool.and_false, if_neg Bool.false_ne_true, other,
      splitHumps_append all (List.cons_ne_nil c cs), List.map_cons, List.map_append, stays all, same]
    rfl
  cases style with
  | snake => exact joined '_' rfl rfl rfl
  | kebab => exact joined '-' rfl rfl rfl
  | camel =>
      obtain ⟨upper, ends, -, -, same⟩ := isLower_raised start
      have hump : splitHumps true (Style.camel.attached (c :: cs) ++ rest) =
          '_' :: c.toUpper :: splitHumps false (cs ++ rest) := by
        rw [Style.attached, capitalized, List.cons_append, splitHumps, upper, Bool.and_true,
          if_pos rfl, ends]
      have mark : settled '_' = '_' := rfl
      by_cases single : cs = []
      · obtain rfl := seen.resolve_left (not_not_intro single)
        rw [hump, single, List.map_cons, List.map_cons, same, mark]
        rfl
      · rw [hump, splitHumps_append small single, List.map_cons, List.map_cons, List.map_append,
          stays small, same, mark]
        rfl

/-- Each spelling of the later parts is brought to the parts with underscores. -/
theorem settled_later (style : Style) {later : List (List Char)}
    (started : ∀ part ∈ later, ∃ c rest, part = c :: rest ∧ c.isLower = true ∧
      ∀ d ∈ rest, endsSegment d = true) (long : ∀ part ∈ later.dropLast, 2 ≤ part.length) :
    (splitHumps true (later.flatMap style.attached)).map settled =
      later.flatMap Style.snake.attached := by
  induction later with
  | nil => rfl
  | cons part later ih =>
      rw [List.forall_mem_cons] at started
      obtain ⟨⟨c, cs, rfl, start, small⟩, started⟩ := started
      have seen : cs ≠ [] ∨ later.flatMap style.attached = [] := by
        cases later with
        | nil => exact .inr rfl
        | cons =>
            have two := long _ List.mem_cons_self
            refine .inl fun none => ?_
            rw [none] at two
            exact absurd two (by simp)
      have shorter : ∀ part ∈ later.dropLast, 2 ≤ part.length := by
        intro part mem
        cases later with
        | nil => cases mem
        | cons => exact long part (List.mem_cons_of_mem _ mem)
      rw [List.flatMap_cons, settled_attached style start small seen, ih started shorter,
        List.flatMap_cons]
      rfl

theorem exists_of_later (n : Name) : ∀ part ∈ n.later, ∃ c rest, part = c :: rest ∧ c.isLower = true ∧
    ∀ d ∈ rest, endsSegment d = true := by
  intro part mem
  have start := n.started part mem
  have small := n.small part (List.mem_cons_of_mem _ mem)
  cases part with
  | nil => cases start
  | cons c rest => exact ⟨c, rest, rfl, start, (List.forall_mem_cons.mp small).2⟩

theorem settled_spelled (n : Name) (style : Style) :
    (splitHumps false (n.spelled style)).map settled = n.spelled .snake := by
  have small := n.small n.first List.mem_cons_self
  have stays : n.first.map settled = n.first := by
    rw [List.map_congr_left fun d mem => (endsSegment_stays (small d mem)).2.2, List.map_id']
  rw [spelled, splitHumps_append small n.filled, List.map_append, stays,
    settled_later style n.exists_of_later n.long, spelled]

/-- The characters of a spelling are characters of ASCII and no blanks. -/
theorem plain_spelled (n : Name) (style : Style) :
    ∀ c ∈ n.spelled style, c.toNat < 128 ∧ isBlank c = false := by
  have small {cs : List Char} (h : ∀ c ∈ cs, endsSegment c = true) :
      ∀ c ∈ cs, c.toNat < 128 ∧ isBlank c = false :=
    fun c mem => ⟨endsSegment_ascii (h c mem), (endsSegment_stays (h c mem)).2.1⟩
  refine List.forall_mem_append.mpr ⟨small (n.small _ List.mem_cons_self), fun c mem => ?_⟩
  obtain ⟨part, among, mem⟩ := List.mem_flatMap.mp mem
  have whole := small (n.small part (List.mem_cons_of_mem _ among))
  obtain ⟨d, rest, rfl, start, others⟩ := n.exists_of_later part among
  cases style with
  | snake => exact List.forall_mem_cons.mpr ⟨by decide, whole⟩ c mem
  | kebab => exact List.forall_mem_cons.mpr ⟨by decide, whole⟩ c mem
  | camel =>
      obtain ⟨-, -, filled, ascii, -⟩ := isLower_raised start
      exact List.forall_mem_cons.mpr ⟨⟨ascii, filled⟩, small others⟩ c mem

/-- A name in any style, with any blanks around it, is brought to the name. -/
theorem snake_spelled (n : Name) (style : Style) {before after : List Char}
    (hb : ∀ c ∈ before, isBlank c = true) (ha : ∀ c ∈ after, isBlank c = true) :
    snake (String.ofList (before ++ n.spelled style ++ after)) = n.text := by
  have plain := n.plain_spelled style
  have trimmed : trimList isBlank (String.ofList (before ++ n.spelled style ++ after)).toList =
      n.spelled style := by
    rw [String.toList_ofList, trimList_padded hb ha, trimList_plain fun c mem => (plain c mem).2]
  apply String.toList_injective
  rw [toList_snake trimmed fun c mem => (plain c mem).1, settled_spelled, text, String.toList_ofList]

end Name

end EditConfig
end Splice
