import Splice.Proofs.Binary64.Text
import Splice.Proofs.Yaml.Items
import Splice.Yaml.Node.Value

/-! # Scalars read back

Null, truth values and numbers are written as words, and texts in quotes. Each is read as what it was
written for, but for numbers whose word has no point: those are read as texts.
-/

namespace Splice

namespace Text

theorem capitalRuns_ascii : ∀ run ∈ capitalRuns, run.first = 65 ∧ run.last = 90 ∨ 128 ≤ run.first := by
  decide +kernel

/-- Printable characters of ASCII that are no capitals. -/
def IsSmall (c : Char) : Prop := Yaml.IsAscii c ∧ ¬ (65 ≤ c.toNat ∧ c.toNat ≤ 90)

instance (c : Char) : Decidable (IsSmall c) := inferInstanceAs (Decidable (_ ∧ _))

theorem lowerIn_small {c : Char} (h : IsSmall c) (before after : List Char) :
    lowerIn before c after = [c] := by
  obtain ⟨ascii, capital⟩ := h
  have none :
    (capitalRuns.find? fun run => decide (run.first ≤ c.toNat) && decide (c.toNat ≤ run.last) &&
      (c.toNat - run.first) % run.stride == 0) = none := by
    rw [List.find?_eq_none]
    intro run mem found
    simp only [Bool.and_eq_true, decide_eq_true_eq] at found
    have bound := ascii.2
    obtain ⟨first, last⟩ | far := capitalRuns_ascii run mem
    · exact capital ⟨first ▸ found.1.1, last ▸ found.1.2⟩
    · omega
  rw [lowerIn, if_neg (ascii.ne (by decide)), if_neg (ascii.ne (by decide)), lowerLetter, none]

theorem lower_small {s : String} (h : ∀ c ∈ s.toList, IsSmall c) : lower s = s := by
  have same (before : List Char) {cs : List Char} (h : ∀ c ∈ cs, IsSmall c) :
    lowerFrom before cs = cs := by
    induction cs generalizing before with
    | nil => rfl
    | cons c cs ih =>
        rw [lowerFrom, lowerIn_small (h c List.mem_cons_self),
          ih _ fun d mem => h d (List.mem_cons_of_mem _ mem)]
        rfl
  rw [lower, same [] h, String.ofList_toList]

end Text

namespace Yaml

/-- The kinds of the nodes whose text is their value. -/
def Tag.IsScalar (t : Tag) : Prop :=
  t = .null ∨ t = .bool ∨ t = .int ∨ t = .float ∨ t = .timestamp ∨ t = .text ∨ t = .binary

/-- The piece of a scalar. -/
def scalarPiece : Value → Item
  | .bool b => .word (if b then "true" else "false")
  | .int n => .word (toString n)
  | .float x => .word (Json.number x)
  | .text s => .quoted s
  | _ => .word "null"

/-- What the piece of a scalar is read as: a number without a point is just a text. -/
def keptScalar : Value → Value
  | .float x => if '.' ∈ (Json.number x).toList then .float x else .text (Json.number x)
  | v => v

/-- The scalars that can be written and read back: whole numbers have not too many digits, and no
character of a text needs two units. -/
def IsShared : Value → Prop
  | .null => True
  | .bool _ => True
  | .int n => Value.isWritableInt n = true
  | .float _ => True
  | .text s => Text.IsBasic s
  | _ => False

/-- A scalar whose piece is read as what is kept of it. -/
def IsReadable (v : Value) : Prop :=
  match scalarPiece v with
  | .word w => IsWord w ∧ (Tag.ofText w).IsScalar ∧ (Tag.ofText w).read w = .ok (keptScalar v)
  | .quoted s => Text.IsBasic s ∧ v = .text s
  | _ => False

theorem isReadable_null : IsReadable .null := by
  have start : IsWord "null" := ⟨by decide, 'n', _, rfl, .inl rfl⟩
  have kind : Tag.ofText "null" = .null := by decide
  exact ⟨start, kind ▸ .inl rfl, kind ▸ rfl⟩

theorem isReadable_bool (b : Bool) : IsReadable (.bool b) := by
  cases b with
  | true =>
      have start : IsWord "true" := ⟨by decide, 't', _, rfl, .inl rfl⟩
      have kind : Tag.ofText "true" = .bool := by decide
      have meaning : readBool "true" = .ok (.bool true) := by
        rw [readBool, Text.lower_small (List.all_iff_forall_prop.mp (by decide))]
        rfl
      exact ⟨start, kind ▸ .inr (.inl rfl), kind ▸ meaning⟩
  | false =>
      have start : IsWord "false" := ⟨by decide, 'f', _, rfl, .inl rfl⟩
      have kind : Tag.ofText "false" = .bool := by decide
      have meaning : readBool "false" = .ok (.bool false) := by
        rw [readBool, Text.lower_small (List.all_iff_forall_prop.mp (by decide))]
        rfl
      exact ⟨start, kind ▸ .inr (.inl rfl), kind ▸ meaning⟩

/-! ## Numbers -/

/-- What the word of a number starts with. -/
def StartsNumber (w : String) : Prop := w.toList.head?.any (fun c => c.isDigit || c == '-') = true

theorem StartsNumber.ne {w other : String} (h : StartsNumber w)
    (plain : other.toList.head?.any (fun c => c.isDigit || c == '-') = false) : w ≠ other := by
  intro same
  rw [StartsNumber, same, plain] at h
  cases h

theorem StartsNumber.not_contains {w : String} (h : StartsNumber w) {words : List String}
    (plain : ∀ other ∈ words, other.toList.head?.any (fun c => c.isDigit || c == '-') = false) :
    words.contains w = false := by
  rw [List.contains_eq_mem, decide_eq_false_iff_not]
  exact fun mem => h.ne (plain w mem) rfl

/-- A digit, maybe after a minus, starts the word of a number. -/
theorem word_of_number {w : String} {negative : Bool} {d : Char} {rest : List Char}
    (text : w.toList = Binary64.signText negative ++ d :: rest) (digit : d.isDigit = true)
    (numeral : Numeral w) :
    IsWord w ∧ StartsNumber w := by
  have letter : d.isAlphanum = true := by simp [Char.isAlphanum, digit]
  cases negative with
  | true =>
      exact ⟨⟨numeral, '-', _, text, .inr ⟨rfl, d, rest, rfl, letter⟩⟩, by rw [StartsNumber, text]; rfl⟩
  | false =>
      refine ⟨⟨numeral, d, _, text, .inl letter⟩, ?_⟩
      rw [StartsNumber, text]
      simp [Binary64.signText, digit]

/-- The kind of a word that starts as a number does. -/
theorem ofText_number {w : String} (start : StartsNumber w) (numeral : Numeral w) :
    Tag.ofText w = if isFloat w.toList then .float else if isInt w.toList then .int
      else if (timestampParts? false w.toList).isSome then .timestamp else .text := by
  have last : withoutLineEnd w.toList = w.toList := by
    apply if_neg
    intro found
    exact absurd (numeral '\n' (List.mem_of_getLast? found)) (by decide)
  rw [Tag.ofText]
  simp only [last, String.ofList_toList]
  rw [if_neg (start.ne (by decide)), start.not_contains (by decide), if_neg Bool.false_ne_true,
    start.not_contains (by decide), if_neg Bool.false_ne_true, if_neg (start.ne (by decide)),
    if_neg (start.ne (by decide)), start.not_contains (by decide), if_neg Bool.false_ne_true]

/-- Digits are passed over up to a character that is none. -/
theorem dropWhile_digits {ds rest : List Char} (digits : ∀ c ∈ ds, c.isDigit = true)
    (stop : ∀ c, rest.head? = some c → isDigitOrUnderscore c = false) :
    (ds ++ rest).dropWhile isDigitOrUnderscore = rest := by
  have all : ∀ c ∈ ds, isDigitOrUnderscore c = true := by
    intro c mem
    rw [isDigitOrUnderscore]
    exact Bool.or_eq_true_iff.mpr (.inl (digits c mem))
  rw [List.dropWhile_append_of_pos all]
  cases rest with
  | nil => rfl
  | cons c rest => exact List.dropWhile_cons_of_neg (by simp [stop c rfl])

theorem dropWhile_all_digits {ds : List Char} (digits : ∀ c ∈ ds, c.isDigit = true) :
    ds.dropWhile isDigitOrUnderscore = [] := by
  have all : (ds ++ []).dropWhile isDigitOrUnderscore = [] := dropWhile_digits digits nofun
  rwa [List.append_nil] at all

theorem unsigned_signText (negative : Bool) {c : Char} (h : c.isDigit = true) (cs : List Char) :
    unsigned (Binary64.signText negative ++ c :: cs) = c :: cs := by
  cases negative with
  | true => rfl
  | false =>
      have sign := Text.splitSign_isDigit h cs
      unfold unsigned Binary64.signText
      split <;> rename_i found
      · cases found
        exact absurd h (by decide)
      · cases found
        exact absurd h (by decide)
      · rfl

section

open Binary64 (PointForm signText exponentText)

variable {cs whole fraction tail : List Char} {e : Int}

theorem isExponent_tail (h : PointForm cs whole fraction tail e) : Yaml.isExponent tail = true := by
  cases h.ending with
  | inl none =>
      rw [none.1]
      rfl
  | inr exponent =>
      have digits := Binary64.isDigit_exponent e.natAbs
      have filled : List.replicate (2 - (Binary64.wholeDigits e.natAbs).length) '0' ++
          Binary64.wholeDigits e.natAbs ≠ [] :=
          fun none => Nat.toDigits_ne_nil (List.append_eq_nil_iff.mp none).2
      rw [exponent, exponentText]
      cases body : List.replicate (2 - (Binary64.wholeDigits e.natAbs).length) '0' ++
          Binary64.wholeDigits e.natAbs with
      | nil => exact absurd body filled
      | cons d ds =>
          rw [body] at digits
          have all : (d :: ds).all isAsciiDigit = true := List.all_eq_true.mpr digits
          rw [Yaml.isExponent, all]
          split <;> rfl

/-- A numeral with a point has the form of a number with a point. -/
theorem isFloat_pointForm (h : PointForm cs whole fraction tail e) (negative : Bool) :
    isFloat (signText negative ++ cs) = true := by
  have text := h.text
  have left := h.left
  have after : cs.dropWhile isDigitOrUnderscore = '.' :: (fraction ++ tail) := by
    rw [text]
    exact dropWhile_digits left (by intro c same; cases same; decide)
  have ending : (fraction ++ tail).dropWhile isDigitOrUnderscore = tail := by
    apply dropWhile_digits h.right
    intro c first
    cases h.ending with
    | inl none =>
        rw [none.1] at first
        cases first
    | inr exponent =>
        rw [exponent] at first
        cases first
        decide
  have exponent := isExponent_tail h
  cases whole with
  | nil => exact absurd rfl h.filled
  | cons d ds =>
      rw [text, List.cons_append] at after ⊢
      have digit := left d List.mem_cons_self
      have ascii : isAsciiDigit d = true := digit
      unfold isFloat
      rw [unsigned_signText negative digit]
      iterate 4 apply Bool.or_eq_true_iff.mpr ∘ Or.inl
      rw [after, List.head?_cons, Option.any_some, ascii]
      show (true && Yaml.isExponent ((fraction ++ tail).dropWhile isDigitOrUnderscore)) = true
      rw [ending, exponent]
      rfl

/-- The characters of numerals with a point. -/
def IsFigure (c : Char) : Prop := c.isDigit = true ∨ c = '.' ∨ c = 'e' ∨ c = '+' ∨ c = '-'

theorem IsFigure.isNumeral {c : Char} (h : IsFigure c) : isNumeral c = true := by
  obtain digit | rfl | rfl | rfl | rfl := h
  · exact isNumeral_of_isDigit digit
  all_goals rfl

theorem IsFigure.isSmall {c : Char} (h : IsFigure c) : Text.IsSmall c := by
  obtain digit | rfl | rfl | rfl | rfl := h
  · have bounds : 48 ≤ c.toNat ∧ c.toNat ≤ 57 := by
      simp only [Char.isDigit, Bool.and_eq_true, decide_eq_true_eq, ge_iff_le,
        UInt32.le_iff_toNat_le] at digit
      exact digit
    unfold Text.IsSmall IsAscii
    omega
  all_goals decide

theorem figures_pointForm (h : PointForm cs whole fraction tail e) : ∀ c ∈ cs, IsFigure c := by
  intro c mem
  rw [h.text, List.mem_append, List.mem_cons, List.mem_append] at mem
  obtain mem | rfl | mem | mem := mem
  · exact .inl (h.left c mem)
  · exact .inr (.inl rfl)
  · exact .inl (h.right c mem)
  · cases h.ending with
    | inl none =>
        rw [none.1] at mem
        cases mem
    | inr exponent =>
        rw [exponent, exponentText, List.mem_cons, List.mem_cons] at mem
        obtain rfl | sign | mem := mem
        · exact .inr (.inr (.inl rfl))
        · split at sign
          · exact .inr (.inr (.inr (.inr sign)))
          · exact .inr (.inr (.inr (.inl sign)))
        · exact .inl (Binary64.isDigit_exponent _ c mem)

theorem head_pointForm (h : PointForm cs whole fraction tail e) :
    ∃ d rest, cs = d :: rest ∧ d.isDigit = true := by
  have text := h.text
  have left := h.left
  cases whole with
  | nil => exact absurd rfl h.filled
  | cons d ds => exact ⟨d, _, text, left d List.mem_cons_self⟩

/-- A numeral with a point is read as the number that it denotes. -/
theorem readFloat_pointForm (h : PointForm cs whole fraction tail e) (negative : Bool) {x : Binary64}
    (reads : Text.number? (String.ofList cs) = some x) :
    readFloat (String.ofList (signText negative ++ cs)) = .ok (if negative then -x else x) := by
  have figures : ∀ c ∈ signText negative ++ cs, IsFigure c := by
    intro c mem
    cases List.mem_append.mp mem with
    | inl mem =>
        cases negative with
        | true => exact .inr (.inr (.inr (.inr (List.mem_singleton.mp mem))))
        | false => cases mem
    | inr mem => exact figures_pointForm h c mem
  have other {c mark : Char} (figure : IsFigure c) (plain : isNumeral mark = false) : c ≠ mark :=
    ne_of_isNumeral figure.isNumeral plain
  have joined : (signText negative ++ cs).filter (· != '_') = signText negative ++ cs :=
    List.filter_eq_self.mpr fun c mem => bne_iff_ne.mpr (other (figures c mem) rfl)
  obtain ⟨d, rest, split, digit⟩ := head_pointForm h
  have body : floatBody (String.ofList (signText negative ++ cs)) = (negative, cs) := by
    rw [floatBody, String.toList_ofList, joined, Text.lower_small, String.toList_ofList, split]
    · exact Text.splitSign_signText negative digit rest
    · rw [String.toList_ofList]
      exact fun c mem => (figures c mem).isSmall
  have infinite : cs ≠ ".inf".toList := by
    rw [split]
    intro same
    cases same
    exact absurd digit (by decide)
  have nan : cs ≠ ".nan".toList := by
    rw [split]
    intro same
    cases same
    exact absurd digit (by decide)
  have sixties : cs.contains ':' = false := by
    rw [List.contains_eq_mem, decide_eq_false_iff_not]
    intro mem
    exact other (figures_pointForm h ':' mem) rfl rfl
  have underscores : (String.ofList (signText negative ++ cs)).toList.all (· == '_') = false := by
    rw [String.toList_ofList, split, List.all_eq_false]
    exact ⟨d, by simp,
      by simpa using other (.inl digit : IsFigure d) (by decide : isNumeral '_' = false)⟩
  have number : decimalNumber cs = .ok x := by
    rw [decimalNumber, reads]
  rw [readFloat, underscores, if_neg Bool.false_ne_true, body]
  dsimp only
  rw [if_neg infinite, if_neg nan, sixties, if_neg Bool.false_ne_true, number]
  cases negative <;> rfl

/-- A number with a point is read as the number. -/
theorem isReadable_point {negative : Bool} {units : Nat} (fits : Binary64.Fits units)
    (form : PointForm (Binary64.unsignedChars units) whole fraction tail e) :
    IsReadable (.float (.finite negative units fits)) := by
  have text := Binary64.toList_text negative fits
  have reads : Text.number? (String.ofList (Binary64.unsignedChars units)) =
    some (.finite false units fits) := by
    have same := Binary64.toList_text false fits
    rw [signText, if_neg Bool.false_ne_true, List.nil_append] at same
    rw [← same, String.ofList_toList]
    exact Binary64.number?_text rfl
  obtain ⟨d, rest, split, digit⟩ := head_pointForm form
  have word : (Binary64.finite negative units fits).text =
      String.ofList (signText negative ++ Binary64.unsignedChars units) := by
    rw [← text, String.ofList_toList]
  have numeral : Numeral (Binary64.finite negative units fits).text := by
    intro c mem
    rw [text] at mem
    cases List.mem_append.mp mem with
    | inl mem => exact Binary64.isNumeral_signText mem
    | inr mem => exact (figures_pointForm form c mem).isNumeral
  obtain ⟨isWord, start⟩ := word_of_number (split ▸ text) digit numeral
  have kind : Tag.ofText (Binary64.finite negative units fits).text = .float := by
    have float := isFloat_pointForm form negative
    rw [← text] at float
    rw [ofText_number start numeral, if_pos float]
  have meaning : readFloat (Binary64.finite negative units fits).text =
    .ok (.finite negative units fits) := by
    rw [word, readFloat_pointForm form negative reads]
    cases negative <;> rfl
  have point : '.' ∈ (Json.number (.finite negative units fits)).toList := by
    show '.' ∈ (Binary64.finite negative units fits).text.toList
    rw [text, form.text]
    simp
  refine ⟨isWord, ?_, ?_⟩
  · show (Tag.ofText (Binary64.finite negative units fits).text).IsScalar
    rw [kind]
    exact .inr (.inr (.inr (.inl rfl)))
  · show (Tag.ofText (Binary64.finite negative units fits).text).read (Binary64.finite negative units fits).text = _
    rw [kind, Tag.read, meaning, keptScalar, if_pos point]
    rfl

/-! ## Whole numbers -/

theorem toList_toString (n : Int) :
    (toString n).toList = signText (decide (n < 0)) ++ Binary64.wholeDigits n.natAbs := by
  have digits (n : Nat) : (toString n).toList = Binary64.wholeDigits n := by
    rw [Nat.toString_eq_ofList_toDigits, String.toList_ofList]
    rfl
  cases n with
  | ofNat n =>
      have negative : ¬ Int.ofNat n < 0 := Int.not_lt.mpr (Int.natCast_nonneg n)
      rw [decide_eq_false negative]
      exact digits n
  | negSucc n =>
      show ("-" ++ toString (n + 1)).toList = _
      rw [String.toList_append, digits, decide_eq_true (Int.negSucc_lt_zero n)]
      rfl

/-- A positive number does not start with a zero. -/
theorem head_wholeDigits {n : Nat} (pos : 0 < n) :
    ∃ d rest, Binary64.wholeDigits n = d :: rest ∧ d ≠ '0' := by
  induction n using Nat.strongRecOn with
  | ind n ih =>
      rw [Binary64.wholeDigits, Nat.toDigits_eq_if (by decide)]
      split
      · rename_i small
        have each : ∀ n < 10, 0 < n → Nat.digitChar n ≠ '0' := by decide
        exact ⟨_, [], rfl, each n small pos⟩
      · obtain ⟨d, rest, split, first⟩ := ih (n / 10) (by omega) (by omega)
        rw [Binary64.wholeDigits] at split
        rw [split]
        exact ⟨d, _, rfl, first⟩

theorem isInt_toString (n : Int) : isInt (toString n).toList = true := by
  have digits := Binary64.isDigit_wholeDigits n.natAbs
  rw [toList_toString]
  obtain zero | pos := Nat.eq_zero_or_pos n.natAbs
  · obtain rfl := Int.natAbs_eq_zero.mp zero
    rfl
  · obtain ⟨d, rest, split, first⟩ := head_wholeDigits pos
    rw [split] at digits ⊢
    have digit := digits d List.mem_cons_self
    have others := dropWhile_all_digits fun c mem => digits c (List.mem_cons_of_mem _ mem)
    have ascii : isAsciiDigit d = true := digit
    unfold isInt
    rw [unsigned_signText _ digit]
    split
    · rename_i found
      cases found
      exact absurd rfl first
    · rename_i found
      cases found
      exact absurd rfl first
    · rename_i found
      cases found
      exact absurd rfl first
    · rename_i found
      cases found
      rw [ascii, others]
      rfl
    · rename_i found
      cases found

/-- Without a point or a colon after its digits a numeral is no number with a point. -/
theorem isFloat_digits (negative : Bool) {d : Char} {rest more : List Char} (digit : d.isDigit = true)
    (after : (d :: rest).dropWhile isDigitOrUnderscore = more)
    (other : more.head? ≠ some '.' ∧ more.head? ≠ some ':') :
    isFloat (signText negative ++ d :: rest) = false := by
  have bare : StartsNumber (String.ofList (d :: rest)) := by simp [StartsNumber, digit]
  have signed : StartsNumber (String.ofList (signText negative ++ d :: rest)) := by
    cases negative <;> simp [StartsNumber, signText, digit]
  have point : (signText negative ++ d :: rest).head? ≠ some '.' := by
    intro first
    rw [StartsNumber, String.toList_ofList, first] at signed
    exact absurd signed (by decide)
  have sixties : afterSixties? false more = none := by
    cases more with
    | nil => rfl
    | cons c more =>
        have colon : c ≠ ':' := fun same => other.2 (same ▸ rfl)
        unfold afterSixties?
        split
        · rename_i found
          cases found
          exact absurd rfl colon
        · rename_i found
          cases found
          exact absurd rfl colon
        · rfl
  unfold isFloat
  rw [unsigned_signText _ digit]
  dsimp only
  rw [after, sixties, bare.not_contains (by decide), signed.not_contains (by decide)]
  split
  · exact absurd rfl other.1
  · simp only [Bool.and_false, Bool.or_false, Bool.false_or]
    split
    · rename_i found
      rw [found] at point
      exact absurd rfl point
    · rfl

theorem isFloat_toString (n : Int) : isFloat (toString n).toList = false := by
  have digits := Binary64.isDigit_wholeDigits n.natAbs
  rw [toList_toString]
  cases split : Binary64.wholeDigits n.natAbs with
  | nil => exact absurd split Nat.toDigits_ne_nil
  | cons d rest =>
      rw [split] at digits
      have all := dropWhile_all_digits digits
      exact isFloat_digits _ (digits d List.mem_cons_self) all ⟨nofun, nofun⟩

theorem length_wholeDigits_le {n k : Nat} (some' : 0 < k) (short : n < Nat.pow 10 k) :
    (Binary64.wholeDigits n).length ≤ k :=
  (Nat.length_toDigits_le_iff (by decide) some').mpr short

theorem wholeNumber_wholeDigits {n : Nat}
    (length : (Binary64.wholeDigits n).length ≤ Text.wholeDigitLimit) :
    wholeNumber (Binary64.wholeDigits n) = .ok (n : Int) := by
  have digits := Binary64.isDigit_wholeDigits n
  have filled : Binary64.wholeDigits n ≠ [] := Nat.toDigits_ne_nil
  have value : Nat.ofDigitChars 10 (Binary64.wholeDigits n) 0 = n := Nat.ofDigitChars_ten_toDigits
  rw [wholeNumber, Text.wholeDigitCount_digits filled digits, if_neg (Nat.not_lt.mpr length),
    Text.whole?_digits filled digits length, value]

theorem readInt_toString {n : Int} (writable : Value.isWritableInt n = true) :
    readInt (toString n) = .ok n := by
  have digits := Binary64.isDigit_wholeDigits n.natAbs
  have joined : (toString n).toList.filter (· != '_') = (toString n).toList :=
    List.filter_eq_self.mpr fun c mem =>
    bne_iff_ne.mpr (ne_of_isNumeral (numeral_int n c mem) (by decide))
  rw [readInt]
  dsimp only
  rw [joined, toList_toString]
  obtain zero | pos := Nat.eq_zero_or_pos n.natAbs
  · obtain rfl := Int.natAbs_eq_zero.mp zero
    rfl
  · obtain ⟨d, rest, split, first⟩ := head_wholeDigits pos
    have digit := digits d (split ▸ List.mem_cons_self)
    have sixties : (d :: rest).contains ':' = false := by
      rw [List.contains_eq_mem, decide_eq_false_iff_not, ← split]
      exact fun mem => absurd (digits ':' mem) (by decide)
    have short : (Binary64.wholeDigits n.natAbs).length ≤ Value.digitLimit := by
      rw [Value.isWritableInt, decide_eq_true_eq] at writable
      exact length_wholeDigits_le (by decide) writable
    have number := wholeNumber_wholeDigits short
    rw [split] at number ⊢
    rw [Text.splitSign_signText _ digit]
    dsimp only
    split
    · rename_i found
      cases found
    · rename_i found
      cases found
      exact absurd rfl first
    · rename_i found
      cases found
      exact absurd rfl first
    · rename_i found
      cases found
      exact absurd rfl first
    · rename_i found
      cases found
      exact absurd rfl first
    · rw [sixties, if_neg Bool.false_ne_true, number]
      have sign : (if decide (n < 0) = true then -(n.natAbs : Int) else n.natAbs) = n := by
        by_cases negative : n < 0
        · rw [if_pos (decide_eq_true negative)]
          omega
        · rw [if_neg (by simpa using negative)]
          omega
      exact congrArg Except.ok sign

theorem isReadable_int {n : Int} (writable : Value.isWritableInt n = true) : IsReadable (.int n) := by
  have text := toList_toString n
  have digits := Binary64.isDigit_wholeDigits n.natAbs
  have numeral : Numeral (toString n) := numeral_int n
  cases split : Binary64.wholeDigits n.natAbs with
  | nil => exact absurd split Nat.toDigits_ne_nil
  | cons d rest =>
      have digit := digits d (split ▸ List.mem_cons_self)
      obtain ⟨isWord, start⟩ := word_of_number (split ▸ text) digit numeral
      have kind : Tag.ofText (toString n) = .int := by
        rw [ofText_number start numeral, isFloat_toString, if_neg Bool.false_ne_true,
          if_pos (isInt_toString n)]
      refine ⟨isWord, ?_, ?_⟩
      · rw [kind]
        exact .inr (.inr (.inl rfl))
      · rw [kind, Tag.read, readInt_toString writable]
        rfl

/-! ## Numbers without a point -/

/-- A digit with an exponent but without a point is just a text. -/
theorem ofText_exponent {w : String} {negative : Bool} {d : Char} {rest : List Char}
    (digit : d.isDigit = true)
    (text : w.toList = signText negative ++ d :: 'e' :: rest) (start : StartsNumber w)
    (numeral : Numeral w) :
    Tag.ofText w = .text := by
  have ascii : isAsciiDigit d = true := digit
  have after : (d :: 'e' :: rest).dropWhile isDigitOrUnderscore = 'e' :: rest :=
    @dropWhile_digits [d] ('e' :: rest) (by simpa using digit) (by intro c same; cases same; decide)
  have float := isFloat_digits negative digit after ⟨by simp, by simp⟩
  have whole : isInt (signText negative ++ d :: 'e' :: rest) = false := by
    unfold isInt
    rw [unsigned_signText _ digit]
    split
    · rename_i found
      cases found
    · rename_i found
      cases found
    · rename_i found
      cases found
      rfl
    · rename_i found
      cases found
      rw [ascii]
      rfl
    · rfl
  have date : timestampParts? false (signText negative ++ d :: 'e' :: rest) = none := by
    have short : someDigits? 4 4 (signText negative ++ d :: 'e' :: rest) = none := by
      cases negative with
      | true => rfl
      | false =>
          have letter : isAsciiDigit 'e' = false := by decide
          simp [someDigits?, signText, ascii, letter]
    rw [timestampParts?, short]
    rfl
  rw [ofText_number start numeral, text, float, whole, date]
  rfl

/-- A word without a point that is just a text is what is kept of a number. -/
theorem isReadable_text {x : Binary64} (word : IsWord (Json.number x))
    (point : '.' ∉ (Json.number x).toList)
    (kind : Tag.ofText (Json.number x) = .text) : IsReadable (.float x) := by
  refine ⟨word, ?_, ?_⟩
  · rw [kind]
    exact .inr (.inr (.inr (.inr (.inr (.inl rfl)))))
  · rw [kind, keptScalar, if_neg point]
    rfl

theorem isReadable_exponent {negative : Bool} {units : Nat} (fits : Binary64.Fits units) {d : Char}
    (digit : d.isDigit = true) (form : Binary64.unsignedChars units = d :: 'e' :: exponentText e) :
    IsReadable (.float (.finite negative units fits)) := by
  have text := Binary64.toList_text negative fits
  rw [form] at text
  have figure : ∀ c ∈ 'e' :: exponentText e, isNumeral c = true ∧ c ≠ '.' := by
    intro c mem
    cases mem with
    | head => decide
    | tail _ mem =>
        refine ⟨Binary64.isNumeral_exponentText e c mem, ?_⟩
        rintro rfl
        exact Binary64.not_point_exponentText e mem
  have numeral : Numeral (Binary64.finite negative units fits).text := by
    intro c mem
    rw [text, List.mem_append, List.mem_cons] at mem
    obtain mem | rfl | mem := mem
    · exact Binary64.isNumeral_signText mem
    · exact isNumeral_of_isDigit digit
    · exact (figure c mem).1
  obtain ⟨word, start⟩ := word_of_number text digit numeral
  apply isReadable_text (x := .finite negative units fits) word
  · intro mem
    change '.' ∈ (Binary64.finite negative units fits).text.toList at mem
    rw [text, List.mem_append, List.mem_cons] at mem
    obtain mem | rfl | mem := mem
    · cases negative with
      | true => exact absurd (List.mem_singleton.mp mem) (by decide)
      | false => cases mem
    · exact absurd digit (by decide)
    · exact (figure '.' mem).2 rfl
  · exact ofText_exponent digit text start numeral

theorem isReadable_float (x : Binary64) : IsReadable (.float x) := by
  cases x with
  | nan => exact isReadable_text ⟨by decide, 'N', _, rfl, .inl rfl⟩ (by decide) (by decide)
  | infinite negative =>
      cases negative with
      | true =>
          exact isReadable_text ⟨by decide, '-', _, rfl, .inr ⟨rfl, 'I', _, rfl, rfl⟩⟩ (by decide)
            (by decide)
      | false => exact isReadable_text ⟨by decide, 'I', _, rfl, .inl rfl⟩ (by decide) (by decide)
  | finite negative units fits =>
      cases Binary64.unsignedChars_cases units with
      | inl point =>
          obtain ⟨whole, fraction, tail, e, form⟩ := point
          exact isReadable_point fits form
      | inr exponent =>
          obtain ⟨d, e, digit, form⟩ := exponent
          exact isReadable_exponent fits digit form

/-- Every scalar that is shared is read back. -/
theorem IsShared.isReadable {v : Value} (h : IsShared v) : IsReadable v := by
  cases v with
  | null => exact isReadable_null
  | bool b => exact isReadable_bool b
  | int n => exact isReadable_int h
  | float x => exact isReadable_float x
  | text s => exact ⟨h, rfl⟩
  | _ => cases h

end

end Yaml
end Splice
