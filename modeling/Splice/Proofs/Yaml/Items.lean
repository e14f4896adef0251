import Mathlib.Data.Bool.AllAny
import Splice.Proofs.Marks
import Splice.Proofs.Yaml.Quoted
import Splice.Yaml.Token.Lexer

/-! # Pieces of a text in brackets

JSON writes a value in brackets, marks, quoted texts and words. Each piece is read by one step of the
lexer, whatever follows it, and a key is one piece with its colon in the step after it.
-/

namespace Splice.Yaml

/-- A piece of a text in brackets. -/
inductive Item where
  | opens (mapping : Bool)
  | closes (mapping : Bool)
  | comma
  | key (s : String)
  | colon
  | word (w : String)
  | quoted (s : String)

namespace Item

def chars : Item → List Char
  | .opens mapping => [if mapping then '\x7b' else '[']
  | .closes mapping => [if mapping then '\x7d' else ']']
  | .comma => [',', ' ']
  | .key s => (Json.quote s).toList
  | .colon => [':', ' ']
  | .word w => w.toList
  | .quoted s => (Json.quote s).toList

def tokens : Item → List Token
  | .opens mapping => [if mapping then .flowMappingStart else .flowSequenceStart]
  | .closes mapping => [if mapping then .flowMappingEnd else .flowSequenceEnd]
  | .comma => [.flowEntry]
  | .key s => [.key, .scalar false s]
  | .colon => [.value]
  | .word w => [.scalar true w]
  | .quoted s => [.scalar false s]

/-- Whether a piece ends a word in front of it. -/
def endsPlain : Item → Bool
  | .closes _ => true
  | .comma => true
  | _ => false

end Item

/-! ## Words -/

/-- A plain scalar of letters, digits, signs and points. Its first character is a letter or a digit,
after a minus if there is one. -/
structure IsWord (w : String) : Prop where
  numeral : Numeral w
  start : ∃ ch cs, w.toList = ch :: cs ∧
    (ch.isAlphanum = true ∨ ch = '-' ∧ ∃ d ds, cs = d :: ds ∧ d.isAlphanum = true)

section

variable {ch mark : Char}

theorem isNumeral_of_isAlphanum (h : ch.isAlphanum = true) : isNumeral ch = true := by
  simp [isNumeral, h]

theorem ne_of_isNumeral (h : isNumeral ch = true) (other : isNumeral mark = false) : ch ≠ mark := by
  rintro rfl
  rw [h] at other
  cases other

theorem ne_of_isAlphanum (h : ch.isAlphanum = true) (other : mark.isAlphanum = false) : ch ≠ mark := by
  rintro rfl
  rw [h] at other
  cases other

theorem isAscii_of_isNumeral (h : isNumeral ch = true) : IsAscii ch := by
  change (((decide (ch.val ≥ 'A'.val ∧ ch.val ≤ 'Z'.val) || (decide (ch.val ≥ 'a'.val) && decide (ch.val ≤ 'z'.val))) ||
    (decide (ch.val ≥ '0'.val) && decide (ch.val ≤ '9'.val))) || ch == '-' || ch == '+' || ch == '.') = true at h
  simp only [Bool.or_eq_true, Bool.and_eq_true, decide_eq_true_eq, beq_iff_eq,
    UInt32.le_iff_toNat_le, ge_iff_le] at h
  have bounds : ((((65 ≤ ch.toNat ∧ ch.toNat ≤ 90 ∨ 97 ≤ ch.toNat ∧ ch.toNat ≤ 122) ∨
      48 ≤ ch.toNat ∧ ch.toNat ≤ 57) ∨ ch = '-') ∨ ch = '+') ∨ ch = '.' := h
  obtain (((h | h) | rfl) | rfl) | rfl := bounds
  · unfold IsAscii
    omega
  · unfold IsAscii
    omega
  all_goals decide

theorem areAscii_of_numeral {w : String} (h : Numeral w) : AreAscii w.toList :=
  fun ch mem => isAscii_of_isNumeral (h ch mem)

theorem stopsPlain_numeral (h : isNumeral ch = true) (next : Option Char) :
    stopsPlain true ch next = false := by
  have gap : isGap (some ch) = false := by
    rw [(isAscii_of_isNumeral h).isGap_eq]
    exact beq_eq_false_iff_ne.mpr (ne_of_isNumeral h (by decide))
  have colon : (ch == ':') = false := beq_eq_false_iff_ne.mpr (ne_of_isNumeral h (by decide))
  have marks : ",?[]\x7b\x7d".toList.contains ch = false := by
    rw [List.contains_eq_mem, decide_eq_false_iff_not]
    intro mem
    have apart : ∀ c ∈ ",?[]\x7b\x7d".toList, isNumeral c = false :=
      List.all_iff_forall_prop.mp (by decide)
    rw [apart ch mem] at h
    cases h
  rw [stopsPlain, gap, colon, marks]
  rfl

theorem plainSegment_word {cs rest : List Char} (h : ∀ ch ∈ cs, isNumeral ch = true)
    (stop : stopsPlain true mark rest.head? = true) : plainSegment true (cs ++ mark :: rest) = cs := by
  induction cs with
  | nil => rw [List.nil_append, plainSegment, if_pos stop]
  | cons ch cs ih =>
      rw [List.cons_append, plainSegment, stopsPlain_numeral (h ch List.mem_cons_self),
        if_neg Bool.false_ne_true, ih fun c mem => h c (List.mem_cons_of_mem _ mem)]

/-- A word is read up to the mark after it. -/
theorem plainScalar_word {w : String} (h : IsWord w) {indent : Int} {c : Cursor} {rest : List Char}
    (ascii : IsAscii mark) (space : mark ≠ ' ') (stop : stopsPlain true mark rest.head? = true)
    (here : c.rest = w.toList ++ mark :: rest) :
    plainScalar true indent c = ⟨w.toList, false, c.past w.length (mark :: rest)⟩ := by
  obtain ⟨ch, cs, split, _⟩ := h.start
  have piece : plainSegment true c.rest = w.toList := here ▸ plainSegment_word h.numeral stop
  have comment : c.peek ≠ some '#' := by
    rw [Cursor.peek_eq (here.trans (by rw [split]; rfl))]
    intro same
    exact ne_of_isNumeral (h.numeral ch (split ▸ List.mem_cons_self)) (by decide) (Option.some.inj same)
  have filled : w.toList.isEmpty = false := by rw [split]; rfl
  have next : c.skip w.toList.length = c.past w.length (mark :: rest) := by
    rw [Cursor.skip_ascii here (areAscii_of_numeral h.numeral), String.length_toList]
  have gap : plainGap (c.past w.length (mark :: rest)) =
    ⟨[], false, c.past w.length (mark :: rest)⟩ := by
    have spaces : (c.past w.length (mark :: rest)).rest.takeWhile (· == ' ') = [] := by
      simp [space]
    unfold plainGap
    simp only [spaces, List.length_nil, Cursor.skip,
      Cursor.lineBreak?_ascii (c.past_rest w.length) ascii]
  rw [plainScalar, plainFrom, piece]
  simp only [comment, filled, next, gap, decide_false, Bool.or_self, Bool.false_eq_true, if_false,
    List.isEmpty_nil, Bool.true_or, if_true, List.nil_append]

end

end Splice.Yaml
