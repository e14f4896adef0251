import Mathlib.Data.List.TakeWhile
import Mathlib.Tactic.IntervalCases
import Splice.Proofs.Text.Codes
import Splice.Text.Percent

/-! # Percent encoding is undone

A character that is no safe one is written as the bytes that it has in UTF-8, each as two digits. The digits
are read as the bytes again, and the bytes as the character, so that decoding undoes encoding for every
text without a surrogate that stands alone. What stands for a single byte is not read back.
-/

namespace Splice.Text.Percent

variable {c : Char} {cs rest : List Char}

/-! ## Characters of encoded texts -/

/-- A safe character is one of ASCII, and none that an address gives a meaning to. -/
theorem isSafe_plain (h : isSafe c = true) : c.toNat < 128 ∧
    c ∉ ['%', '?', '#', ':', '\t', '\n', '\r'] := by
  have ascii : c.toNat < 128 := by
    simp only [isSafe, Bool.or_eq_true, beq_iff_eq] at h
    obtain ((((letter | rfl) | rfl) | rfl) | rfl) | rfl := h
    · -- a letter or a digit
      have ranges : ((decide (65 ≤ c.val ∧ c.val ≤ 90) ||
          decide (97 ≤ c.val) && decide (c.val ≤ 122)) ||
            decide (48 ≤ c.val) && decide (c.val ≤ 57)) = true := letter
      have code : (65 ≤ c.toNat ∧ c.toNat ≤ 90 ∨ 97 ≤ c.toNat ∧ c.toNat ≤ 122) ∨
          48 ≤ c.toNat ∧ c.toNat ≤ 57 := by
        simpa [UInt32.le_iff_toNat_le] using ranges
      omega
    all_goals decide
  have all : ∀ n < 128, isSafe (Char.ofNat n) = true →
      Char.ofNat n ∉ ['%', '?', '#', ':', '\t', '\n', '\r'] := by decide
  refine ⟨ascii, ?_⟩
  rw [← Char.ofNat_toNat c] at h ⊢
  exact all _ ascii h

theorem isSafe_hexDigit {n : Nat} (h : n < 16) : isSafe (hexDigit n) = true := by
  have all : ∀ n < 16, isSafe (hexDigit n) = true := by decide
  exact all n h

theorem hexValue?_hexDigit {n : Nat} (h : n < 16) : hexValue? (hexDigit n) = some n := by
  have all : ∀ n < 16, hexValue? (hexDigit n) = some n := by decide
  exact all n h

theorem isSafe_of_mem_encode (h : c ∈ encode cs) : isSafe c = true ∨ c = '%' := by
  obtain ⟨n, -, mem⟩ := List.mem_flatMap.mp h
  rw [encodeCode] at mem
  split at mem
  · obtain rfl := List.mem_singleton.mp mem
    exact .inl ‹_›
  · obtain ⟨b, -, mem⟩ := List.mem_flatMap.mp mem
    have size := b.toNat_lt
    simp only [encodeByte, List.mem_cons, List.not_mem_nil, or_false] at mem
    obtain rfl | rfl | rfl := mem
    · exact .inr rfl
    · exact .inl (isSafe_hexDigit (by omega))
    · exact .inl (isSafe_hexDigit (by omega))

/-! ## Digits to bytes -/

theorem bytes_cons (h : c ≠ '%') (rest : List Char) :
    bytes (c :: rest) = UInt8.ofNat c.toNat :: bytes rest := by
  rw [bytes]
  rintro a b rest' same -
  exact h same

theorem bytes_encodeByte (b : UInt8) (rest : List Char) :
    bytes (encodeByte b ++ rest) = b :: bytes rest := by
  have size := b.toNat_lt
  have whole : 16 * (b.toNat / 16) + b.toNat % 16 = b.toNat := by omega
  simp only [encodeByte, List.cons_append, List.nil_append, bytes,
    hexValue?_hexDigit (show b.toNat / 16 < 16 by omega),
    hexValue?_hexDigit (show b.toNat % 16 < 16 by omega), whole, UInt8.ofNat_toNat]

theorem bytes_flatMap_encodeByte (bs : List UInt8) (rest : List Char) :
    bytes (bs.flatMap encodeByte ++ rest) = bs ++ bytes rest := by
  induction bs with
  | nil => rfl
  | cons b bs ih => rw [List.flatMap_cons, List.append_assoc, bytes_encodeByte, ih, List.cons_append]

theorem utf8EncodeChar_ascii (h : c.toNat < 128) : String.utf8EncodeChar c = [UInt8.ofNat c.toNat] := by
  rw [String.utf8EncodeChar, if_pos]
  · rfl
  · show c.toNat ≤ 127
    omega

/-- What encodes a character is read as its bytes. -/
theorem bytes_encodeCode (c : Char) (rest : List Char) :
    bytes (encodeCode c.toNat ++ rest) = String.utf8EncodeChar c ++ bytes rest := by
  have valid : c.toNat.isValidChar := c.valid
  have plain : isSurrogate c.toNat = false := by
    unfold Nat.isValidChar at valid
    simp only [isSurrogate, Bool.and_eq_false_iff, decide_eq_false_iff_not]
    omega
  rw [encodeCode, Char.ofNat_toNat]
  split
  · rename_i safe
    obtain ⟨ascii, other⟩ := isSafe_plain safe
    have percent : c ≠ '%' := fun same => other (same ▸ List.mem_cons_self)
    rw [List.singleton_append, bytes_cons percent, utf8EncodeChar_ascii ascii, List.singleton_append]
  · rw [bytes_flatMap_encodeByte, codeBytes, plain, if_neg Bool.false_ne_true, Char.ofNat_toNat]

/-! ## Bytes to characters -/

theorem continuation_cons {lo hi x : Nat} (h : x < 64) (above : lo ≤ x + 128) (below : x + 128 ≤ hi)
    (count bits : Nat) (bs : List UInt8) :
    continuation (count + 1) bits lo hi (UInt8.ofNat (x + 128) :: bs) =
      continuation count (64 * bits + x) 0x80 0xBF bs := by
  have byte : (UInt8.ofNat (x + 128)).toNat = x + 128 :=
    UInt8.toNat_ofNat_of_lt' (show x + 128 < 256 by omega)
  rw [continuation, byte, if_pos ⟨above, below⟩, Nat.add_sub_cancel]

/-- The first of two bytes. -/
theorem leadByte?_two {n : Nat} (two : 2 ≤ n) (h : n < 32) :
    leadByte? (n + 192) = some (1, n, 0x80, 0xBF) := by
  rw [leadByte?, if_pos (by omega), Nat.add_sub_cancel]

/-- The first of three bytes. The second is bounded below for the first such byte, where two bytes
would do, and above for the one that the surrogates have. -/
theorem leadByte?_three {n : Nat} (h : n < 16) : ∃ lo hi, leadByte? (n + 224) = some (2, n, lo, hi) ∧
    ∀ x < 64, (n = 0 → 32 ≤ x) → (n = 13 → x < 32) → lo ≤ x + 128 ∧ x + 128 ≤ hi := by
  interval_cases n <;> exact ⟨_, _, rfl, by omega⟩

/-- The first of four bytes. -/
theorem leadByte?_four {n : Nat} (h : n < 5) : ∃ lo hi, leadByte? (n + 240) = some (3, n, lo, hi) ∧
    ∀ x < 64, (n = 0 → 16 ≤ x) → (n = 4 → x < 16) → lo ≤ x + 128 ∧ x + 128 ≤ hi := by
  interval_cases n <;> exact ⟨_, _, rfl, by omega⟩

theorem decodeUtf8_lead {n base count bits lo hi v : Nat} {bs more : List UInt8} (high : 0x80 ≤ base)
    (size : n + base < 256) (lead : leadByte? (n + base) = some (count, bits, lo, hi))
    (whole : continuation count bits lo hi bs = (0, v, more)) :
    decodeUtf8 (UInt8.ofNat (n + base) :: bs) = held (Char.ofNat v) ++ decodeUtf8 more := by
  have byte : (UInt8.ofNat (n + base)).toNat = n + base := UInt8.toNat_ofNat_of_lt' size
  rw [decodeUtf8, byte, if_neg (by omega), lead]
  simp only [whole, if_true]

/-- The bytes of a character are read as the character, whatever follows. -/
theorem decodeUtf8_utf8EncodeChar (c : Char) (bs : List UInt8) :
    decodeUtf8 (String.utf8EncodeChar c ++ bs) = held c ++ decodeUtf8 bs := by
  obtain ⟨v, code⟩ : ∃ v, c.val.toNat = v := ⟨_, rfl⟩
  have same : Char.ofNat v = c := code ▸ Char.ofNat_toNat c
  have valid : v < 0xD800 ∨ 0xDFFF < v ∧ v < 0x110000 := code ▸ c.valid
  rw [String.utf8EncodeChar, code]
  split
  · rename_i one
    have byte : (UInt8.ofNat v).toNat = v := UInt8.toNat_ofNat_of_lt' (show v < 256 by omega)
    have plain : held c = [c] := by
      apply if_neg
      have number : c.toNat = v := code
      simp only [isReserved, number, Bool.and_eq_true, decide_eq_true_eq]
      omega
    rw [List.singleton_append, decodeUtf8, byte, if_pos (by omega), same, plain, List.singleton_append]
  · split
    · rename_i two
      rw [Nat.mod_eq_of_lt (show v / 64 < 32 by omega), List.cons_append, List.singleton_append,
        decodeUtf8_lead (by omega) (by omega) (leadByte?_two (by omega) (by omega))
          (continuation_cons (by omega) (by omega) (by omega) _ _ _), ← same]
      congr 3
      omega
    · split
      · rename_i three
        obtain ⟨lo, hi, lead, bounds⟩ := leadByte?_three (show v / 4096 % 16 < 16 by omega)
        obtain ⟨above, below⟩ := bounds (v / 64 % 64) (by omega) (by omega) (by omega)
        have whole : continuation 2 (v / 4096 % 16) lo hi (UInt8.ofNat (v / 64 % 64 + 128) ::
            UInt8.ofNat (v % 64 + 128) :: bs) = (0, v, bs) := by
          rw [continuation_cons (by omega) above below, continuation_cons (by omega) (by omega) (by omega),
            continuation]
          congr 2
          omega
        rw [← same]
        exact decodeUtf8_lead (by omega) (by omega) lead whole
      · rename_i four
        obtain ⟨lo, hi, lead, bounds⟩ := leadByte?_four (show v / 262144 % 8 < 5 by omega)
        obtain ⟨above, below⟩ := bounds (v / 4096 % 64) (by omega) (by omega) (by omega)
        have whole : continuation 3 (v / 262144 % 8) lo hi (UInt8.ofNat (v / 4096 % 64 + 128) ::
            UInt8.ofNat (v / 64 % 64 + 128) :: UInt8.ofNat (v % 64 + 128) :: bs) = (0, v, bs) := by
          rw [continuation_cons (by omega) above below, continuation_cons (by omega) (by omega) (by omega),
            continuation_cons (by omega) (by omega) (by omega), continuation]
          congr 2
          omega
        rw [← same]
        exact decodeUtf8_lead (by omega) (by omega) lead whole

/-! ## The whole -/

theorem decode_ascii (h : ∀ c ∈ cs, isAscii c = true) : decode cs = decodeUtf8 (bytes cs) := by
  cases cs with
  | nil => rw [decode, bytes, decodeUtf8]
  | cons c rest =>
      rw [List.forall_mem_cons] at h
      have taken : rest.takeWhile isAscii = rest := List.takeWhile_eq_self_iff.mpr h.2
      have dropped : rest.dropWhile isAscii = [] := List.dropWhile_eq_nil_iff.mpr h.2
      rw [decode, if_pos h.1, taken, dropped, decode, List.append_nil]

/-- Decoding undoes encoding. -/
theorem decode_encode (h : Holds (!isSurrogate ·) cs) : decode (encode cs) = cs := by
  have ascii : ∀ c ∈ encode cs, isAscii c = true := by
    intro c mem
    cases isSafe_of_mem_encode mem with
    | inl safe => exact decide_eq_true (isSafe_plain safe).1
    | inr percent => rw [percent]; rfl
  rw [decode_ascii ascii]
  obtain ⟨ns, all, rfl⟩ := holds_iff.mp h
  rw [encode, codes_flatMap_ofCode ns fun n mem => (all n mem).1]
  clear h ascii
  induction ns with
  | nil => rw [List.flatMap_nil, bytes, decodeUtf8, List.flatMap_nil]
  | cons n ns ih =>
      rw [List.forall_mem_cons] at all
      obtain ⟨⟨bound, plain⟩, all⟩ := all
      have plain : isSurrogate n = false := by simpa using plain
      have code : (Char.ofNat n).toNat = n := by
        simp only [isSurrogate, Bool.and_eq_false_iff, decide_eq_false_iff_not] at plain
        exact toNat_ofNat (by unfold Nat.isValidChar; omega)
      have first := bytes_encodeCode (Char.ofNat n) (ns.flatMap encodeCode)
      rw [code] at first
      rw [List.flatMap_cons, first, decodeUtf8_utf8EncodeChar, ih all, List.flatMap_cons, ofCode, plain,
        if_neg Bool.false_ne_true]

end Splice.Text.Percent
