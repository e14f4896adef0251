import Splice.Json.Writer
import Splice.Proofs.Outcome
import Splice.Proofs.Yaml.Ascii

/-! # Quoted texts read back

A text that JSON quotes is a quoted scalar, and the scalar is the text again. What a pair of surrogates
stands for is the exception: a scalar keeps them apart, so the characters are those of the basic plane.
-/

namespace Splice

namespace Text

/-- A text of code points of the basic plane, surrogates that stand alone among them. -/
def IsBasic (s : String) : Prop :=
  ∃ codes : List Nat, (∀ code ∈ codes, code < 0x10000) ∧ s.toList = codes.flatMap ofCode

/-- Characters below the surrogates are of the basic plane. -/
theorem isBasic_plain {s : String} (h : ∀ c ∈ s.toList, c.toNat < 0xD800) : IsBasic s := by
  refine ⟨s.toList.map Char.toNat, ?_, ?_⟩
  · intro code mem
    obtain ⟨c, hc, rfl⟩ := List.mem_map.mp mem
    have small := h c hc
    omega
  · have each : ∀ c ∈ s.toList, ofCode c.toNat = [c] := by
      intro c hc
      have small := h c hc
      rw [ofCode, if_neg (by simp [isSurrogate]; omega), Char.ofNat_toNat, held,
        if_neg (by simp [isReserved]; omega)]
    rw [List.flatMap_map, List.flatMap_congr each]
    simp

theorem toNat_ofNat_basic {code : Nat} (h : code < 0x10000) (single : ¬ isSurrogate code = true) :
    (Char.ofNat code).toNat = code := by
  simp only [isSurrogate, Bool.and_eq_true, decide_eq_true_eq] at single
  exact toNat_ofNat (by unfold Nat.isValidChar; omega)

/-! ## Hexadecimal digits -/

theorem digits_hexDigit {d : Nat} (h : d < 16) : Yaml.hexValue? d.digitChar = some d := by
  have each : ∀ d < 16, Yaml.hexValue? (Nat.digitChar d) = some d := by decide
  exact each d h

theorem isAscii_hexDigit {d : Nat} (h : d < 16) : Yaml.IsAscii d.digitChar := by
  have each : ∀ d < 16, Yaml.IsAscii (Nat.digitChar d) := by decide
  exact each d h

theorem exists_hexDigits (n : Nat) : ∃ ds, (Nat.toDigits 16 n).mapM Yaml.hexValue? = some ds ∧
    ds.foldl (fun n d => 16 * n + d) 0 = n := by
  induction n using Nat.strongRecOn with
  | ind n ih =>
      rw [Nat.toDigits_eq_if (by decide)]
      split
      · refine ⟨[n], ?_, ?_⟩
        · simp [digits_hexDigit ‹n < 16›]
        · simp
      · obtain ⟨ds, read, value⟩ := ih (n / 16) (by omega)
        refine ⟨ds ++ [n % 16], ?_, ?_⟩
        · simp [List.mapM_append, read, digits_hexDigit (Nat.mod_lt n (by decide))]
        · rw [List.foldl_append, value]
          simp only [List.foldl_cons, List.foldl_nil]
          omega

theorem areAscii_toDigits (n : Nat) : Yaml.AreAscii (Nat.toDigits 16 n) := by
  induction n using Nat.strongRecOn with
  | ind n ih =>
      rw [Nat.toDigits_eq_if (by decide)]
      split
      · exact Yaml.areAscii_cons.mpr ⟨isAscii_hexDigit ‹n < 16›, List.forall_mem_nil _⟩
      · refine Yaml.areAscii_append.mpr ⟨ih (n / 16) (by omega), ?_⟩
        exact Yaml.areAscii_cons.mpr ⟨isAscii_hexDigit (Nat.mod_lt n (by decide)), List.forall_mem_nil _⟩

theorem areAscii_hex (width n : Nat) : Yaml.AreAscii (hex width n) :=
  Yaml.areAscii_append.mpr ⟨Yaml.areAscii_replicate (by decide), areAscii_toDigits n⟩

variable {n : Nat}

theorem length_hex (h : n < 0x10000) : (hex 4 n).length = 4 := by
  have short : (Nat.toDigits 16 n).length ≤ 4 :=
    (Nat.length_toDigits_le_iff (by decide) (by decide)).mpr h
  rw [hex, List.length_append, List.length_replicate]
  omega

theorem hexNumber?_hex (h : n < 0x10000) (rest : List Char) :
    Yaml.hexNumber? 4 (hex 4 n ++ rest) = some n := by
  have zeros (k : Nat) : (List.replicate k '0').mapM Yaml.hexValue? = some (List.replicate k 0) := by
    induction k with
    | zero => rfl
    | succ k ih => simp [List.replicate_succ, ih, show Yaml.hexValue? '0' = some 0 from rfl]
  have start (k : Nat) : (List.replicate k 0).foldl (fun n d => 16 * n + d) 0 = 0 := by
    induction k with
    | zero => rfl
    | succ k ih => simpa [List.replicate_succ] using ih
  obtain ⟨ds, read, value⟩ := exists_hexDigits n
  have digits : (hex 4 n ++ rest).take 4 = hex 4 n := List.take_left' (length_hex h)
  rw [Yaml.hexNumber?, digits, if_pos (length_hex h), hex, List.mapM_append]
  simp [zeros, read, start, value]

end Text

namespace Yaml

open Json (escapeUnit escapeChar escapeCode)

/-! ## One escaped character -/

theorem areAscii_escapeUnit (n : Nat) : AreAscii (escapeUnit n) :=
  areAscii_cons.mpr ⟨by decide, areAscii_cons.mpr ⟨by decide, Text.areAscii_hex 4 n⟩⟩

/-- The ways in which JSON writes a character. -/
inductive Written (c : Char) : List Char → Prop where
  | letter {letter : Char} : IsAscii letter → escapedChar? letter = some c →
      Text.isReserved c = false → Written c ['\\', letter]
  | plain : IsAscii c → c ≠ '"' → c ≠ '\\' → Written c [c]
  | unit : c.toNat < 0x10000 → Written c (escapeUnit c.toNat)
  | pair (high low : Nat) : 0x10000 ≤ c.toNat → Written c (escapeUnit high ++ escapeUnit low)

theorem escapeChar_written (c : Char) : Written c (escapeChar c) := by
  have named {e : Char} (h : c.toNat = e.toNat) : c = e := Char.toNat_inj.mp h
  unfold escapeChar
  dsimp only
  split
  · subst c
    exact .letter (by decide) rfl rfl
  split
  · subst c
    exact .letter (by decide) rfl rfl
  split
  · subst c
    exact .letter (by decide) rfl rfl
  split
  · subst c
    exact .letter (by decide) rfl rfl
  split
  · subst c
    exact .letter (by decide) rfl rfl
  split
  · obtain rfl : c = Char.ofNat 8 := named ‹_›
    exact .letter (by decide) rfl rfl
  split
  · obtain rfl : c = Char.ofNat 12 := named ‹_›
    exact .letter (by decide) rfl rfl
  split
  · rename_i plain
    exact .plain plain ‹_› ‹_›
  split
  · exact .unit ‹_›
  · exact .pair _ _ (by omega)

theorem areAscii_escapeCode (code : Nat) : AreAscii (escapeCode code) := by
  unfold escapeCode
  split
  · exact areAscii_escapeUnit code
  · have written := escapeChar_written (Char.ofNat code)
    generalize escapeChar (Char.ofNat code) = piece at written ⊢
    cases written with
    | letter ascii =>
        exact areAscii_cons.mpr ⟨by decide, areAscii_cons.mpr ⟨ascii, List.forall_mem_nil _⟩⟩
    | plain ascii => exact areAscii_cons.mpr ⟨ascii, List.forall_mem_nil _⟩
    | unit => exact areAscii_escapeUnit _
    | pair => exact areAscii_append.mpr ⟨areAscii_escapeUnit _, areAscii_escapeUnit _⟩

/-- A piece of a quoted scalar is read as some text, whatever follows it. -/
def Reads (piece text : List Char) : Prop :=
  ∀ (fuel : Nat) (c : Cursor) (rest : List Char), c.rest = piece ++ rest →
    quotedFrom true (fuel + 1) c =
      (quotedFrom true fuel (c.past piece.length rest)).map fun (more, last) => (text ++ more, last)

theorem reads_escape {letter e : Char} (ascii : IsAscii letter) (known : escapedChar? letter = some e) :
    Reads ['\\', letter] [e] := by
  intro fuel c rest here
  have first : c.advance = c.past 1 (letter :: rest) := Cursor.advance_ascii here (by decide)
  have second : (c.past 1 (letter :: rest)).advance = c.past 2 rest := by
    rw [Cursor.advance_ascii (Cursor.past_rest c 1) ascii, Cursor.past_past]
  rw [quotedFrom]
  simp only [Cursor.peek_eq here, first, Cursor.peek_eq (Cursor.past_rest c 1), known, second]
  rfl

theorem reads_escapeUnit {n : Nat} (h : n < 0x10000) : Reads (escapeUnit n) (Text.ofCode n) := by
  intro fuel c rest here
  have ascii := Text.areAscii_hex 4 n
  have first : c.advance = c.past 1 ('u' :: (Text.hex 4 n ++ rest)) :=
    Cursor.advance_ascii here (by decide)
  have second : (c.past 1 ('u' :: (Text.hex 4 n ++ rest))).advance =
    c.past 2 (Text.hex 4 n ++ rest) := by
    rw [Cursor.advance_ascii (Cursor.past_rest c 1) (by decide), Cursor.past_past]
  have digits : (c.past 2 (Text.hex 4 n ++ rest)).skip 4 = c.past 6 rest := by
    have skipped : (c.past 2 (Text.hex 4 n ++ rest)).skip (Text.hex 4 n).length = _ :=
      Cursor.skip_ascii (c.past_rest 2) ascii
    rwa [Text.length_hex h, Cursor.past_past] at skipped
  have number : numericEscape 4 (c.past 2 (Text.hex 4 n ++ rest)) =
    .ok (Text.ofCode n, c.past 6 rest) := by
    rw [numericEscape, Cursor.past_rest, Text.hexNumber?_hex h]
    simp only [digits]
    rw [if_neg (by omega), if_neg (by omega)]
  have length : (escapeUnit n).length = 6 := by
    simp [escapeUnit, Text.length_hex h]
  have named : escapedChar? 'u' = none := rfl
  have width : escapeWidth? 'u' = some 4 := rfl
  rw [quotedFrom]
  simp only [Cursor.peek_eq here, first, Cursor.peek_eq (Cursor.past_rest c 1), named, width, second,
    number, length, Outcome.ok_bind]
  rfl

theorem reads_plain {ch : Char} (ascii : IsAscii ch) (quote : ch ≠ '"') (slash : ch ≠ '\\')
    (space : ch ≠ ' ') : Reads [ch] [ch] := by
  intro fuel c rest here
  have gap : isGap (some ch) = false := by
    rw [ascii.isGap_eq]
    exact beq_eq_false_iff_ne.mpr space
  rw [quotedFrom]
  simp only [Cursor.peek_eq here, Bool.not_true, Bool.false_eq_true, and_false, if_false, quote, slash,
    false_and, gap, Cursor.advance_ascii here ascii]
  rfl

/-- A character of the basic plane that is no space is read back from its escaped form. -/
theorem reads_escapeCode {code : Nat} (h : code < 0x10000) (space : code ≠ 0x20) :
    Reads (escapeCode code) (Text.ofCode code) := by
  unfold escapeCode
  split
  · exact reads_escapeUnit h
  · rename_i single
    have number : (Char.ofNat code).toNat = code := Text.toNat_ofNat_basic h single
    have held (open' : Text.isReserved (Char.ofNat code) = false) :
        Text.ofCode code = [Char.ofNat code] := by
      rw [Text.ofCode, if_neg single, Text.held, open', if_neg Bool.false_ne_true]
    have written := escapeChar_written (Char.ofNat code)
    generalize escapeChar (Char.ofNat code) = piece at written ⊢
    cases written with
    | letter ascii known open' =>
        rw [held open']
        exact reads_escape ascii known
    | plain ascii quote slash =>
        have open' : Text.isReserved (Char.ofNat code) = false := by
          have small := ascii.2
          simp only [Text.isReserved, Bool.and_eq_false_iff, decide_eq_false_iff_not]
          omega
        have other : Char.ofNat code ≠ ' ' := by
          intro same
          exact space (by rw [← number, same]; rfl)
        rw [held open']
        exact reads_plain ascii quote slash other
    | unit =>
        rw [number]
        exact reads_escapeUnit h
    | pair _ _ large => omega

/-! ## A whole text -/

/-- A run of spaces is read at once, so what follows it must be no space. -/
theorem reads_spaces (count : Nat) {fuel : Nat} {c : Cursor} {ch : Char} {rest : List Char}
    (ascii : IsAscii ch) (other : ch ≠ ' ')
    (here : c.rest = List.replicate (count + 1) ' ' ++ ch :: rest) :
    quotedFrom true (fuel + 1) c = (quotedFrom true fuel (c.past (count + 1) (ch :: rest))).map
      fun (more, last) => (List.replicate (count + 1) ' ' ++ more, last) := by
  have first : c.peek = some ' ' := by
    rw [Cursor.peek, here, List.replicate_succ]
    rfl
  have stop : (ch == ' ' || ch == '\t') = false := by
    rw [beq_eq_false_iff_ne.mpr other, beq_eq_false_iff_ne.mpr (ascii.ne (by decide))]
    rfl
  have run : c.rest.takeWhile (fun ch => ch == ' ' || ch == '\t') = List.replicate (count + 1) ' ' := by
    rw [here, List.takeWhile_append_of_pos, List.takeWhile_cons, stop]
    · simp
    · intro x mem
      rw [List.eq_of_mem_replicate mem]
      rfl
  have next : c.skip (List.replicate (count + 1) ' ').length = c.past (count + 1) (ch :: rest) := by
    rw [Cursor.skip_ascii here (areAscii_replicate (by decide)), List.length_replicate]
  rw [quotedFrom]
  simp only [first, run, next, Cursor.peek_eq (c.past_rest (count + 1)),
    Cursor.lineBreak?_ascii (c.past_rest (count + 1)) ascii]
  rfl

theorem exists_run (code : Nat) (codes : List Nat) :
    ∃ count more, codes = List.replicate count code ++ more ∧ more.head? ≠ some code := by
  induction codes with
  | nil => exact ⟨0, [], rfl, by simp⟩
  | cons first codes ih =>
      obtain ⟨count, more, rfl, ended⟩ := ih
      by_cases same : first = code
      · exact ⟨count + 1, more, by rw [same, List.replicate_succ, List.cons_append], ended⟩
      · exact ⟨0, first :: (List.replicate count code ++ more), rfl, by simpa using same⟩

theorem head_escapeCode {code : Nat} (h : code < 0x10000) (space : code ≠ 0x20) :
    ∃ ch cs, escapeCode code = ch :: cs ∧ IsAscii ch ∧ ch ≠ ' ' := by
  unfold escapeCode
  split
  · exact ⟨'\\', _, rfl, by decide, by decide⟩
  · rename_i single
    have number : (Char.ofNat code).toNat = code := Text.toNat_ofNat_basic h single
    have written := escapeChar_written (Char.ofNat code)
    generalize escapeChar (Char.ofNat code) = piece at written ⊢
    cases written with
    | plain ascii =>
        refine ⟨_, [], rfl, ascii, ?_⟩
        intro same
        exact space (by rw [← number, same]; rfl)
    | letter | unit | pair => exact ⟨'\\', _, rfl, by decide, by decide⟩

/-- What follows the spaces of a text in its quoted form. -/
theorem head_codes {codes : List Nat} (basic : ∀ code ∈ codes, code < 0x10000)
    (ended : codes.head? ≠ some 0x20) (rest : List Char) :
    ∃ ch cs, codes.flatMap escapeCode ++ '"' :: rest = ch :: cs ∧ IsAscii ch ∧ ch ≠ ' ' := by
  cases codes with
  | nil => exact ⟨'"', rest, rfl, by decide, by decide⟩
  | cons code codes =>
      obtain ⟨ch, cs, found, ascii, other⟩ :=
        head_escapeCode (basic code List.mem_cons_self) (by simpa using ended)
      exact ⟨ch, _, by rw [List.flatMap_cons, found]; rfl, ascii, other⟩

theorem flatMap_spaces (f : Nat → List Char) (space : f 0x20 = [' ']) (count : Nat) :
    (List.replicate count 0x20).flatMap f = List.replicate count ' ' := by
  induction count with
  | zero => rfl
  | succ count ih => rw [List.replicate_succ, List.flatMap_cons, space, ih, List.replicate_succ]; rfl

theorem quotedFrom_codes {codes : List Nat} (basic : ∀ code ∈ codes, code < 0x10000) {fuel : Nat}
    (enough : codes.length < fuel) {c : Cursor} {rest : List Char}
    (here : c.rest = codes.flatMap escapeCode ++ '"' :: rest) : quotedFrom true fuel c =
      .ok (codes.flatMap Text.ofCode, c.past ((codes.flatMap escapeCode).length + 1) rest) := by
  induction size : codes.length using Nat.strongRecOn generalizing codes fuel c with
  | ind size ih =>
      subst size
      obtain ⟨fuel, rfl⟩ : ∃ f, fuel = f + 1 := ⟨fuel - 1, by omega⟩
      obtain ⟨count, more, rfl, ended⟩ := exists_run 0x20 codes
      have left : ∀ code ∈ more, code < 0x10000 :=
        fun code mem => basic code (List.mem_append_right _ mem)
      rw [List.length_append, List.length_replicate] at enough ih
      rw [List.flatMap_append, flatMap_spaces _ (by decide), List.append_assoc] at here
      rw [List.flatMap_append, List.flatMap_append, flatMap_spaces _ (by decide),
        flatMap_spaces _ (by decide), List.length_append, List.length_replicate]
      cases count with
      | succ count =>
          -- The spaces are read at once, and fewer characters are left.
          obtain ⟨ch, cs, next, ascii, other⟩ := head_codes left ended rest
          rw [next] at here
          rw [reads_spaces count ascii other here, ih more.length (by omega) left (by omega)
            ((c.past_rest _).trans next.symm) rfl, Cursor.past_past, Nat.add_assoc (count + 1)]
          rfl
      | zero =>
          cases more with
          | nil =>
              have closed : c.advance = c.past 1 rest := Cursor.advance_ascii here (by decide)
              rw [quotedFrom]
              simp only [Cursor.peek_eq here, closed]
              rfl
          | cons code codes =>
              have first := reads_escapeCode (left code List.mem_cons_self) (by simpa using ended)
              rw [List.replicate_zero, List.nil_append, List.flatMap_cons, List.append_assoc] at here
              rw [first fuel c _ here,
                ih codes.length (by simp) (fun x mem => left x (List.mem_cons_of_mem _ mem))
                (by simp at enough; omega) (c.past_rest _) rfl, Cursor.past_past]
              simp [Except.map, Nat.add_assoc]

theorem length_le_escaped (codes : List Nat) : codes.length ≤ (codes.flatMap escapeCode).length := by
  induction codes with
  | nil => exact Nat.le_refl 0
  | cons code codes ih =>
      have first : 0 < (escapeCode code).length := by
        unfold escapeCode
        split
        · exact Nat.succ_pos _
        · have written := escapeChar_written (Char.ofNat code)
          generalize escapeChar (Char.ofNat code) = piece at written ⊢
          cases written <;> exact Nat.succ_pos _
      rw [List.flatMap_cons, List.length_append, List.length_cons]
      omega

/-- A text that JSON quotes is read back. -/
theorem quotedScalar_quote {s : String} (basic : Text.IsBasic s) {c : Cursor} {rest : List Char}
    (here : c.rest = (Json.quote s).toList ++ rest) :
    quotedScalar true c = .ok (s.toList, c.past (Json.quote s).length rest) := by
  obtain ⟨codes, small, held⟩ := basic
  have quoted : (Json.quote s).toList = '"' :: (codes.flatMap escapeCode ++ ['"']) := by
    rw [Json.quote, String.toList_ofList, held,
      Text.codes_flatMap_ofCode codes fun code mem => (small code mem).trans (by decide)]
    rfl
  have length : (Json.quote s).length = (codes.flatMap escapeCode).length + 2 := by
    rw [← String.length_toList, quoted]
    simp
  rw [quoted] at here
  have opened : c.advance = c.past 1 (codes.flatMap escapeCode ++ '"' :: rest) :=
    Cursor.advance_ascii (by simpa using here) (by decide)
  have enough : codes.length < c.rest.length + 1 := by
    have pieces := length_le_escaped codes
    rw [here]
    simp only [List.length_append, List.length_cons]
    omega
  rw [quotedScalar, opened, quotedFrom_codes small enough (c.past_rest 1), Cursor.past_past, length,
    held,
    Nat.add_comm 1]

end Yaml
end Splice
