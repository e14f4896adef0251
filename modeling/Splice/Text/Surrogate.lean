/-! # Surrogates that stand alone

A text may hold surrogates that are no half of a pair, which no character is. The surrogate `n` is held
as the private character `0x100000 + n`. A private character of that block that is meant itself has a
mark before it, so that `codes` undoes `ofCode`.
-/

namespace Splice.Text

def isSurrogate (code : Nat) : Bool := decide (0xD800 ≤ code) && decide (code < 0xE000)

/-- The distance from a surrogate to the character that it is held as. -/
def surrogateShift : Nat := 0x100000

/-- The mark before a private character that is meant itself. -/
def privateMark : Char := Char.ofNat 0x10E000

/-- Characters of the block that surrogates are held in, and the mark. -/
def isReserved (c : Char) : Bool :=
  decide (0x10D800 ≤ c.toNat) && decide (c.toNat ≤ 0x10E000)

/-- A character as a text holds it. -/
def held (c : Char) : List Char := if isReserved c then [privateMark, c] else [c]

/-- A code point as a text holds it. -/
def ofCode (code : Nat) : List Char :=
  if isSurrogate code then [Char.ofNat (surrogateShift + code)] else held (Char.ofNat code)

/-- The code points that the rest of a text stands for, after a mark or not. -/
def codesFrom (marked : Bool) : List Char → List Nat
  | [] => if marked then [privateMark.toNat] else []
  | c :: rest =>
    if marked then c.toNat :: codesFrom false rest
    else if c = privateMark then codesFrom true rest
    else (if isReserved c then c.toNat - surrogateShift else c.toNat) :: codesFrom false rest

def codes (cs : List Char) : List Nat := codesFrom false cs

/-- Whether code points come before others or are the same; a beginning comes before what it begins. -/
def areOrdered : List Nat → List Nat → Bool
  | [], _ => true
  | _ :: _, [] => false
  | m :: ms, n :: ns => decide (m < n) || (m == n && areOrdered ms ns)

/-- Whether a text comes before another or is the same. -/
def isOrdered (a b : String) : Bool := areOrdered (codes a.toList) (codes b.toList)

theorem codes_held (c : Char) (rest : List Char) :
    codes (held c ++ rest) = c.toNat :: codes rest := by
  unfold held
  split
  case isTrue h => simp [codes, codesFrom]
  case isFalse h =>
    have hc : c ≠ privateMark := by
      intro hc
      subst hc
      exact h (by decide)
    simp [codes, codesFrom, hc, h]

theorem toNat_ofNat {n : Nat} (h : n.isValidChar) : (Char.ofNat n).toNat = n := by
  rw [Char.ofNat, dif_pos h]
  rfl

theorem toNat_shifted {code : Nat} (h : isSurrogate code = true) :
    (Char.ofNat (surrogateShift + code)).toNat = 0x100000 + code := by
  simp only [isSurrogate, Bool.and_eq_true, decide_eq_true_eq] at h
  unfold surrogateShift
  exact toNat_ofNat (by unfold Nat.isValidChar; omega)

theorem codes_ofCode (code : Nat) (h : code < 0x110000) (rest : List Char) :
    codes (ofCode code ++ rest) = code :: codes rest := by
  unfold ofCode
  split
  case isTrue hs =>
    have hn := toNat_shifted hs
    simp only [isSurrogate, Bool.and_eq_true, decide_eq_true_eq] at hs
    have hr : isReserved (Char.ofNat (surrogateShift + code)) = true := by
      simp only [isReserved, hn, Bool.and_eq_true, decide_eq_true_eq]
      omega
    have hm : Char.ofNat (surrogateShift + code) ≠ privateMark := by
      intro he
      have he := congrArg Char.toNat he
      rw [hn, show privateMark.toNat = 0x10E000 by decide] at he
      omega
    have he : 0x100000 + code - surrogateShift = code := Nat.add_sub_cancel_left ..
    simp only [codes, List.singleton_append, codesFrom, hm, hr, hn, he, if_true, if_false,
      Bool.false_eq_true]
  case isFalse hs =>
    have hn : (Char.ofNat code).toNat = code := by
      simp only [isSurrogate, Bool.and_eq_true, decide_eq_true_eq] at hs
      exact toNat_ofNat (by unfold Nat.isValidChar; omega)
    rw [codes_held, hn]

/-- Each text of code points can be held, and is read back as it was. -/
theorem codes_flatMap_ofCode (ns : List Nat) (h : ∀ n ∈ ns, n < 0x110000) :
    codes (ns.flatMap ofCode) = ns := by
  induction ns with
  | nil => rfl
  | cons n ns ih =>
    rw [List.flatMap_cons, codes_ofCode n (h n (by simp)),
      ih fun m hm => h m (by simp [hm])]

/-- A code point as an escape of four hexadecimal digits. -/
def surrogateLiteral (code : Nat) : String :=
  String.ofList ('\\' :: 'u' :: Nat.toDigits 16 code)

/-- Whether a surrogate stands for a byte of a file name that is no character. -/
def isFileByte (code : Nat) : Bool := decide (0xDC80 ≤ code) && decide (code < 0xDD00)

/-- Whether a file may have a text as its name: surrogates stand for bytes. -/
def isFileName (s : String) : Bool :=
  (codes s.toList).all fun code => !isSurrogate code || isFileByte code

/-- Why a text has no bytes: the first run of surrogates in it. -/
def unencodable? (s : String) : Option String :=
  let cs := codes s.toList
  let start := (cs.takeWhile (!isSurrogate ·)).length
  let run := (cs.drop start).takeWhile isSurrogate
  match run with
  | [] => none
  | [code] => some ("'utf-8' codec can't encode character '" ++ surrogateLiteral code ++
      "' in position " ++ toString start ++ ": surrogates not allowed")
  | _ => some ("'utf-8' codec can't encode characters in position " ++ toString start ++ "-" ++
      toString (start + run.length - 1) ++ ": surrogates not allowed")

end Splice.Text
