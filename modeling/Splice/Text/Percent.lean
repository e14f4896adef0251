import Splice.Text.Surrogate

/-! # Percent encoding

Bytes outside a safe set are written as a percent sign and two hexadecimal digits. Decoding takes the
bytes as UTF-8, with the replacement character for what is not; `exactly?` reads nothing else than
UTF-8.
-/

namespace Splice.Text.Percent

def hexDigit (n : Nat) : Char :=
  if n < 10 then Char.ofNat ('0'.toNat + n) else Char.ofNat ('A'.toNat + (n - 10))

def hexValue? (c : Char) : Option Nat :=
  let n := c.toNat
  if '0'.toNat ≤ n ∧ n ≤ '9'.toNat then some (n - '0'.toNat)
  else if 'a'.toNat ≤ n ∧ n ≤ 'f'.toNat then some (n - 'a'.toNat + 10)
  else if 'A'.toNat ≤ n ∧ n ≤ 'F'.toNat then some (n - 'A'.toNat + 10)
  else none

/-- Characters that a file address keeps. -/
def isSafe (c : Char) : Bool :=
  c.isAlphanum || c == '_' || c == '.' || c == '-' || c == '~' || c == '/'

/-- One byte as a percent sign and two digits. -/
def encodeByte (b : UInt8) : List Char :=
  ['%', hexDigit (b.toNat / 16), hexDigit (b.toNat % 16)]

/-- The bytes of a code point. A surrogate that stands for a byte is that byte. -/
def codeBytes (code : Nat) : List UInt8 :=
  if Text.isSurrogate code then [UInt8.ofNat (code % 256)]
  else String.utf8EncodeChar (Char.ofNat code)

/-- One code point: itself if it is a safe character, else its bytes. -/
def encodeCode (code : Nat) : List Char :=
  if isSafe (Char.ofNat code) then [Char.ofNat code] else (codeBytes code).flatMap encodeByte

def encode (cs : List Char) : List Char := (Text.codes cs).flatMap encodeCode

/-- The bytes of a text of ASCII, with each percent sign that two hexadecimal digits follow taken
together with them as one byte. -/
def bytes : List Char → List UInt8
  | '%' :: a :: b :: rest =>
    match hexValue? a, hexValue? b with
    | some x, some y => UInt8.ofNat (16 * x + y) :: bytes rest
    | _, _ => UInt8.ofNat 37 :: bytes (a :: b :: rest)
  | c :: rest => UInt8.ofNat c.toNat :: bytes rest
  | [] => []

/-- How many bytes follow a first byte, the bits that it carries, and the bounds of the second byte. -/
def leadByte? (b : Nat) : Option (Nat × Nat × Nat × Nat) :=
  if 0xC2 ≤ b ∧ b ≤ 0xDF then some (1, b - 0xC0, 0x80, 0xBF)
  else if b = 0xE0 then some (2, 0, 0xA0, 0xBF)
  else if b = 0xED then some (2, 0xD, 0x80, 0x9F)
  else if 0xE1 ≤ b ∧ b ≤ 0xEF then some (2, b - 0xE0, 0x80, 0xBF)
  else if b = 0xF0 then some (3, 0, 0x90, 0xBF)
  else if 0xF1 ≤ b ∧ b ≤ 0xF3 then some (3, b - 0xF0, 0x80, 0xBF)
  else if b = 0xF4 then some (3, 4, 0x80, 0x8F)
  else none

/-- Take up to `count` continuation bytes, the first within the given bounds. The number of bytes
still missing and the bits so far come back with the rest. -/
def continuation : Nat → Nat → Nat → Nat → List UInt8 → Nat × Nat × List UInt8
  | 0, bits, _, _, bs => (0, bits, bs)
  | count + 1, bits, lo, hi, b :: bs =>
    if lo ≤ b.toNat ∧ b.toNat ≤ hi then
      continuation count (64 * bits + (b.toNat - 0x80)) 0x80 0xBF bs
    else (count + 1, bits, b :: bs)
  | count + 1, bits, _, _, [] => (count + 1, bits, [])

theorem continuation_length_le (count bits lo hi : Nat) (bs : List UInt8) :
    (continuation count bits lo hi bs).2.2.length ≤ bs.length := by
  induction bs generalizing count bits lo hi with
  | nil => cases count <;> simp [continuation]
  | cons b bs ih =>
    cases count with
    | zero => simp [continuation]
    | succ count =>
      simp only [continuation]
      split
      · exact Nat.le_trans (ih ..) (by simp)
      · simp

/-- Read bytes as UTF-8; each maximal ill-formed beginning of a character becomes one replacement
character. -/
def decodeUtf8 : List UInt8 → List Char
  | [] => []
  | b :: bs =>
    if b.toNat < 0x80 then Char.ofNat b.toNat :: decodeUtf8 bs
    else
      match leadByte? b.toNat with
      | none => '\uFFFD' :: decodeUtf8 bs
      | some (count, bits, lo, hi) =>
        (if (continuation count bits lo hi bs).1 = 0
          then Text.held (Char.ofNat (continuation count bits lo hi bs).2.1) else ['\uFFFD']) ++
          decodeUtf8 (continuation count bits lo hi bs).2.2
termination_by bs => bs.length
decreasing_by
  all_goals simp_wf
  have := continuation_length_le count bits lo hi bs
  omega

def isAscii (c : Char) : Bool := decide (c.toNat < 0x80)

/-- Decode a percent-encoded text. What is not ASCII stands for itself. -/
def decode : List Char → List Char
  | [] => []
  | c :: rest =>
    if isAscii c then
      decodeUtf8 (bytes (c :: rest.takeWhile isAscii)) ++ decode (rest.dropWhile isAscii)
    else c :: decode rest
termination_by cs => cs.length
decreasing_by
  · have := (List.dropWhile_sublist isAscii (l := rest)).length_le
    simp only [List.length_cons]
    omega
  · simp

/-- The bytes of a text of ASCII in which each percent sign has two hexadecimal digits after it. -/
def exactBytes? : List Char → Option (List UInt8)
  | [] => some []
  | '%' :: a :: b :: rest => do
    let x ← hexValue? a
    let y ← hexValue? b
    (exactBytes? rest).map (UInt8.ofNat (16 * x + y) :: ·)
  | c :: rest => if c = '%' then none else (exactBytes? rest).map (UInt8.ofNat c.toNat :: ·)

/-- Decode a percent-encoded text of ASCII whose bytes are well-formed UTF-8. -/
def exactly? (cs : List Char) : Option (List Char) := do
  let bs ← exactBytes? cs
  let s ← String.fromUTF8? ⟨bs.toArray⟩
  return s.toList.flatMap Text.held

end Splice.Text.Percent
