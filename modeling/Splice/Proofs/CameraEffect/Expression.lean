import Splice.Proofs.Binary64.Places
import Splice.Text.Blank

/-! # Expressions of the engine

The engine takes the options of a zoom as expressions in the number of the frame and the size of the
picture. An expression is read from its text and has an exact value for given names: products bind more
strongly than sums, and both are read from the left.
-/

namespace Splice

/-- What an expression is written with. -/
inductive Lexeme where
  | number (q : ℚ)
  | name (s : String)
  | sign (c : Char)
  deriving DecidableEq

namespace Lexeme

/-- Letters, digits and points that stand together are one word. -/
def isWordChar (c : Char) : Bool := c.isAlphanum || c == '.'

/-- Put a character in front of words: it goes on with the first one if both are made of word characters. -/
def place (c : Char) : List (List Char) → List (List Char)
  | (d :: run) :: more =>
    if isWordChar c && isWordChar d then (c :: d :: run) :: more else [c] :: (d :: run) :: more
  | more => [c] :: more

/-- The words of a text; any other character is by itself. -/
def words (cs : List Char) : List (List Char) := cs.foldr place []

/-- The number that digits denote, with a point among them or without one. -/
def decimal? (cs : List Char) : Option ℚ :=
  let whole := cs.takeWhile Char.isDigit
  match cs.dropWhile Char.isDigit with
  | [] => some (Nat.ofDigitChars 10 whole 0)
  | point :: fraction =>
    if point = '.' ∧ fraction.all Char.isDigit then
      some (Nat.ofDigitChars 10 (whole ++ fraction) 0 / 10 ^ fraction.length)
    else none

def ofWord : List Char → Option Lexeme
  | [] => none
  | c :: rest =>
    if c.isDigit then (decimal? (c :: rest)).map .number
    else if isWordChar c then some (.name (String.ofList (c :: rest)))
    else some (.sign c)

def ofChars? (cs : List Char) : Option (List Lexeme) := (words cs).mapM ofWord

end Lexeme

/-- An expression: numbers, names, the four operations, the lesser of two, a comparison and a choice. -/
inductive Expression where
  | number (q : ℚ)
  | name (s : String)
  | sum (a b : Expression)
  | difference (a b : Expression)
  | product (a b : Expression)
  | quotient (a b : Expression)
  | least (a b : Expression)
  | atMost (a b : Expression)
  | choice (condition a b : Expression)

namespace Expression

/-- The value of an expression, where the names have values and nothing is divided by zero. -/
def eval (value : String → Option ℚ) : Expression → Option ℚ
  | number q => some q
  | name s => value s
  | sum a b => do return (← a.eval value) + (← b.eval value)
  | difference a b => do return (← a.eval value) - (← b.eval value)
  | product a b => do return (← a.eval value) * (← b.eval value)
  | quotient a b => do
    let x ← a.eval value
    let y ← b.eval value
    if y = 0 then none else some (x / y)
  | least a b => do return min (← a.eval value) (← b.eval value)
  | atMost a b => do return if (← a.eval value) ≤ (← b.eval value) then 1 else 0
  | choice condition a b => do
    if (← condition.eval value) = 0 then b.eval value else a.eval value

def call? : String → List Expression → Option Expression
  | "min", [a, b] => some (.least a b)
  | "lte", [a, b] => some (.atMost a b)
  | "if", [condition, a, b] => some (.choice condition a b)
  | _, _ => none

mutual

/-- A sum, read from the left. -/
def readSum : Nat → List Lexeme → Option (Expression × List Lexeme)
  | 0, _ => none
  | fuel + 1, ts => do
    let (a, rest) ← readProduct fuel ts
    readTerms fuel a rest

def readTerms : Nat → Expression → List Lexeme → Option (Expression × List Lexeme)
  | 0, _, _ => none
  | fuel + 1, a, .sign '+' :: ts => do
    let (b, rest) ← readProduct fuel ts
    readTerms fuel (.sum a b) rest
  | fuel + 1, a, .sign '-' :: ts => do
    let (b, rest) ← readProduct fuel ts
    readTerms fuel (.difference a b) rest
  | _ + 1, a, ts => some (a, ts)

def readProduct : Nat → List Lexeme → Option (Expression × List Lexeme)
  | 0, _ => none
  | fuel + 1, ts => do
    let (a, rest) ← readAtom fuel ts
    readFactors fuel a rest

def readFactors : Nat → Expression → List Lexeme → Option (Expression × List Lexeme)
  | 0, _, _ => none
  | fuel + 1, a, .sign '*' :: ts => do
    let (b, rest) ← readAtom fuel ts
    readFactors fuel (.product a b) rest
  | fuel + 1, a, .sign '/' :: ts => do
    let (b, rest) ← readAtom fuel ts
    readFactors fuel (.quotient a b) rest
  | _ + 1, a, ts => some (a, ts)

/-- A number, a name, a call, or an expression in brackets. -/
def readAtom : Nat → List Lexeme → Option (Expression × List Lexeme)
  | 0, _ => none
  | _ + 1, .number q :: ts => some (.number q, ts)
  | fuel + 1, .name f :: .sign '(' :: ts => do
    let (arguments, rest) ← readArguments fuel ts
    return (← call? f arguments, rest)
  | _ + 1, .name s :: ts => some (.name s, ts)
  | fuel + 1, .sign '(' :: ts => do
    match ← readSum fuel ts with
    | (a, .sign ')' :: rest) => return (a, rest)
    | _ => none
  | _ + 1, _ => none

/-- The arguments of a call, up to its closing bracket. -/
def readArguments : Nat → List Lexeme → Option (List Expression × List Lexeme)
  | 0, _ => none
  | fuel + 1, ts => do
    match ← readSum fuel ts with
    | (a, .sign ',' :: rest) =>
      let (others, rest) ← readArguments fuel rest
      return (a :: others, rest)
    | (a, .sign ')' :: rest) => return ([a], rest)
    | _ => none

end

/-- The expression that lexemes make. Each of them is reached through four readers at most. -/
def ofLexemes? (ts : List Lexeme) : Option Expression :=
  match readSum (4 * ts.length + 4) ts with
  | some (a, []) => some a
  | _ => none

def ofText? (s : String) : Option Expression := (Lexeme.ofChars? s.toList).bind ofLexemes?

end Expression

/-! ## Reading the pieces of a text -/

namespace Lexeme

variable {c : Char}

theorem place_ne_nil (c : Char) (runs : List (List Char)) : place c runs ≠ [] := by
  unfold place
  split
  · split
    · exact List.cons_ne_nil _ _
    · exact List.cons_ne_nil _ _
  · exact List.cons_ne_nil _ _

theorem place_append {front : List (List Char)} (some_run : front ≠ []) (back : List (List Char)) :
    place c (front ++ back) = place c front ++ back := by
  cases front with
  | nil => exact absurd rfl some_run
  | cons run more =>
      cases run with
      | nil => rfl
      | cons d run =>
          simp only [List.cons_append, place]
          split
          · rfl
          · rfl

/-- A sign ends the word before it. -/
theorem words_sign (sign : isWordChar c = false) (front back : List Char) :
    words (front ++ c :: back) = words (front ++ [c]) ++ words back := by
  have alone (runs : List (List Char)) : place c runs = [c] :: runs := by
    unfold place
    split
    · rw [sign, Bool.false_and, if_neg Bool.false_ne_true]
    · rfl
  have nonempty (cs : List Char) : (cs ++ [c]).foldr place [] ≠ [] := by
    cases cs with
    | nil => exact place_ne_nil c []
    | cons a cs => exact place_ne_nil a _
  induction front with
  | nil => exact alone (words back)
  | cons a front ih =>
      have step := place_append (c := a) (nonempty front) (words back)
      rw [← words, ← ih] at step
      exact step

theorem words_word {cs : List Char} (some_char : cs ≠ []) (word : ∀ d ∈ cs, isWordChar d = true)
    (sign : isWordChar c = false) : words (cs ++ [c]) = [cs, [c]] := by
  induction cs with
  | nil => exact absurd rfl some_char
  | cons a rest ih =>
      rw [List.forall_mem_cons] at word
      cases rest with
      | nil =>
          have apart : ¬ (isWordChar a && isWordChar c) = true := by simp [sign]
          exact if_neg apart
      | cons b rest =>
          have joined : (isWordChar a && isWordChar b) = true := by
            rw [word.1, word.2 b List.mem_cons_self, Bool.and_self]
          show place a (words (b :: rest ++ [c])) = [a :: b :: rest, [c]]
          rw [ih (List.cons_ne_nil b rest) word.2, place, if_pos joined]

theorem isWordChar_of_isDigit (digit : c.isDigit = true) : isWordChar c = true := by
  rw [isWordChar, Char.isAlphanum, digit, Bool.or_true, Bool.true_or]

theorem decimal?_digits {cs : List Char} (digits : ∀ d ∈ cs, d.isDigit = true) :
    decimal? cs = some ((Nat.ofDigitChars 10 cs 0 : ℕ) : ℚ) := by
  have whole : cs.takeWhile Char.isDigit = cs := List.takeWhile_eq_self_iff.mpr digits
  have rest : cs.dropWhile Char.isDigit = [] := List.dropWhile_eq_nil_iff.mpr digits
  simp only [decimal?, whole, rest]

/-- A piece of a text is read as some lexemes, whatever follows. -/
def Lexes (piece : String) (ts : List Lexeme) : Prop :=
  ∀ rest, ofChars? (piece.toList ++ rest) = (ofChars? rest).map (ts ++ ·)

namespace Lexes

theorem append {s t : String} {x y : List Lexeme} (hs : Lexes s x) (ht : Lexes t y) :
    Lexes (s ++ t) (x ++ y) := by
  intro rest
  rw [String.toList_append, List.append_assoc, hs, ht, Option.map_map]
  congr 1
  funext ts
  exact (List.append_assoc x y ts).symm

theorem eq {s : String} {ts : List Lexeme} (h : Lexes s ts) : ofChars? s.toList = some ts := by
  have whole := h []
  rw [List.append_nil] at whole
  rw [whole]
  exact congrArg some (List.append_nil ts)

/-- A piece that ends in a sign. -/
theorem plain {s : String} {ts : List Lexeme} (ends : s.toList.getLast? = some c)
    (sign : isWordChar c = false) (read : ofChars? s.toList = some ts) : Lexes s ts := by
  obtain ⟨front, ends⟩ := List.getLast?_eq_some_iff.mp ends
  intro rest
  rw [ends, ofChars?] at read
  rw [ends, List.append_assoc, List.singleton_append, ofChars?, words_sign sign, List.mapM_append, read,
    ofChars?]
  cases (words rest).mapM ofWord with
  | none => rfl
  | some us => rfl

/-- A number and the sign after it. -/
theorem number {s close : String} {q : ℚ} {d : Char} {more : List Char} (split : s.toList = d :: more)
    (digit : d.isDigit = true) (word : ∀ c ∈ s.toList, isWordChar c = true)
    (read : decimal? s.toList = some q) (single : close.toList = [c]) (sign : isWordChar c = false) :
    Lexes (s ++ close) [.number q, .sign c] := by
  have ends : (s ++ close).toList = s.toList ++ [c] := by rw [String.toList_append, single]
  have last : ofWord [c] = some (.sign c) := by
    have noDigit : ¬ c.isDigit = true := by
      intro isDigit
      rw [isWordChar_of_isDigit isDigit] at sign
      cases sign
    rw [ofWord, if_neg noDigit, if_neg (by simp [sign])]
  refine plain (by rw [ends, List.getLast?_concat]) sign ?_
  rw [split] at read
  rw [ends, ofChars?, words_word (by simp [split]) word sign, split]
  rw [List.mapM_cons, List.mapM_cons, last, ofWord, if_pos digit, read]
  rfl

/-- A whole number that is not negative, and the sign after it. -/
theorem whole {n : Int} (positive : 0 ≤ n) {close : String} (single : close.toList = [c])
    (sign : isWordChar c = false) : Lexes (toString n ++ close) [.number n, .sign c] := by
  obtain ⟨k, rfl⟩ := Int.eq_ofNat_of_zero_le positive
  have text : (toString (k : Int)).toList = Binary64.wholeDigits k := by
    show (toString k).toList = _
    rw [Nat.toString_eq_ofList_toDigits, String.toList_ofList]
    rfl
  have digits := Binary64.isDigit_wholeDigits k
  have value : Nat.ofDigitChars 10 (Binary64.wholeDigits k) 0 = k := Nat.ofDigitChars_ten_toDigits
  have read : decimal? (Binary64.wholeDigits k) = some (k : ℚ) := by
    rw [decimal?_digits digits, value]
  obtain ⟨d, more, split⟩ := List.exists_cons_of_ne_nil (Nat.toDigits_ne_nil (n := k) (b := 10))
  have split : Binary64.wholeDigits k = d :: more := split
  exact number (text.trans split) (digits d (split ▸ List.mem_cons_self))
    (fun c mem => isWordChar_of_isDigit (digits c (text ▸ mem))) (text ▸ read) single sign

end Lexes

end Lexeme

end Splice
