/-!
# Texts as lists of code points

A text exchanged with a language server is a list of code points.  JSON escapes
and file names that are not valid UTF-8 can bring lone surrogates into it, so
`Char` is too narrow: `CodePoint` is every number below `0x110000`.

The functions here are the few list operations that the rest of the library
speaks of in terms of text: cutting at a separator, joining, and writing
numbers.
-/

namespace LanguageClient

/-- A Unicode code point, surrogates included. -/
structure CodePoint where
  val : Nat
  lt : val < 0x110000
deriving DecidableEq

namespace CodePoint

/-- Every scalar value is a code point. -/
def ofChar (c : Char) : CodePoint where
  val := c.toNat
  lt := by
    have h : c.val.isValidChar := c.valid
    have : c.toNat = c.val.toNat := rfl
    simp only [UInt32.isValidChar, Nat.isValidChar] at h
    omega

instance : Coe Char CodePoint := ⟨ofChar⟩

instance : Inhabited CodePoint := ⟨ofChar ' '⟩

/-- The code point with a given number; numbers out of range give U+FFFD. -/
def ofNat (n : Nat) : CodePoint :=
  if h : n < 0x110000 then ⟨n, h⟩ else ⟨0xFFFD, by decide⟩

/-- The scalar value, unless the code point is a surrogate. -/
def toChar? (c : CodePoint) : Option Char :=
  if h : c.val.isValidChar then some (Char.ofNatAux c.val h) else none

/-- The scalar value, with U+FFFD for a surrogate. -/
def toChar (c : CodePoint) : Char :=
  c.toChar?.getD (Char.ofNat 0xFFFD)

/-- The code points U+D800 to U+DFFF. -/
def isSurrogate (c : CodePoint) : Bool := 0xD800 ≤ c.val && c.val < 0xE000

/-- The digits `0` to `9`. -/
def isAsciiDigit (c : CodePoint) : Bool := 0x30 ≤ c.val && c.val ≤ 0x39

/-- The letters `A` to `Z` and `a` to `z`. -/
def isAsciiLetter (c : CodePoint) : Bool :=
  (0x41 ≤ c.val && c.val ≤ 0x5A) || (0x61 ≤ c.val && c.val ≤ 0x7A)

/-- `A` to `Z` become `a` to `z`; nothing else changes. -/
def asciiLower (c : CodePoint) : CodePoint :=
  if 0x41 ≤ c.val && c.val ≤ 0x5A then ofNat (c.val + 0x20) else c

end CodePoint

/-- A text: a list of code points. -/
abbrev Text := List CodePoint

namespace Text

/-- The code points of a string. -/
def ofString (s : String) : Text := s.toList.map CodePoint.ofChar

instance : Coe String Text := ⟨ofString⟩

/-- The code points of a list of characters. -/
def ofChars (cs : List Char) : Text := cs.map CodePoint.ofChar

/-- The characters of a text, with U+FFFD for every surrogate. -/
def toChars (t : Text) : List Char := t.map CodePoint.toChar

/-- The decimal digits of a natural number. -/
def ofNat (n : Nat) : Text := ofChars (Nat.toDigits 10 n)

/-- The decimal digits of an integer, after `-` when it is negative. -/
def ofInt : Int → Text
  | .ofNat n => ofNat n
  | .negSucc n => CodePoint.ofChar '-' :: ofNat (n + 1)

/-- The two-digit-or-more lowercase hexadecimal form, filled with `0` up to `width`. -/
def hex (width n : Nat) : Text :=
  let digits := Nat.toDigits 16 n
  ofChars (List.replicate (width - digits.length) '0' ++ digits)

/-- The texts in order with `separator` between neighbours. -/
def join (separator : Text) : List Text → Text
  | [] => []
  | first :: rest => first ++ rest.flatMap (separator ++ ·)

/-- The order of texts by their code points. -/
def le : Text → Text → Bool
  | [], _ => true
  | _ :: _, [] => false
  | a :: s, b :: t => if a = b then le s t else a.val < b.val

end Text

/-! ## Cutting lists -/

namespace Cut

variable {α : Type} [DecidableEq α]

/-- What follows `start` in a list that begins with it. -/
def after? : (start list : List α) → Option (List α)
  | [], list => some list
  | _ :: _, [] => none
  | a :: start, b :: list => if a = b then after? start list else none

/-- The parts before and after the first occurrence of `mark`. -/
def firstFrom (mark : List α) : (passed list : List α) → Option (List α × List α)
  | passed, [] => if mark.isEmpty then some (passed.reverse, []) else none
  | passed, a :: list =>
    match after? mark (a :: list) with
    | some rest => some (passed.reverse, rest)
    | none => firstFrom mark (a :: passed) list

/-- The parts before and after the first occurrence of `mark`, if there is one. -/
def first? (mark list : List α) : Option (List α × List α) := firstFrom mark [] list

/-- The parts before and after the first element that is `mark`, if there is one. -/
def at? (mark : α) (list : List α) : Option (List α × List α) := first? [mark] list

/-- `skip` counts the elements that belong to the mark found last; `current` and `done` are in
reverse. -/
def splitFrom (mark : List α) (current : List α) (done : List (List α)) (skip : Nat) :
    List α → List (List α)
  | [] => (current.reverse :: done).reverse
  | a :: list =>
    match skip with
    | skip + 1 => splitFrom mark current done skip list
    | 0 =>
      if (after? mark (a :: list)).isSome then
        splitFrom mark [] (current.reverse :: done) (mark.length - 1) list
      else splitFrom mark (a :: current) done 0 list

/-- The pieces between the occurrences of a non-empty `mark`, found from left to right. -/
def split (mark list : List α) : List (List α) := splitFrom mark [] [] 0 list

/-- The pieces between the elements `mark`: one more piece than there are marks. -/
def pieces (mark : α) (list : List α) : List (List α) :=
  let (last, done) := list.foldl
    (fun (current, done) a => if a = mark then ([], current.reverse :: done) else (a :: current, done))
    (([], []) : List α × List (List α))
  (last.reverse :: done).reverse

/-- The parts before and after the last element that is `mark`, if there is one. -/
def last? (mark : α) (list : List α) : Option (List α × List α) :=
  match at? mark list.reverse with
  | some (after, before) => some (before.reverse, after.reverse)
  | none => none

/-- The list without the elements at its end that satisfy `p`. -/
def dropTrailing (p : α → Bool) (list : List α) : List α := (list.reverse.dropWhile p).reverse

/-- The list without the elements at either end that satisfy `p`. -/
def trim (p : α → Bool) (list : List α) : List α := dropTrailing p (list.dropWhile p)

end Cut

end LanguageClient
