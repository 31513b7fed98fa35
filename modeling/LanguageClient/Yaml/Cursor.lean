import LanguageClient.Number.Reading
import LanguageClient.Yaml.Moment

/-!
# Places in a YAML text

A YAML text is read from left to right.  A cursor holds what has not been read and
where it stands: layout decides what a character means, so the column counts, and
how far a key reaches is limited by the index.

Line breaks are the line feed, U+0085, U+2028 and U+2029.  Carriage returns have been
made line feeds before.
-/

namespace LanguageClient.Yaml

/-- Why a YAML text gives no value. -/
inductive Error where
  /-- The text breaks a rule of YAML, or uses a tag that stands for nothing. -/
  | malformed
  /-- An escape gives the number of no character. -/
  | noCharacter (code : Nat)
  /-- A scalar tagged as a number is not written as one. -/
  | notAnInteger (base : Nat) (text : Text)
  | number (error : Reading.Error)
  | emptyNumber
  /-- A number has so many places that it cannot be weighed. -/
  | tooManyPlaces
  /-- A scalar tagged as a truth value is none. -/
  | notATruthValue (text : Text)
  /-- A scalar tagged as a date does not have the form of one. -/
  | notADate
  /-- A date or time of day that does not exist. -/
  | noSuchTime (error : NoSuchTime)
deriving DecidableEq

/-- The wording of an error.  How a text breaks the rules of YAML is not said. -/
def Error.message : Error → Text
  | malformed => "<yaml error>"
  | noCharacter code =>
    if code < 0x80000000 then "chr() arg not in range(0x110000)"
    else "Python int too large to convert to C int"
  | notAnInteger base t =>
    "invalid literal for int() with base " ++ Text.ofNat base ++ Text.ofString ": " ++
      Reading.excerpt (Quoted.text t)
  | number e => e.message
  | emptyNumber => "string index out of range"
  | tooManyPlaces => "int too large to convert to float"
  | notATruthValue t => Quoted.text t
  | notADate => []
  | noSuchTime e => e.message

/-! ## Characters -/

def isBreak (c : Char) : Bool := c == '\n' || c == '\u0085' || c == '\u2028' || c == '\u2029'

def isBlank (c : Char) : Bool := c == ' ' || c == '\t'

def isGap (c : Char) : Bool := isBlank c || isBreak c

/-- The characters of names of anchors and directives. -/
def isWord (c : Char) : Bool := c.isAlphanum || c == '-' || c == '_'

def isHexDigit (c : Char) : Bool :=
  c.isDigit || ('a' ≤ c && c ≤ 'f') || ('A' ≤ c && c ≤ 'F')

/-- The characters that a YAML text may hold. -/
def isAllowed (c : Char) : Bool :=
  let n := c.toNat
  n == 0x09 || n == 0x0A || n == 0x0D || (0x20 ≤ n && n ≤ 0x7E) || n == 0x85 ||
    (0xA0 ≤ n && n ≤ 0xFFFD) || 0x10000 ≤ n

/-- The break that a line break stands for: U+0085 counts as a line feed. -/
def breakText (c : Char) : CodePoint := if c == '\u0085' then '\n' else c

/-- The text has ended here, or a character of the class stands here. -/
def endOr (p : Char → Bool) (c : Option Char) : Bool :=
  match c with
  | none => true
  | some c => p c

/-- A character of the class stands here. -/
def here (p : Char → Bool) (c : Option Char) : Bool :=
  match c with
  | none => false
  | some c => p c

/-! ## Cursors -/

/-- A place in a text, and what stands from there on. -/
structure Cursor where
  rest : List Char
  index : Nat
  line : Nat
  column : Nat

namespace Cursor

def ofText (text : List Char) : Cursor := ⟨text, 0, 0, 0⟩

def peek (c : Cursor) : Option Char := c.rest.head?

/-- The character `n` places on. -/
def peekAt (c : Cursor) (n : Nat) : Option Char := c.rest[n]?

/-- Passes one character.  The byte order mark has no width. -/
def step (c : Cursor) : Cursor :=
  match c.rest with
  | [] => c
  | ch :: rest =>
    if isBreak ch then ⟨rest, c.index + 1, c.line + 1, 0⟩
    else ⟨rest, c.index + 1, c.line, if ch == '\uFEFF' then c.column else c.column + 1⟩

/-- Passes `n` characters. -/
def advance : (n : Nat) → Cursor → Cursor
  | 0, c => c
  | n + 1, c => advance n c.step

/-- The longest run of characters of a class, and the place behind it. -/
def span (p : Char → Bool) (c : Cursor) : List Char × Cursor :=
  let run := c.rest.takeWhile p
  (run, c.advance run.length)

/-- Passes the characters of a class. -/
def skip (p : Char → Bool) (c : Cursor) : Cursor := (c.span p).2

def skipSpaces (c : Cursor) : Cursor := c.skip (· == ' ')

/-- The line break that stands here, and the place behind it. -/
def takeBreak? (c : Cursor) : Option (CodePoint × Cursor) :=
  match c.peek with
  | some ch => if isBreak ch then some (breakText ch, c.step) else none
  | none => none

/-- Three characters `mark` stand here by themselves. -/
def atMarker (mark : Char) (c : Cursor) : Bool :=
  c.rest.take 3 == [mark, mark, mark] && endOr isGap (c.peekAt 3)

/-- A line that separates documents starts here. -/
def atSeparator (c : Cursor) : Bool := c.atMarker '-' || c.atMarker '.'

/-- Passes what is left of a line that may only hold a comment. -/
def endLine (c : Cursor) : Except Error Cursor :=
  let c := c.skipSpaces
  let c := if c.peek == some '#' then c.skip (!isBreak ·) else c
  match c.peek with
  | none => .ok c
  | some ch => if isBreak ch then .ok c.step else .error .malformed

end Cursor

end LanguageClient.Yaml
