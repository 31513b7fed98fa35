import LanguageClient.Json.Basic
import LanguageClient.Number.Reading

/-!
# Parsing JSON

The grammar of RFC 8259 with three more numbers: `NaN`, `Infinity` and
`-Infinity`.  A refused document is reported with the place of the first
character that cannot be taken.  When a name occurs twice in an object, the
member keeps its first place and gets the last value.

## Strategy

Every function takes the characters that are left and gives back those after
what it has read.  A failure keeps the characters from the offending one on, so
its place is known from their number.  The fuel of `value` bounds the nesting and
the number of items; twice the length of the document always suffices, because
every other call takes a character.
-/

namespace LanguageClient.Json

/-! ## Errors -/

/-- What is wrong at a place of a document. -/
inductive Flaw where
  | expectingValue
  | expectingName
  | expectingColon
  | expectingComma
  | extraData
  | controlCharacter
  | unterminatedString
  | invalidEscape
  | invalidUnicodeEscape
  | byteOrderMark
deriving DecidableEq

inductive ParseError where
  /-- Something is wrong at an offset, which lies on a line and in a column. -/
  | malformed (flaw : Flaw) (line column offset : Nat)
  /-- An integer has more digits than are read. -/
  | tooManyDigits (count : Nat)
deriving DecidableEq

def Flaw.message : Flaw → Text
  | expectingValue => "Expecting value"
  | expectingName => "Expecting property name enclosed in double quotes"
  | expectingColon => "Expecting ':' delimiter"
  | expectingComma => "Expecting ',' delimiter"
  | extraData => "Extra data"
  | controlCharacter => "Invalid control character at"
  | unterminatedString => "Unterminated string starting at"
  | invalidEscape => "Invalid \\escape"
  | invalidUnicodeEscape => "Invalid \\uXXXX escape"
  | byteOrderMark => "Unexpected UTF-8 BOM (decode using utf-8-sig)"

/-- The message names the flaw and its place. -/
def ParseError.message : ParseError → Text
  | malformed flaw line column offset =>
    flaw.message ++ ": line " ++ Text.ofNat line ++ " column " ++ Text.ofNat column ++
      " (char " ++ Text.ofNat offset ++ ")"
  | tooManyDigits n => (Reading.Error.tooManyDigits n).message

namespace Parser

/-- A failure before its place is worked out. -/
inductive Failure where
  /-- The flaw lies at the first character of `rest`. -/
  | here (flaw : Flaw) (rest : List Char)
  | tooManyDigits (count : Nat)

/-! ## Blanks -/

/-- Space, tabulator, line feed and carriage return. -/
def isSpace (c : Char) : Bool := c == ' ' || c == '\t' || c == '\n' || c == '\r'

/-- The characters from the first that is not blank. -/
def skip (cs : List Char) : List Char := cs.dropWhile isSpace

/-! ## Strings -/

/-- The value of a hexadecimal digit. -/
def hexDigit? (c : Char) : Option Nat :=
  if c.isDigit then some (c.toNat - 0x30)
  else if 'a' ≤ c && c ≤ 'f' then some (c.toNat - 0x57)
  else if 'A' ≤ c && c ≤ 'F' then some (c.toNat - 0x37)
  else none

/-- The code point that an escape of one letter stands for. -/
def shortEscape? (c : Char) : Option Char :=
  if c = '"' || c = '\\' || c = '/' then some c
  else if c = 'b' then some '\x08'
  else if c = 'f' then some '\x0c'
  else if c = 'n' then some '\n'
  else if c = 'r' then some '\r'
  else if c = 't' then some '\t'
  else none

/-- The code point that four hexadecimal digits stand for. -/
def unit? (a b c d : Char) : Option CodePoint := do
  let a ← hexDigit? a
  let b ← hexDigit? b
  let c ← hexDigit? c
  let d ← hexDigit? d
  some (CodePoint.ofNat (((a * 16 + b) * 16 + c) * 16 + d))

/-- The rest of a string whose opening quote is the first character of `opening`; `done` is
what has been read of it, in reverse. -/
def stringFrom (opening : List Char) : (done : Text) → List Char → Except Failure (Text × List Char)
  | _, [] => .error (.here .unterminatedString opening)
  | done, c :: rest =>
    if c = '"' then .ok (done.reverse, rest)
    else if c = '\\' then
      match rest with
      | [] => .error (.here .unterminatedString opening)
      | e :: after =>
        if e = 'u' then
          match after with
          | h₁ :: h₂ :: h₃ :: h₄ :: next :: more =>
            match unit? h₁ h₂ h₃ h₄ with
            | some unit => stringFrom opening (unit :: done) (next :: more)
            | none => .error (.here .invalidUnicodeEscape (e :: after))
          | _ => .error (.here .invalidUnicodeEscape (e :: after))
        else
          match shortEscape? e with
          | some escaped => stringFrom opening (CodePoint.ofChar escaped :: done) after
          | none => .error (.here .invalidEscape (c :: e :: after))
    else if c.toNat < 0x20 then .error (.here .controlCharacter (c :: rest))
    else stringFrom opening (CodePoint.ofChar c :: done) rest

/-- The code point of a high and a low surrogate. -/
def paired (high low : CodePoint) : CodePoint :=
  CodePoint.ofNat (0x10000 + (high.val - 0xD800) * 0x400 + (low.val - 0xDC00))

/-- Reads the surrogates of a text as UTF-16 does: a high one and the low one behind it are
one code point.  `done` is in reverse. -/
def pairFrom : (done : Text) → Text → Text
  | done, [] => done.reverse
  | done, c :: rest =>
    match done with
    | high :: before =>
      if 0xD800 ≤ high.val && high.val < 0xDC00 && 0xDC00 ≤ c.val && c.val < 0xE000 then
        pairFrom (paired high c :: before) rest
      else pairFrom (c :: done) rest
    | [] => pairFrom [c] rest

/-- A string from its opening quote on. -/
def string (cs : List Char) : Except Failure (Text × List Char) := do
  let (t, rest) ← stringFrom cs [] cs.tail
  .ok (pairFrom [] t, rest)

/-! ## Numbers -/

/-- The digits behind a point, when there is one with a digit behind it. -/
def fraction? : List Char → Option (List Char × List Char)
  | '.' :: d :: rest =>
    if d.isDigit then some (d :: rest.takeWhile Char.isDigit, rest.dropWhile Char.isDigit) else none
  | _ => none

/-- The exponent, when there is one with a digit. -/
def exponent? : List Char → Option (Int × List Char)
  | e :: rest =>
    if e = 'e' || e = 'E' then
      let (negative, rest) := Reading.sign rest
      let digits := rest.takeWhile Char.isDigit
      if digits.isEmpty then none
      else
        let n : Int := Reading.natOfDigits digits
        some (if negative then -n else n, rest.dropWhile Char.isDigit)
    else none
  | [] => none

/-- The digits before the point: a lone zero, or digits that do not start with zero. -/
def whole? : List Char → Option (List Char × List Char)
  | [] => none
  | d :: rest =>
    if d = '0' then some (['0'], rest)
    else if d.isDigit then some (d :: rest.takeWhile Char.isDigit, rest.dropWhile Char.isDigit)
    else none

/-- A number: an integer unless it has a fraction or an exponent. -/
def number (cs : List Char) : Except Failure (Json × List Char) :=
  let (negative, body) := match cs with
    | '-' :: rest => (true, rest)
    | _ => (false, cs)
  match whole? body with
  | none => .error (.here .expectingValue cs)
  | some (whole, rest) =>
    match fraction? rest, exponent? ((fraction? rest).elim rest (·.2)) with
    | none, none =>
      if Reading.digitLimit < whole.length then .error (.tooManyDigits whole.length)
      else
        let n : Int := Reading.natOfDigits whole
        .ok (int (if negative then -n else n), rest)
    | fraction, power =>
      let digits := (fraction.elim [] (·.1))
      let after := power.elim (fraction.elim rest (·.2)) (·.2)
      .ok
        (float (Binary64.ofDecimal negative (Reading.natOfDigits (whole ++ digits))
          (power.elim 0 (·.1) - digits.length)),
        after)

/-! ## Documents -/

/-- The values that are written as one word. -/
def words : List (List Char × Json) :=
  [("null".toList, null), ("true".toList, bool true), ("false".toList, bool false),
    ("NaN".toList, float .nan), ("Infinity".toList, float (.infinite false)),
    ("-Infinity".toList, float (.infinite true))]

/-- A value that has no parts: a word, or else a number. -/
def scalar (cs : List Char) : Except Failure (Json × List Char) :=
  match words.findSome? fun w => (Cut.after? w.1 cs).map (w.2, ·) with
  | some read => .ok read
  | none => number cs

mutual

/-- A value at the first character. -/
def value : (fuel : Nat) → List Char → Except Failure (Json × List Char)
  | 0, cs => .error (.here .expectingValue cs)
  | fuel + 1, cs =>
    match cs with
    | [] => .error (.here .expectingValue cs)
    | c :: rest =>
      if c = '"' then do
        let (t, rest) ← string cs
        .ok (str t, rest)
      else if c = '[' then
        match skip rest with
        | ']' :: rest => .ok (arr [], rest)
        | rest => items fuel [] rest
      else if c = '\x7b' then
        match skip rest with
        | '\x7d' :: rest => .ok (obj [], rest)
        | rest => members fuel [] rest
      else scalar cs

/-- The items of an array from the next one on; `done` is in reverse. -/
def items : (fuel : Nat) → (done : List Json) → List Char → Except Failure (Json × List Char)
  | 0, _, cs => .error (.here .expectingValue cs)
  | fuel + 1, done, cs => do
    let (item, rest) ← value fuel cs
    match skip rest with
    | ']' :: rest => .ok (arr (item :: done).reverse, rest)
    | ',' :: rest => items fuel (item :: done) (skip rest)
    | rest => .error (.here .expectingComma rest)

/-- The members of an object from the next one on. -/
def members : (fuel : Nat) → (done : Members) → List Char → Except Failure (Json × List Char)
  | 0, _, cs => .error (.here .expectingName cs)
  | fuel + 1, done, cs => do
    match cs with
    | '"' :: _ =>
      let (name, rest) ← string cs
      match skip rest with
      | ':' :: rest =>
        let (v, rest) ← value fuel (skip rest)
        match skip rest with
        | '\x7d' :: rest => .ok (obj (done.put name v), rest)
        | ',' :: rest => members fuel (done.put name v) (skip rest)
        | rest => .error (.here .expectingComma rest)
      | rest => .error (.here .expectingColon rest)
    | _ => .error (.here .expectingName cs)

end

/-- The line, counted from one, and the column of what follows the characters `before`. -/
def place (before : List Char) : Nat × Nat :=
  before.foldl (fun (line, column) c => if c = '\n' then (line + 1, 1) else (line, column + 1)) (1, 1)

/-- Works out where in the document a failure lies. -/
def Failure.locate (document : List Char) : Failure → ParseError
  | tooManyDigits n => .tooManyDigits n
  | here flaw rest =>
    let offset := document.length - rest.length
    let (line, column) := place (document.take offset)
    .malformed flaw line column offset

/-- The document, with blanks around it. -/
def document (cs : List Char) : Except Failure Json :=
  match cs with
  | '\uFEFF' :: _ => .error (.here .byteOrderMark cs)
  | _ => do
    let (v, rest) ← value (2 * cs.length + 2) (skip cs)
    match skip rest with
    | [] => .ok v
    | rest => .error (.here .extraData rest)

end Parser

/-- The document that the characters spell. -/
def parse (cs : List Char) : Except ParseError Json :=
  match Parser.document cs with
  | .ok v => .ok v
  | .error failure => .error (failure.locate cs)

end LanguageClient.Json
