import LanguageClient.Number.Decimal
import LanguageClient.Text.Blank
import LanguageClient.Text.Digit
import LanguageClient.Text.Quoted

/-!
# Reading numbers from text

The forms in which a user or a server may write a number: digits of any script,
single underscores between digits, a sign, and blanks around the whole.  The
information separators are no blanks here.
-/

namespace LanguageClient.Reading

/-- Why a text is not read as a number. -/
inductive Error where
  /-- The text does not have the form of an integer. -/
  | notAnInteger (text : Text)
  /-- The text does not have the form of a decimal number. -/
  | notADecimal (text : Text)
  /-- An integer with this many digits is refused. -/
  | tooManyDigits (count : Nat)
deriving DecidableEq

/-- An integer is read from at most this many digits, and written with as many. -/
def digitLimit : Nat := 4300

/-- The integer is not too long to be written. -/
def isWritable (n : Int) : Bool := (Nat.toDigits 10 n.natAbs).length ≤ digitLimit

/-- What is no integer is quoted up to so many characters. -/
def excerptLength : Nat := 200

/-- What a message quotes of something that is no integer. -/
def excerpt (shown : Text) : Text := shown.take excerptLength

def Error.message : Error → Text
  | notAnInteger t => "invalid literal for int() with base 10: " ++ excerpt (Quoted.text t)
  | notADecimal t => "could not convert string to float: " ++ Quoted.text t
  | tooManyDigits n =>
    "Exceeds the limit (4300 digits) for integer string conversion: value has " ++ Text.ofNat n ++
      " digits; use sys.set_int_max_str_digits() to increase the limit"

/-- The character that a code point counts as: digits of all scripts and all blanks are
reduced to those of ASCII, and what a number cannot hold becomes `?`. -/
def plain (c : CodePoint) : Char :=
  if c.val < 127 then c.toChar
  else if c.isBlank then ' '
  else match Digit.value? c with
    | some d => Char.ofNat (0x30 + d)
    | none => '?'

def isPadding (c : Char) : Bool := c == ' ' || (0x09 ≤ c.toNat && c.toNat ≤ 0x0D)

/-- The characters of a number without the blanks around it. -/
def trimmed (t : Text) : List Char := Cut.trim isPadding (t.map plain)

/-- The value of a list of ASCII digits. -/
def natOfDigits (digits : List Char) : Nat :=
  digits.foldl (fun n c => n * 10 + (c.toNat - 0x30)) 0

/-- The sign in front of a number, `true` for minus, and what follows it. -/
def sign : List Char → Bool × List Char
  | '-' :: rest => (true, rest)
  | '+' :: rest => (false, rest)
  | cs => (false, cs)

def underscoresFit : (previous : Char) → List Char → Bool
  | previous, [] => previous != '_'
  | previous, c :: rest =>
    (if c == '_' then previous.isDigit else previous != '_' || c.isDigit) && underscoresFit c rest

/-- The integer that a text spells. -/
def int (t : Text) : Except Error Int :=
  let (negative, cs) := sign (trimmed t)
  let body := cs.takeWhile fun c => c.isDigit || c == '_'
  let digits := body.filter Char.isDigit
  if digits.isEmpty || !underscoresFit ' ' body then .error (.notAnInteger t)
  else if digitLimit < digits.length then .error (.tooManyDigits digits.length)
  else if body.length < cs.length then .error (.notAnInteger t)
  else
    let n : Int := natOfDigits digits
    .ok (if negative then -n else n)

/-- The exponent behind a mantissa: empty, or `e`, a sign and digits. -/
def exponent? : List Char → Option Int
  | [] => some 0
  | e :: rest =>
    if e == 'e' || e == 'E' then
      let (negative, digits) := sign rest
      if !digits.isEmpty && digits.all Char.isDigit then
        let n : Int := natOfDigits digits
        some (if negative then -n else n)
      else none
    else none

/-- Digits with at most one point, at least one digit, and an exponent. -/
def decimal? (negative : Bool) (cs : List Char) : Option Binary64 :=
  let whole := cs.takeWhile Char.isDigit
  let rest := cs.dropWhile Char.isDigit
  let (fraction, rest) := match rest with
    | '.' :: rest => (rest.takeWhile Char.isDigit, rest.dropWhile Char.isDigit)
    | _ => ([], rest)
  if whole.isEmpty && fraction.isEmpty then none
  else (exponent? rest).map fun e =>
    Binary64.ofDecimal negative (natOfDigits (whole ++ fraction)) (e - fraction.length)

/-- The double that a text spells: a decimal number, `inf`, `infinity` or `nan`. -/
def float (t : Text) : Except Error Binary64 :=
  let cs := trimmed t
  let (negative, body) := sign (cs.filter (· != '_'))
  let word := body.map Char.toLower
  let read :=
    if !underscoresFit ' ' cs then none
    else if word = "inf".toList || word = "infinity".toList then some (.infinite negative)
    else if word = "nan".toList then some .nan
    else decimal? negative body
  match read with
  | some x => .ok x
  | none => .error (.notADecimal t)

end LanguageClient.Reading
