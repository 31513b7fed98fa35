import LanguageClient.Text.CodePoint

/-!
# Dates and times of day

A date is written `2024-01-31`.  A moment is a date with a time of day behind `T` or
blanks, and perhaps a fraction of a second and the distance from universal time.
`Stamp.read?` takes the written form apart; whether the day exists is another
question, which `Stamp.moment` answers.
-/

namespace LanguageClient.Yaml

structure Date where
  year : Nat
  month : Nat
  day : Nat
deriving DecidableEq

/-- A date with a time of day. -/
structure Moment where
  date : Date
  hour : Nat
  minute : Nat
  second : Nat
  microsecond : Nat
  /-- How far the clock is ahead of universal time, in minutes. -/
  offset : Option Int
deriving DecidableEq

/-- The written form, taken apart. -/
structure Stamp where
  year : List Char
  month : List Char
  day : List Char
  /-- Hour, minute, second, fraction, and the distance from universal time. -/
  time : Option (List Char × List Char × List Char × List Char × Option Int)

namespace Stamp

/-- Between `least` and `most` digits, and the rest. -/
def digits? (least most : Nat) (cs : List Char) : Option (List Char × List Char) :=
  let run := (cs.take most).takeWhile Char.isDigit
  if run.length < least then none else some (run, cs.drop run.length)

/-- What follows the character `mark`. -/
def behind? (mark : Char) : List Char → Option (List Char)
  | [] => none
  | c :: rest => if c == mark then some rest else none

def number (digits : List Char) : Nat :=
  digits.foldl (fun n c => n * 10 + (c.toNat - 0x30)) 0

def isBlank (c : Char) : Bool := c == ' ' || c == '\t'

/-- The distance from universal time: nothing, `Z`, or a sign, hours and perhaps minutes. -/
def offset? (cs : List Char) : Option (Option Int) :=
  match cs, cs.dropWhile isBlank with
  | [], _ => some none
  | _, ['Z'] => some (some 0)
  | _, sign :: rest =>
    if sign == '+' || sign == '-' then do
      let (hours, rest) ← digits? 1 2 rest
      let minutes ← match rest with
        | [] => some []
        | rest => do
          let (minutes, rest) ← digits? 2 2 (← behind? ':' rest)
          if rest.isEmpty then some minutes else none
      let n : Int := number hours * 60 + number minutes
      some (some (if sign == '-' then -n else n))
    else none
  | _, [] => none

/-- The time of day behind a date. -/
def time? (cs : List Char) :
    Option (List Char × List Char × List Char × List Char × Option Int) := do
  let rest ← match cs with
    | c :: rest =>
      if c == 'T' || c == 't' then some rest
      else if isBlank c then some (rest.dropWhile isBlank)
      else none
    | [] => none
  let (hour, rest) ← digits? 1 2 rest
  let (minute, rest) ← digits? 2 2 (← behind? ':' rest)
  let (second, rest) ← digits? 2 2 (← behind? ':' rest)
  let (fraction, rest) := match behind? '.' rest with
    | some rest => (rest.takeWhile Char.isDigit, rest.dropWhile Char.isDigit)
    | none => ([], rest)
  return (hour, minute, second, fraction, ← offset? rest)

/-- The parts of a date, or of a date with a time of day. -/
def read? (cs : List Char) : Option Stamp := do
  let (year, rest) ← digits? 4 4 cs
  let (month, rest) ← digits? 1 2 (← behind? '-' rest)
  let (day, rest) ← digits? 1 2 (← behind? '-' rest)
  if rest.isEmpty then return ⟨year, month, day, none⟩
  return ⟨year, month, day, some (← time? rest)⟩

/-- A date by itself has two digits for the month and for the day. -/
def isStrict (s : Stamp) : Bool := s.time.isSome || (s.month.length == 2 && s.day.length == 2)

end Stamp

/-! ## Which days exist -/

def isLeapYear (year : Nat) : Bool := year % 4 = 0 && (year % 100 ≠ 0 || year % 400 = 0)

def daysIn (year month : Nat) : Nat :=
  if month = 2 then (if isLeapYear year then 29 else 28)
  else if [4, 6, 9, 11].contains month then 30
  else 31

/-- Why a stamp names no moment. -/
inductive NoSuchTime where
  | year
  | month
  | day
  | hour
  | minute
  | second
  /-- The distance from universal time, in minutes, is a day or more. -/
  | offset (minutes : Int)
deriving DecidableEq

/-- A span of time as days and seconds, the seconds never negative. -/
def shownSpan (minutes : Int) : Text :=
  let days := Int.fdiv minutes 1440
  let seconds := (minutes - days * 1440) * 60
  let parts : List Text :=
    (if days = 0 then [] else ["days=" ++ Text.ofInt days]) ++
      (if seconds = 0 then [] else ["seconds=" ++ Text.ofInt seconds])
  "datetime.timedelta(" ++
    (if parts.isEmpty then Text.ofString "0" else Text.join ", " parts) ++ Text.ofString ")"

def NoSuchTime.message : NoSuchTime → Text
  | year => "year 0 is out of range"
  | month => "month must be in 1..12"
  | day => "day is out of range for month"
  | hour => "hour must be in 0..23"
  | minute => "minute must be in 0..59"
  | second => "second must be in 0..59"
  | offset minutes =>
    "offset must be a timedelta strictly between -timedelta(hours=24) and " ++
      Text.ofString "timedelta(hours=24), not " ++ shownSpan minutes ++ Text.ofString "."

/-- The date, if there is one. -/
def Date.make (year month day : Nat) : Except NoSuchTime Date :=
  if year = 0 then .error .year
  else if month < 1 || 12 < month then .error .month
  else if day < 1 || daysIn year month < day then .error .day
  else .ok ⟨year, month, day⟩

/-- The first six digits of a fraction, as a number of microseconds. -/
def microseconds (fraction : List Char) : Nat :=
  let digits := fraction.take 6
  Stamp.number (digits ++ List.replicate (6 - digits.length) '0')

/-- The date or moment that a stamp names, or why there is none. -/
def Stamp.resolve (s : Stamp) : Except NoSuchTime (Date ⊕ Moment) := do
  let year := number s.year
  let month := number s.month
  let day := number s.day
  match s.time with
  | none => return .inl (← Date.make year month day)
  | some (hour, minute, second, fraction, offset) =>
    if let some minutes := offset then
      if 1440 ≤ minutes.natAbs then throw (.offset minutes)
    let date ← Date.make year month day
    if 23 < number hour then throw .hour
    if 59 < number minute then throw .minute
    if 59 < number second then throw .second
    return .inr ⟨date, number hour, number minute, number second, microseconds fraction, offset⟩

/-! ## Writing -/

/-- The digits of a number, with zeros in front up to `width`. -/
def padded (width n : Nat) : Text :=
  let digits := Nat.toDigits 10 n
  Text.ofChars (List.replicate (width - digits.length) '0' ++ digits)

/-- The usual form of a date. -/
def Date.written (d : Date) : Text :=
  Text.join "-" [padded 4 d.year, padded 2 d.month, padded 2 d.day]

/-- The usual form of a moment. -/
def Moment.written (m : Moment) : Text :=
  m.date.written ++ Text.ofString " " ++
    Text.join ":" [padded 2 m.hour, padded 2 m.minute, padded 2 m.second] ++
    (if m.microsecond = 0 then [] else Text.ofString "." ++ padded 6 m.microsecond) ++
    (match m.offset with
      | none => []
      | some minutes =>
        Text.ofString (if minutes < 0 then "-" else "+") ++
          padded 2 (minutes.natAbs / 60) ++ Text.ofString ":" ++ padded 2 (minutes.natAbs % 60))

/-- A date as messages show it. -/
def Date.shown (d : Date) : Text :=
  "datetime.date(" ++ Text.join ", " [Text.ofNat d.year, Text.ofNat d.month, Text.ofNat d.day] ++
    Text.ofString ")"

/-- A moment as messages show it; seconds are left out when there is nothing smaller than a
minute. -/
def Moment.shown (m : Moment) : Text :=
  let seconds : List Text :=
    if m.microsecond ≠ 0 then [Text.ofNat m.second, Text.ofNat m.microsecond]
    else if m.second ≠ 0 then [Text.ofNat m.second]
    else []
  let zone : List Text := match m.offset with
    | none => []
    | some minutes =>
      if minutes = 0 then ["tzinfo=datetime.timezone.utc"]
      else ["tzinfo=datetime.timezone(" ++ shownSpan minutes ++ Text.ofString ")"]
  "datetime.datetime(" ++
    Text.join ", " ([m.date.year, m.date.month, m.date.day, m.hour, m.minute].map Text.ofNat ++
      seconds ++ zone) ++ Text.ofString ")"

end LanguageClient.Yaml
