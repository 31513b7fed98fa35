import LanguageClient.Number.Binary64
import LanguageClient.Text.CodePoint

/-!
# Decimal forms of doubles

A double is read from a decimal by rounding it to nearest, and written with the
fewest digits that read back as the same double; of two such decimals the
nearer one is taken.

## Strategy

For a given number of digits the decimals form a grid.  If any point of the grid
reads back as the value then one of the value's two neighbours does, so only
these two are tried, for one digit, two digits, and so on up to seventeen.
-/

namespace LanguageClient

namespace Binary64

/-- Decimals whose first digit stands at a place beyond these are zero or infinite. -/
def decimalSpan : Int := 400

/-- The double nearest to `digits * 10^exponent`. -/
def ofDecimal (negative : Bool) (digits : Nat) (exponent : Int) : Binary64 :=
  if digits = 0 then finite negative Magnitude.zero
  else
    let place := (Nat.log2 digits : Int) * 30103 / 100000 + exponent
    if decimalSpan < place then infinite negative
    else if place < -decimalSpan then finite negative Magnitude.zero
    else if 0 ≤ exponent then ofRatio negative (digits * Nat.pow 10 exponent.toNat) 1
    else ofRatio negative digits (Nat.pow 10 (-exponent).toNat)

end Binary64

/-- A positive decimal: the digits of `digits`, of which the first stands at the place
`10^place`. -/
structure Decimal where
  digits : List Char
  place : Int
deriving DecidableEq

namespace Decimal

/-- `10^place` is at most the value. -/
def reaches (units : Nat) (place : Int) : Bool :=
  if 0 ≤ place then Nat.pow 10 place.toNat * unitsPerOne ≤ units
  else unitsPerOne ≤ units * Nat.pow 10 (-place).toNat

/-- The place of the first digit of a positive value. -/
def placeOf (units : Nat) : Int :=
  let estimate := Int.fdiv (((Nat.log2 units : Int) - 1074) * 30103) 100000
  if reaches units (estimate + 1) then estimate + 1
  else if reaches units estimate then estimate
  else estimate - 1

/-- The decimal with the given digits, without zeros at its end. -/
def ofDigits (digits : Nat) (lastPlace : Int) : Decimal :=
  let written := Nat.toDigits 10 digits
  match Cut.dropTrailing (· == '0') written with
  | [] => ⟨['0'], 0⟩
  | significant => ⟨significant, lastPlace + (written.length - 1 : Nat)⟩

/-- The neighbour of `m` on the grid of `count` digits that reads back as `m`, if any. -/
def onGrid? (m : Magnitude) (place : Int) (count : Nat) : Option Decimal :=
  let lastPlace := place - (count - 1 : Nat)
  let num := if lastPlace < 0 then m.units * Nat.pow 10 (-lastPlace).toNat else m.units
  let den := if lastPlace < 0 then unitsPerOne else unitsPerOne * Nat.pow 10 lastPlace.toNat
  let below := num / den
  let rest := num % den
  let readsBack (digits : Nat) : Bool :=
    Binary64.ofDecimal false digits lastPlace == .finite false m
  match readsBack below, readsBack (below + 1) with
  | true, true =>
    let nearer :=
      if 2 * rest < den then below else if den < 2 * rest then below + 1
      else below + below % 2
    some (ofDigits nearer lastPlace)
  | true, false => some (ofDigits below lastPlace)
  | false, true => some (ofDigits (below + 1) lastPlace)
  | false, false => none

/-- The shortest decimal that reads back as the magnitude. -/
def shortest (m : Magnitude) : Decimal :=
  if m.significand = 0 then ⟨['0'], 0⟩
  else
    let place := placeOf m.units
    match (List.range 17).findSome? fun n => onGrid? m place (n + 1) with
    | some d => d
    | none => ofDigits (m.units * Nat.pow 10 1074 / unitsPerOne) (-1074)

/-! ## Layout -/

/-- The exponent part, with a sign and at least two digits. -/
def exponentPart (e : Int) : List Char :=
  let digits := Nat.toDigits 10 e.natAbs
  'e' :: (if e < 0 then '-' else '+') :: (if digits.length < 2 then '0' :: digits else digits)

/-- Numbers from `0.0001` up to sixteen digits before the point are written positionally,
with a digit on both sides of the point; others with an exponent. -/
def render (d : Decimal) : List Char :=
  if -5 < d.place ∧ d.place < 16 then
    if d.place < 0 then
      '0' :: '.' :: List.replicate (-d.place - 1).toNat '0' ++ d.digits
    else
      let whole := d.place.toNat + 1
      let before := d.digits.take whole
      let after := d.digits.drop whole
      before ++ List.replicate (whole - before.length) '0' ++
        '.' :: (if after.isEmpty then ['0'] else after)
  else
    match d.digits with
    | [] => exponentPart d.place
    | [first] => first :: exponentPart d.place
    | first :: rest => first :: '.' :: rest ++ exponentPart d.place

end Decimal

namespace Binary64

/-- The shortest text that reads back as the number. -/
def render : Binary64 → List Char
  | nan => "nan".toList
  | infinite negative => (if negative then "-inf" else "inf").toList
  | finite negative m => (if negative then ['-'] else []) ++ (Decimal.shortest m).render

/-- The number rounded to one place after the point, ties to even. -/
def renderTenths : Binary64 → List Char
  | nan => "nan".toList
  | infinite negative => (if negative then "-inf" else "inf").toList
  | finite negative m =>
    let tenths := halfEven (m.units * 10) unitsPerOne
    (if negative then ['-'] else []) ++ Nat.toDigits 10 (tenths / 10) ++
      '.' :: Nat.toDigits 10 (tenths % 10)

end Binary64

end LanguageClient
