/-!
# Double-precision numbers

Every finite double is a whole number of units of `2^-1074`, so comparison and
addition are questions about integers, and every operation that rounds is one
division rounded to nearest, ties to even.

The type is built from natural numbers alone.  Its values can be computed with
in proofs, and two of them are equal exactly when they are the same number
with the same sign of zero.
-/

namespace LanguageClient

/-- The significands and powers that a finite double has: the significand has 53 bits,
unless the power is the least one. -/
def IsCanonical (significand power : Nat) : Prop :=
  significand < Nat.pow 2 53 ∧ power ≤ 2045 ∧ (Nat.pow 2 52 ≤ significand ∨ power = 0)

instance (significand power : Nat) : Decidable (IsCanonical significand power) :=
  inferInstanceAs (Decidable (_ ∧ _ ∧ (_ ∨ _)))

/-- The absolute value of a finite double: `significand * 2^power` units. -/
structure Magnitude where
  significand : Nat
  power : Nat
  canonical : IsCanonical significand power
deriving DecidableEq

inductive Binary64 where
  | nan
  | infinite (negative : Bool)
  | finite (negative : Bool) (magnitude : Magnitude)
deriving DecidableEq

/-- The quotient rounded to the nearest natural number, ties to even. -/
def halfEven (num den : Nat) : Nat :=
  let q := num / den
  let r := num % den
  if 2 * r < den then q else if den < 2 * r then q + 1 else q + q % 2

/-- The number of units in one. -/
def unitsPerOne : Nat := Nat.pow 2 1074

namespace Magnitude

/-- The magnitude as a number of units. -/
def units (m : Magnitude) : Nat := m.significand * Nat.pow 2 m.power

def zero : Magnitude := ⟨0, 0, by decide⟩

/-- The magnitude nearest to `num / den` units, unless it is too large. -/
def nearest? (num den : Nat) : Option Magnitude :=
  let power := Nat.log2 (num / den) - 52
  let significand := halfEven num (den * Nat.pow 2 power)
  let (significand, power) :=
    if significand = Nat.pow 2 53 then (Nat.pow 2 52, power + 1) else (significand, power)
  if h : IsCanonical significand power then some ⟨significand, power, h⟩ else none

end Magnitude

namespace Binary64

/-- The double nearest to `num / den` units. -/
def ofUnits (negative : Bool) (num den : Nat) : Binary64 :=
  match Magnitude.nearest? num den with
  | some m => finite negative m
  | none => infinite negative

/-- The double nearest to `num / den`. -/
def ofRatio (negative : Bool) (num den : Nat) : Binary64 := ofUnits negative (num * unitsPerOne) den

/-- The double nearest to an integer. -/
def ofInt (n : Int) : Binary64 := ofRatio (n < 0) n.natAbs 1

def zero : Binary64 := finite false Magnitude.zero

/-- The sign bit; the sign of a NaN is not kept. -/
def isNegative : Binary64 → Bool
  | nan => false
  | infinite negative => negative
  | finite negative _ => negative

/-! ## Order -/

/-- The numbers that can be compared: the integers of units, with two ends. -/
inductive Extended where
  | bottom
  | units (n : Int)
  | top
deriving DecidableEq

/-- The place of a double on the line; a NaN has none. -/
def extended? : Binary64 → Option Extended
  | nan => none
  | infinite negative => some (if negative then .bottom else .top)
  | finite negative m => some (.units (if negative then -m.units else m.units))

/-- An integer on the line of doubles. -/
def Extended.ofInt (n : Int) : Extended := .units (n * unitsPerOne)

/-- The strict order of the line. -/
def Extended.lt : Extended → Extended → Bool
  | .units a, .units b => a < b
  | .bottom, .bottom => false
  | .bottom, _ => true
  | _, .bottom => false
  | .top, _ => false
  | _, .top => true

/-- The first number is less than the second; never when one is a NaN. -/
def lt (a b : Binary64) : Bool :=
  match a.extended?, b.extended? with
  | some a, some b => a.lt b
  | _, _ => false

/-- The numbers are equal as numbers: zeros of both signs are, a NaN never is. -/
def same (a b : Binary64) : Bool :=
  match a.extended?, b.extended? with
  | some a, some b => a == b
  | _, _ => false

/-! ## Arithmetic -/

/-- The exact sum, rounded. -/
def add : Binary64 → Binary64 → Binary64
  | nan, _ => nan
  | _, nan => nan
  | infinite a, infinite b => if a = b then infinite a else nan
  | infinite a, _ => infinite a
  | _, infinite b => infinite b
  | finite a m, finite b n =>
    let left : Int := if a then -m.units else m.units
    let right : Int := if b then -n.units else n.units
    let sum := left + right
    if sum = 0 then finite (a && b) Magnitude.zero
    else ofUnits (sum < 0) sum.natAbs 1

/-- The number with the other sign. -/
def neg : Binary64 → Binary64
  | nan => nan
  | infinite negative => infinite !negative
  | finite negative m => finite (!negative) m

/-- The exact product, rounded. -/
def mul : Binary64 → Binary64 → Binary64
  | nan, _ => nan
  | _, nan => nan
  | infinite a, infinite b => infinite (a != b)
  | infinite a, finite b m => if m.significand = 0 then nan else infinite (a != b)
  | finite a m, infinite b => if m.significand = 0 then nan else infinite (a != b)
  | finite a m, finite b n => ofUnits (a != b) (m.units * n.units) unitsPerOne

/-- The integer of a double that has no fraction. -/
def toInt? : Binary64 → Option Int
  | finite negative m =>
    if m.units % unitsPerOne = 0 then
      let n : Int := m.units / unitsPerOne
      some (if negative then -n else n)
    else none
  | _ => none

/-- The integer part of a finite double. -/
def truncate? : Binary64 → Option Int
  | finite negative m =>
    let n : Int := m.units / unitsPerOne
    some (if negative then -n else n)
  | _ => none

end Binary64

end LanguageClient
