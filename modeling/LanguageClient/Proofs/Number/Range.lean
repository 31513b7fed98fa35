import LanguageClient.Number.Binary64
import LanguageClient.Number.Reading
import Mathlib.Data.Nat.Log

/-!
# Which integers are out of range

An integer can be too large in two ways: no finite double is near it, or it has more digits than are
ever written.  Main statements: `Binary64.ofInt_eq_infinite_iff`, `Reading.isWritable_eq_false_iff`.

## Strategy

A magnitude is rounded to a multiple of `2^power`, where the power leaves 53 bits of it.  So its
significand is not less than `2^52` and at most `2^53`, and what is too large is the power.  At the
largest power that happens when the significand is rounded up to `2^53`, half a step below the next
power of two.
-/

namespace LanguageClient

/-! ## Rounding -/

theorem halfEven_cases (num den : Nat) :
    halfEven num den = num / den ∧ 2 * (num % den) ≤ den ∨
      halfEven num den = num / den + 1 ∧ den ≤ 2 * (num % den) := by
  unfold halfEven
  dsimp only
  split
  · exact Or.inl ⟨rfl, by omega⟩
  · split
    · exact Or.inr ⟨rfl, by omega⟩
    · rcases Nat.mod_two_eq_zero_or_one (num / den) with h | h
      · exact Or.inl ⟨by rw [h, Nat.add_zero], by omega⟩
      · exact Or.inr ⟨by rw [h], by omega⟩

/-- An odd quotient is rounded up from the middle on. -/
theorem halfEven_of_odd {num den : Nat} (hodd : num / den % 2 = 1) :
    halfEven num den = if den ≤ 2 * (num % den) then num / den + 1 else num / den := by
  unfold halfEven
  dsimp only
  rw [hodd]
  by_cases hmiddle : den ≤ 2 * (num % den)
  · rw [if_pos hmiddle, if_neg (by omega), ite_self]
  · rw [if_neg hmiddle, if_pos (by omega)]

/-- A quotient below an even bound becomes the bound from half a step below it on. -/
theorem halfEven_eq_bound_iff {num den half : Nat} (hnum : num < den * (2 * half)) :
    halfEven num den = 2 * half ↔ 2 * (den * (2 * half)) ≤ 2 * num + den := by
  have hquotient : num / den < 2 * half := Nat.div_lt_of_lt_mul hnum
  have hden : 0 < den := Nat.pos_of_ne_zero fun h => by simp [h] at hnum
  have hdivision := Nat.div_add_mod num den
  have hremainder := Nat.mod_lt num hden
  have hsucc : den * (num / den + 1) = den * (num / den) + den := Nat.mul_succ _ _
  rcases Nat.lt_or_ge (num / den + 1) (2 * half) with hfar | hlast
  · have hstep : den * (num / den + 2) ≤ den * (2 * half) := Nat.mul_le_mul_left den hfar
    have hsucc' : den * (num / den + 2) = den * (num / den + 1) + den := Nat.mul_succ _ _
    rcases halfEven_cases num den with ⟨h, -⟩ | ⟨h, -⟩ <;> rw [h] <;> constructor <;> omega
  · have hlast : num / den + 1 = 2 * half := by omega
    rw [halfEven_of_odd (by omega), ← hlast]
    split <;> constructor <;> omega

namespace Magnitude

theorem isCanonical_iff {significand power : Nat} (hlow : Nat.pow 2 52 ≤ significand ∨ power = 0)
    (hhigh : significand < Nat.pow 2 53) : IsCanonical significand power ↔ power ≤ 2045 :=
  ⟨fun h => h.2.1, fun h => ⟨hhigh, h, hlow⟩⟩

/-- Whether a rounded quotient fits is a matter of the power. -/
theorem nearest?_eq_none_of {units power significand : Nat} (hpower : Nat.log2 units - 52 = power)
    (hsignificand : halfEven units (Nat.pow 2 power) = significand)
    (hlow : Nat.pow 2 52 ≤ significand ∨ power = 0) (hhigh : significand ≤ Nat.pow 2 53) :
    nearest? units 1 = none ↔
      2045 < if significand = Nat.pow 2 53 then power + 1 else power := by
  unfold nearest?
  simp only [Nat.div_one, Nat.one_mul, hpower, hsignificand]
  by_cases hcarry : significand = Nat.pow 2 53
  · simp only [if_pos hcarry, dite_eq_right_iff, reduceCtorEq]
    rw [imp_false, isCanonical_iff (Or.inl (Nat.le_refl _)) (by decide), Nat.not_le]
  · simp only [if_neg hcarry, dite_eq_right_iff, reduceCtorEq]
    rw [imp_false, isCanonical_iff hlow (Nat.lt_of_le_of_ne hhigh hcarry), Nat.not_le]

/-- The power of a magnitude that needs more than 53 bits. -/
theorem pow_log2_le {units : Nat} (h : Nat.pow 2 53 ≤ units) :
    Nat.pow 2 (Nat.log2 units - 52 + 52) ≤ units ∧ units < Nat.pow 2 (Nat.log2 units - 52 + 53) := by
  have hne : units ≠ 0 := by
    rintro rfl
    exact absurd h (by decide)
  have hlog : 53 ≤ Nat.log2 units := (Nat.le_log2 hne).mpr h
  rw [show Nat.log2 units - 52 + 52 = Nat.log2 units by omega,
    show Nat.log2 units - 52 + 53 = Nat.log2 units + 1 by omega]
  exact ⟨Nat.log2_self_le hne, Nat.lt_log2_self⟩

/-- **A magnitude is too large from half a step below the next power of two on.** -/
theorem nearest?_eq_none_iff (units : Nat) :
    nearest? units 1 = none ↔ Nat.pow 2 2098 ≤ units + Nat.pow 2 2044 := by
  have hmono (m n : Nat) (h : m ≤ n) : Nat.pow 2 m ≤ Nat.pow 2 n :=
    Nat.pow_le_pow_right Nat.two_pos h
  have hsucc (m n : Nat) (h : n = m + 1) : Nat.pow 2 n = Nat.pow 2 m * 2 := by rw [h]; rfl
  have htop := hsucc 2097 2098 rfl
  have htop' := hsucc 2096 2097 rfl
  have hhalf := hmono 2044 2096 (by decide)
  rcases Nat.lt_or_ge units (Nat.pow 2 53) with hsmall | hlarge
  · have hpower : Nat.log2 units - 52 = 0 := by
      rcases Nat.eq_zero_or_pos units with rfl | hpos
      · rfl
      · have := (Nat.log2_lt hpos.ne').mpr hsmall
        omega
    have hexact : halfEven units (Nat.pow 2 0) = units := by
      simp [halfEven, Nat.mod_one]
    rw [nearest?_eq_none_of hpower hexact (Or.inr rfl) hsmall.le, if_neg hsmall.ne]
    have hsmaller := hmono 53 2096 (by decide)
    generalize Nat.pow 2 = pow at *
    omega
  · obtain ⟨hlow, hhigh⟩ := pow_log2_le hlarge
    generalize hpower : Nat.log2 units - 52 = power at hlow hhigh
    have hstep (bits : Nat) : Nat.pow 2 (power + bits) = Nat.pow 2 power * Nat.pow 2 bits :=
      Nat.pow_add 2 power bits
    have hpos : 0 < Nat.pow 2 power := Nat.pow_pos Nat.two_pos
    have hquotient : Nat.pow 2 52 ≤ units / Nat.pow 2 power := by
      rw [Nat.le_div_iff_mul_le hpos, Nat.mul_comm, ← hstep]
      exact hlow
    have hquotient' : units / Nat.pow 2 power < Nat.pow 2 53 :=
      Nat.div_lt_of_lt_mul (hstep 53 ▸ hhigh)
    have hbits : Nat.pow 2 53 = 2 * Nat.pow 2 52 := Nat.mul_comm _ _
    have hcases := halfEven_cases units (Nat.pow 2 power)
    have hcarry : halfEven units (Nat.pow 2 power) = Nat.pow 2 53 ↔
        2 * Nat.pow 2 (power + 53) ≤ 2 * units + Nat.pow 2 power := by
      rw [hstep, hbits]
      exact halfEven_eq_bound_iff (by rwa [hstep, hbits] at hhigh)
    rw [nearest?_eq_none_of hpower rfl (Or.inl (by omega)) (by omega)]
    -- The powers are too large to be computed; only how they compare matters from here on.
    generalize Nat.pow 2 = pow at *
    rcases Nat.lt_trichotomy power 2045 with hbelow | hlast | habove
    · have hbound := hmono (power + 53) 2097 (by omega)
      split <;> omega
    · have hbound : pow (power + 53) = pow 2098 := congrArg pow (by omega)
      have hmiddle := hsucc 2044 power hlast
      split <;> omega
    · have hbound := hmono 2098 (power + 52) (by omega)
      split <;> omega

end Magnitude

/-! ## Integers -/

namespace Binary64

/-- The integer is at least half a step above the largest double. -/
def IsOutOfRange (n : Int) : Prop := Nat.pow 2 1024 ≤ n.natAbs + Nat.pow 2 970

/-- The bound of a magnitude, as a bound of an integer. -/
theorem pow_le_units_iff (n : Nat) :
    Nat.pow 2 2098 ≤ n * unitsPerOne + Nat.pow 2 2044 ↔ Nat.pow 2 1024 ≤ n + Nat.pow 2 970 := by
  have hadd (m k l : Nat) (h : l = m + k) : Nat.pow 2 l = Nat.pow 2 m * Nat.pow 2 k :=
    h ▸ Nat.pow_add 2 m k
  have htop := hadd 1024 1074 2098 (by omega)
  have hhalf := hadd 970 1074 2044 (by omega)
  have hpos (k : Nat) : 0 < Nat.pow 2 k := Nat.pow_pos Nat.two_pos
  have hunit := hpos 1074
  unfold unitsPerOne
  generalize Nat.pow 2 = pow at *
  rw [htop, hhalf, ← Nat.add_mul, Nat.mul_le_mul_right_iff hunit]

theorem ofUnits_eq_infinite_iff (negative : Bool) (num den : Nat) :
    (∃ sign, ofUnits negative num den = .infinite sign) ↔ Magnitude.nearest? num den = none := by
  unfold ofUnits
  cases Magnitude.nearest? num den <;> simp

theorem ofRatio_eq_infinite_iff (negative : Bool) (num den : Nat) :
    (∃ sign, ofRatio negative num den = .infinite sign) ↔
      Magnitude.nearest? (num * unitsPerOne) den = none := by
  rw [ofRatio]
  exact ofUnits_eq_infinite_iff negative _ den

/-- **No double is near an integer if and only if it is out of range.** -/
theorem ofInt_eq_infinite_iff (n : Int) :
    (∃ sign, ofInt n = .infinite sign) ↔ IsOutOfRange n := by
  have hlarge := Magnitude.nearest?_eq_none_iff (n.natAbs * unitsPerOne)
  have hinteger := pow_le_units_iff n.natAbs
  unfold IsOutOfRange
  generalize Nat.pow 2 = pow at *
  rw [ofInt, ofRatio_eq_infinite_iff, hlarge, hinteger]

end Binary64

namespace Reading

/-- The integer has more than 4300 digits. -/
def IsTooLong (n : Int) : Prop := Nat.pow 10 4300 ≤ n.natAbs

/-- **An integer cannot be written if and only if it is too long.** -/
theorem isWritable_eq_false_iff (n : Int) : isWritable n = false ↔ IsTooLong n := by
  have hlength (digits : Nat) (h : 0 < digits) :
      (Nat.toDigits 10 n.natAbs).length ≤ digits ↔ n.natAbs < Nat.pow 10 digits :=
    Nat.length_toDigits_le_iff (by decide) h
  have hlimit := hlength 4300 (by decide)
  unfold isWritable digitLimit IsTooLong
  generalize Nat.pow 10 = pow at *
  rw [decide_eq_false_iff_not, hlimit, Nat.not_lt]

end Reading

end LanguageClient
