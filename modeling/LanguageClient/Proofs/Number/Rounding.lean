import LanguageClient.Proofs.Number.Place
import LanguageClient.Proofs.Number.Range

/-!
# The double nearest to a ratio

Rounding depends on the ratio alone (`Magnitude.nearest?_scale`), gives a magnitude back for itself
(`Magnitude.nearest?_units`), is zero below half a unit and nothing from `2^2098` units on.  So where
the decimal `digits * 10^exponent` stands is all that counts for the double that is read from it, and
the guard of `ofDecimal` against places that are far away changes nothing (`ofDecimal_eq_exact`): a
decimal may be written with a zero more and an exponent less (`exact_mul_ten`).
-/

namespace LanguageClient

theorem halfEven_scale {num den k : Nat} (hk : 0 < k) :
    halfEven (num * k) (den * k) = halfEven num den := by
  have hbelow : 2 * (num % den * k) < den * k ↔ 2 * (num % den) < den := by
    rw [← Nat.mul_assoc, Nat.mul_lt_mul_right hk]
  have habove : den * k < 2 * (num % den * k) ↔ den < 2 * (num % den) := by
    rw [← Nat.mul_assoc, Nat.mul_lt_mul_right hk]
  unfold halfEven
  simp only [Nat.mul_div_mul_right _ _ hk, Nat.mul_mod_mul_right, hbelow, habove]

theorem halfEven_one_right {num den : Nat} (hden : 0 < den) : halfEven (num * den) den = num := by
  unfold halfEven
  simp [Nat.mul_div_cancel _ hden, hden]

namespace Magnitude

/-- A ratio may be written with other numbers. -/
theorem nearest?_scale {num den k : Nat} (hk : 0 < k) :
    nearest? (num * k) (den * k) = nearest? num den := by
  have hden (power : Nat) : den * k * Nat.pow 2 power = den * Nat.pow 2 power * k :=
    Nat.mul_right_comm _ _ _
  unfold nearest?
  simp only [Nat.mul_div_mul_right _ _ hk, hden, halfEven_scale hk]

/-- The power of a magnitude can be told by its units. -/
theorem log2_units (m : Magnitude) : Nat.log2 m.units - 52 = m.power := by
  obtain ⟨significand, power, hhigh, -, hlow⟩ := m
  have hpow : 0 < Nat.pow 2 power := Nat.pow_pos Nat.two_pos
  have hadd (bits : Nat) : Nat.pow 2 (power + bits) = Nat.pow 2 bits * Nat.pow 2 power := by
    rw [Nat.mul_comm]
    exact Nat.pow_add 2 power bits
  have hupper : significand * Nat.pow 2 power < Nat.pow 2 (power + 53) := by
    rw [hadd]
    exact Nat.mul_lt_mul_of_pos_right hhigh hpow
  change Nat.log2 (significand * Nat.pow 2 power) - 52 = power
  rcases Nat.eq_zero_or_pos significand with rfl | hpos
  · have hpower : power = 0 := hlow.resolve_left (by decide)
    rw [hpower, Nat.zero_mul]
    rfl
  · have hne : significand * Nat.pow 2 power ≠ 0 := (Nat.mul_pos hpos hpow).ne'
    have hlog : Nat.log2 (significand * Nat.pow 2 power) < power + 53 := (Nat.log2_lt hne).mpr hupper
    rcases hlow with hnormal | rfl
    · have hlower : Nat.pow 2 (power + 52) ≤ significand * Nat.pow 2 power := by
        rw [hadd]
        exact Nat.mul_le_mul_right _ hnormal
      have := (Nat.le_log2 hne).mpr hlower
      omega
    · omega

/-- **A magnitude is the nearest one to itself.** -/
theorem nearest?_units (m : Magnitude) : nearest? m.units 1 = some m := by
  have hpower := log2_units m
  obtain ⟨significand, power, hcanonical⟩ := m
  have hhigh := hcanonical.1
  have hrounded : halfEven (significand * Nat.pow 2 power) (Nat.pow 2 power) = significand :=
    halfEven_one_right (Nat.pow_pos Nat.two_pos)
  simp only [units] at hpower ⊢
  unfold nearest?
  simp only [Nat.div_one, Nat.one_mul, hpower, hrounded]
  simp only [if_neg hhigh.ne, dif_pos hcanonical]

/-- Less than half a unit is rounded to zero. -/
theorem nearest?_of_lt {num den : Nat} (h : 2 * num < den) : nearest? num den = some zero := by
  have hquotient : num / den = 0 := Nat.div_eq_of_lt (by omega)
  have hmod : num % den = num := Nat.mod_eq_of_lt (by omega)
  have hrounded : halfEven num (den * Nat.pow 2 0) = 0 := by
    rw [show den * Nat.pow 2 0 = den from Nat.mul_one den, halfEven]
    simp only [hquotient, hmod, if_pos h]
  unfold nearest?
  simp only [hquotient, show Nat.log2 0 - 52 = 0 from rfl, hrounded]
  rfl

/-- What needs a power above the largest one is no magnitude. -/
theorem nearest?_of_ge {num den : Nat} (h : Nat.pow 2 2098 ≤ num / den) :
    nearest? num den = none := by
  generalize hbits : 2098 = bits at h
  have hne : num / den ≠ 0 := by
    intro hzero
    rw [hzero] at h
    exact absurd h (Nat.not_le.mpr (Nat.pow_pos Nat.two_pos))
  have hlog : bits ≤ Nat.log2 (num / den) := (Nat.le_log2 hne).mpr h
  generalize hpower : Nat.log2 (num / den) - 52 = power
  have hlarge (significand : Nat) : ¬ IsCanonical significand power ∧
      ¬ IsCanonical significand (power + 1) :=
    ⟨fun hc => by have := hc.2.1; omega, fun hc => by have := hc.2.1; omega⟩
  unfold nearest?
  simp only [hpower]
  split
  · exact dif_neg (hlarge _).2
  · exact dif_neg (hlarge _).1

end Magnitude

/-! ## Powers of ten between powers of two -/

theorem two_pow_le_ten_pow (n : Nat) : Nat.pow 2 (3 * n) ≤ Nat.pow 10 n := by
  have hpow : Nat.pow 2 (3 * n) = Nat.pow 8 n := Nat.pow_mul 2 3 n
  rw [hpow]
  exact Nat.pow_le_pow_left (by decide) n

/-- Ten is more than `2^(93 / 28)`. -/
theorem two_pow_le_ten_pow' (n : Nat) : Nat.pow 2 (93 * (n / 28)) ≤ Nat.pow 10 n := by
  have htwo : Nat.pow 2 (93 * (n / 28)) = Nat.pow (Nat.pow 2 93) (n / 28) := Nat.pow_mul 2 93 _
  have hten : Nat.pow 10 (28 * (n / 28)) = Nat.pow (Nat.pow 10 28) (n / 28) := Nat.pow_mul 10 28 _
  calc Nat.pow 2 (93 * (n / 28)) = Nat.pow (Nat.pow 2 93) (n / 28) := htwo
    _ ≤ Nat.pow (Nat.pow 10 28) (n / 28) := Nat.pow_le_pow_left (by decide) _
    _ = Nat.pow 10 (28 * (n / 28)) := hten.symm
    _ ≤ Nat.pow 10 n := Nat.pow_le_pow_right (by decide) (Nat.mul_div_le n 28)

/-- Ten is less than `2^(10 / 3)`. -/
theorem ten_pow_le_two_pow (n : Nat) : Nat.pow 10 n ≤ Nat.pow 2 (10 * (n / 3 + 1)) := by
  have htwo : Nat.pow 2 (10 * (n / 3 + 1)) = Nat.pow (Nat.pow 2 10) (n / 3 + 1) :=
    Nat.pow_mul 2 10 _
  have hten : Nat.pow 10 (3 * (n / 3 + 1)) = Nat.pow (Nat.pow 10 3) (n / 3 + 1) :=
    Nat.pow_mul 10 3 _
  calc Nat.pow 10 n ≤ Nat.pow 10 (3 * (n / 3 + 1)) :=
        Nat.pow_le_pow_right (by decide) (by omega)
    _ = Nat.pow (Nat.pow 10 3) (n / 3 + 1) := hten
    _ ≤ Nat.pow (Nat.pow 2 10) (n / 3 + 1) := Nat.pow_le_pow_left (by decide) _
    _ = Nat.pow 2 (10 * (n / 3 + 1)) := htwo.symm

/-! ## Decimals -/

namespace Binary64

/-- A ratio of numbers of units may be written with other numbers. -/
theorem ofUnits_scale {negative : Bool} {num den k : Nat} (hk : 0 < k) (one : Nat) :
    ofUnits negative (num * k * one) (den * k) = ofUnits negative (num * one) den := by
  unfold ofUnits
  rw [Nat.mul_right_comm num k one, Magnitude.nearest?_scale hk]

theorem ofRatio_scale {negative : Bool} {num den k : Nat} (hk : 0 < k) :
    ofRatio negative (num * k) (den * k) = ofRatio negative num den :=
  ofUnits_scale hk unitsPerOne

theorem two_pow_add {m n : Nat} (k : Nat) (h : n = m + k) :
    Nat.pow 2 n = Nat.pow 2 m * Nat.pow 2 k :=
  h ▸ Nat.pow_add 2 m k

theorem two_pow_succ {m n : Nat} (h : n = m + 1) : Nat.pow 2 n = Nat.pow 2 m * 2 :=
  two_pow_add 1 h

/-- From `2^2098` units on there is no magnitude. -/
theorem ofUnits_of_ge {negative : Bool} {num den one bound : Nat} (hden : 0 < den)
    (hbound : Nat.pow 2 2098 = bound * one) (h : bound * den ≤ num) :
    ofUnits negative (num * one) den = infinite negative := by
  have hquotient : bound * one ≤ num * one / den := by
    rw [Nat.le_div_iff_mul_le hden, Nat.mul_right_comm]
    exact Nat.mul_le_mul_right one h
  rw [← hbound] at hquotient
  unfold ofUnits
  rw [Magnitude.nearest?_of_ge hquotient]

/-- From `2^1024` on a ratio is out of range. -/
theorem ofRatio_of_ge {negative : Bool} {num den : Nat} (hden : 0 < den)
    (h : Nat.pow 2 1024 * den ≤ num) : ofRatio negative num den = infinite negative := by
  have hbound := two_pow_add 1074 (show 2098 = 1024 + 1074 by omega)
  have hinfinite (one bound : Nat) (hone : Nat.pow 2 2098 = bound * one)
      (hle : bound * den ≤ num) : ofUnits negative (num * one) den = infinite negative :=
    ofUnits_of_ge hden hone hle
  unfold ofRatio unitsPerOne
  generalize Nat.pow 2 = pow at *
  exact hinfinite _ _ hbound h

/-- Less than half a unit is rounded to zero. -/
theorem ofUnits_of_lt {negative : Bool} {num den one twice : Nat} (htwice : twice = one * 2)
    (h : num * twice < den) : ofUnits negative (num * one) den = finite negative Magnitude.zero := by
  have hhalf : 2 * (num * one) < den := by
    rwa [Nat.mul_comm 2, Nat.mul_assoc, ← htwice]
  unfold ofUnits
  rw [Magnitude.nearest?_of_lt hhalf]

/-- Below `2^-1075` a ratio is rounded to zero. -/
theorem ofRatio_of_lt {negative : Bool} {num den : Nat} (h : num * Nat.pow 2 1075 < den) :
    ofRatio negative num den = finite negative Magnitude.zero := by
  have htwice := two_pow_succ (show 1075 = 1074 + 1 by omega)
  unfold ofRatio unitsPerOne
  generalize Nat.pow 2 = pow at *
  exact ofUnits_of_lt htwice h

/-- The double nearest to `digits * 10^exponent`, without regard to how far away that is. -/
def exact (negative : Bool) (digits : Nat) (exponent : Int) : Binary64 :=
  if 0 ≤ exponent then ofRatio negative (digits * Nat.pow 10 exponent.toNat) 1
  else ofRatio negative digits (Nat.pow 10 (-exponent).toNat)

theorem exact_natCast (negative : Bool) (digits n : Nat) :
    exact negative digits n = ofRatio negative (digits * Nat.pow 10 n) 1 := by
  rw [exact, if_pos (Int.natCast_nonneg n), Int.toNat_natCast]

theorem exact_neg_natCast (negative : Bool) (digits n : Nat) :
    exact negative digits (-n) = ofRatio negative digits (Nat.pow 10 n) := by
  cases n with
  | zero => exact (exact_natCast negative digits 0).trans (by rw [show Nat.pow 10 0 = 1 from rfl,
      Nat.mul_one])
  | succ n => rw [exact, if_neg (by omega), Int.neg_neg, Int.toNat_natCast]

/-- A zero more and an exponent less give the same decimal. -/
theorem exact_mul_ten (negative : Bool) (digits : Nat) (exponent : Int) :
    exact negative (digits * 10) exponent = exact negative digits (exponent + 1) := by
  rcases lt_or_ge exponent 0 with hneg | hnonneg
  · obtain ⟨n, rfl⟩ : ∃ n : Nat, exponent = -(n + 1 : Nat) := ⟨(-exponent - 1).toNat, by omega⟩
    rw [show -((n + 1 : Nat) : Int) + 1 = -(n : Int) by omega, exact_neg_natCast,
      exact_neg_natCast, show Nat.pow 10 (n + 1) = Nat.pow 10 n * 10 from rfl,
      ofRatio_scale (by decide)]
  · obtain ⟨n, rfl⟩ := Int.eq_ofNat_of_zero_le hnonneg
    rw [exact_natCast, show (n : Int) + 1 = (n + 1 : Nat) from rfl, exact_natCast, Nat.mul_assoc,
      Nat.mul_comm 10]
    rfl

/-- Any number of zeros more. -/
theorem exact_mul_pow_ten (negative : Bool) (digits zeros : Nat) (exponent : Int) :
    exact negative (digits * Nat.pow 10 zeros) exponent =
      exact negative digits (exponent + zeros) := by
  induction zeros generalizing exponent with
  | zero => rw [show Nat.pow 10 0 = 1 from rfl, Nat.mul_one, Int.natCast_zero, Int.add_zero]
  | succ zeros ih =>
      rw [show Nat.pow 10 (zeros + 1) = Nat.pow 10 zeros * 10 from rfl, ← Nat.mul_assoc,
        exact_mul_ten, ih]
      congr 1
      omega

/-- A decimal whose first place is far up is out of range. -/
theorem exact_of_far {digits : Nat} {exponent : Int} (negative : Bool) (hdigits : digits ≠ 0)
    (hexponent : -5000 ≤ exponent)
    (hfar : 400 < (Nat.log2 digits : Int) * 30103 / 100000 + exponent) :
    exact negative digits exponent = infinite negative := by
  have hlog : Nat.pow 2 (Nat.log2 digits) ≤ digits := Nat.log2_self_le hdigits
  have hmono (a b : Nat) (hab : a ≤ b) : Nat.pow 2 a ≤ Nat.pow 2 b :=
    Nat.pow_le_pow_right Nat.two_pos hab
  have hadd (a b : Nat) : Nat.pow 2 (a + b) = Nat.pow 2 a * Nat.pow 2 b := Nat.pow_add 2 a b
  have hinfinite (num den : Nat) (hden : 0 < den) (h : Nat.pow 2 1024 * den ≤ num) :
      ofRatio negative num den = infinite negative := ofRatio_of_ge hden h
  have htwo := two_pow_le_ten_pow
  have hten := ten_pow_le_two_pow
  generalize Nat.log2 digits = log at *
  generalize Nat.pow 2 = pow at *
  rcases lt_or_ge exponent 0 with hneg | hnonneg
  · obtain ⟨n, rfl⟩ : ∃ n : Nat, exponent = -(n : Nat) := ⟨(-exponent).toNat, by omega⟩
    rw [exact_neg_natCast]
    apply hinfinite _ _ (Nat.pow_pos (by decide))
    calc pow 1024 * Nat.pow 10 n ≤ pow 1024 * pow (10 * (n / 3 + 1)) :=
          Nat.mul_le_mul_left _ (hten n)
      _ = pow (1024 + 10 * (n / 3 + 1)) := (hadd _ _).symm
      _ ≤ pow log := hmono _ _ (by omega)
      _ ≤ digits := hlog
  · obtain ⟨n, rfl⟩ := Int.eq_ofNat_of_zero_le hnonneg
    rw [exact_natCast]
    apply hinfinite _ _ Nat.one_pos
    rw [Nat.mul_one]
    calc pow 1024 ≤ pow (log + 3 * n) := hmono _ _ (by omega)
      _ = pow log * pow (3 * n) := hadd _ _
      _ ≤ digits * Nat.pow 10 n := Nat.mul_le_mul hlog (htwo n)

/-- A decimal whose first place is far down is rounded to zero. -/
theorem exact_of_near {digits : Nat} {exponent : Int} (negative : Bool)
    (hexponent : -5000 ≤ exponent)
    (hnear : (Nat.log2 digits : Int) * 30103 / 100000 + exponent < -400) :
    exact negative digits exponent = finite negative Magnitude.zero := by
  obtain ⟨n, rfl⟩ : ∃ n : Nat, exponent = -(n : Nat) := ⟨(-exponent).toNat, by omega⟩
  have hlog : digits < Nat.pow 2 (Nat.log2 digits + 1) := Nat.lt_log2_self
  generalize Nat.log2 digits = log at *
  rw [exact_neg_natCast]
  apply ofRatio_of_lt
  generalize hhalf : 1075 = half
  calc digits * Nat.pow 2 half
      < Nat.pow 2 (log + 1) * Nat.pow 2 half :=
        Nat.mul_lt_mul_of_pos_right hlog (Nat.pow_pos Nat.two_pos)
    _ = Nat.pow 2 (log + 1 + half) := (Nat.pow_add 2 _ _).symm
    _ ≤ Nat.pow 2 (93 * (n / 28)) := Nat.pow_le_pow_right Nat.two_pos (by omega)
    _ ≤ Nat.pow 10 n := two_pow_le_ten_pow' n

/-- **The guard against far places changes nothing.** -/
theorem ofDecimal_eq_exact {digits : Nat} {exponent : Int} (negative : Bool) (hdigits : digits ≠ 0)
    (hexponent : -5000 ≤ exponent) :
    ofDecimal negative digits exponent = exact negative digits exponent := by
  unfold ofDecimal decimalSpan
  rw [if_neg hdigits]
  dsimp only
  split
  next hfar => exact (exact_of_far negative hdigits hexponent hfar).symm
  next =>
    split
    next hnear => exact (exact_of_near negative hexponent hnear).symm
    next => rfl

end Binary64

end LanguageClient
