import LanguageClient.Number.Binary64

/-!
# Integers on the line of doubles

Integers and doubles are compared by their places on one line, on which two integers are apart
(`Extended.ofInt_injective`) and in their own order (`Extended.lt_ofInt`).  A double has no fraction
exactly if it lies where an integer lies (`toInt?_eq_some_iff`).
-/

namespace LanguageClient

theorem unitsPerOne_pos : 0 < unitsPerOne := by
  delta unitsPerOne
  generalize 1074 = n
  exact Nat.two_pow_pos n

theorem unitsPerOne_ne_zero : (unitsPerOne : Int) ≠ 0 := by
  have := unitsPerOne_pos
  omega

namespace Binary64

theorem Extended.ofInt_injective {n n' : Int} (h : ofInt n = ofInt n') : n = n' := by
  have hunits : n * unitsPerOne = n' * unitsPerOne := by injection h
  exact Int.eq_of_mul_eq_mul_right unitsPerOne_ne_zero hunits

theorem Extended.lt_ofInt (n n' : Int) : (ofInt n).lt (ofInt n') = decide (n < n') := by
  have hpos : (0 : Int) < unitsPerOne := by
    have := unitsPerOne_pos
    omega
  exact decide_eq_decide.mpr (Int.mul_lt_mul_right hpos)

/-- The quotient of a number of units with a sign, if there is no remainder. -/
theorem signed_quotient_iff {one : Nat} (hpos : 0 < one) (negative : Bool) (units : Nat) (n : Int) :
    (if units % one = 0 then
        let q : Int := (units / one : Nat)
        some (if negative then -q else q)
      else none) = some n ↔
      (if negative then -(units : Int) else units) = n * one := by
  have hne : (one : Int) ≠ 0 := by omega
  by_cases hdvd : one ∣ units
  · obtain ⟨q, rfl⟩ := hdvd
    rw [if_pos (Nat.mul_mod_right one q), Nat.mul_div_cancel_left q hpos, Option.some.injEq]
    have hsigned : (if negative then -((one * q : Nat) : Int) else (one * q : Nat)) =
        (if negative then -(q : Int) else q) * one := by
      rw [Int.natCast_mul, Int.mul_comm (one : Int)]
      cases negative with
      | true => exact (Int.neg_mul _ _).symm
      | false => rfl
    rw [hsigned]
    exact (Int.mul_eq_mul_right_iff hne).symm
  · rw [if_neg fun hmod => hdvd (Nat.dvd_of_mod_eq_zero hmod)]
    refine iff_of_false (by simp) ?_
    intro h
    apply hdvd
    apply Int.natCast_dvd_natCast.mp
    have hsigned : (one : Int) ∣ if negative then -(units : Int) else units :=
      ⟨n, by rw [h, Int.mul_comm]⟩
    cases negative with
    | true => exact Int.dvd_neg.mp hsigned
    | false => exact hsigned

/-- **A double has no fraction if and only if an integer lies in the same place.** -/
theorem toInt?_eq_some_iff {x : Binary64} {n : Int} :
    x.toInt? = some n ↔ x.extended? = some (.ofInt n) := by
  cases x with
  | nan => exact iff_of_false nofun nofun
  | infinite negative =>
      refine iff_of_false nofun ?_
      cases negative <;> nofun
  | finite negative m =>
      simp only [extended?, Extended.ofInt, Option.some.injEq, Extended.units.injEq]
      exact signed_quotient_iff unitsPerOne_pos negative m.units n

end Binary64

end LanguageClient
