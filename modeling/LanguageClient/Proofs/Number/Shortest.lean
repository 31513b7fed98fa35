import LanguageClient.Proofs.Number.Reading
import LanguageClient.Proofs.Number.Rounding

/-!
# The shortest decimal is read back

The search of `Decimal.shortest` gives a point of a grid only if it reads back as the magnitude, and
where no grid has one, the magnitude's own decimal with all of its 1074 places takes its place: so in
any case the digits spell the magnitude (`Decimal.Spells`).  Whatever form they are written in, with
zeros around them, with an exponent or with neither, they are still the same decimal
(`Decimal.Spells.render`), since the nearest double depends on the ratio alone.

A number that is written is described by its parts, `Numeral`; the form with a single digit before an
exponent is the only one without a point.
-/

namespace LanguageClient

namespace Reading

/-! ## Zeros on either side -/

theorem natOfDigits_append_zeros (digits : List Char) (zeros : Nat) :
    natOfDigits (digits ++ List.replicate zeros '0') = natOfDigits digits * Nat.pow 10 zeros := by
  induction zeros with
  | zero => simp [natOfDigits]
  | succ zeros ih =>
      have hlast (cs : List Char) : natOfDigits (cs ++ ['0']) = natOfDigits cs * 10 := by
        simp [natOfDigits]
      rw [List.replicate_succ', ← List.append_assoc, hlast, ih, Nat.mul_assoc]
      rfl

theorem natOfDigits_zeros_append (zeros : Nat) (digits : List Char) :
    natOfDigits (List.replicate zeros '0' ++ digits) = natOfDigits digits := by
  induction zeros with
  | zero => rfl
  | succ zeros ih => rw [List.replicate_succ, List.cons_append, ← ih]; rfl

end Reading

open Reading Binary64

namespace Decimal

/-- The place of the last digit. -/
def lastPlace (d : Decimal) : Int := d.place - (d.digits.length - 1 : Nat)

/-- The digits and their place are a decimal whose nearest double is the magnitude. -/
structure Spells (d : Decimal) (m : Magnitude) : Prop where
  nonempty : d.digits ≠ []
  isDigit : ∀ c ∈ d.digits, c.isDigit
  nonzero : natOfDigits d.digits ≠ 0
  low : -2000 ≤ d.lastPlace
  exact : exact false (natOfDigits d.digits) d.lastPlace = .finite false m

/-! ## The digits -/

/-- The zeros at the end of a number, and what stands before them. -/
theorem exists_zeros (written : List Char) : ∃ zeros,
    written = Cut.dropTrailing (· == '0') written ++ List.replicate zeros '0' := by
  refine ⟨(written.reverse.takeWhile (· == '0')).length, ?_⟩
  have hzeros : written.reverse.takeWhile (· == '0') =
      List.replicate (written.reverse.takeWhile (· == '0')).length '0' := by
    apply List.eq_replicate_iff.mpr
    refine ⟨rfl, ?_⟩
    intro c hc
    simpa using List.mem_takeWhile_imp hc
  calc written = written.reverse.reverse := (List.reverse_reverse _).symm
    _ = (written.reverse.takeWhile (· == '0') ++ written.reverse.dropWhile (· == '0')).reverse := by
        rw [List.takeWhile_append_dropWhile]
    _ = Cut.dropTrailing (· == '0') written ++
          (written.reverse.takeWhile (· == '0')).reverse := List.reverse_append
    _ = _ := by
        rw [hzeros, List.reverse_replicate, List.length_replicate]

/-- Leaving zeros out at the end does not change a decimal. -/
theorem spells_ofDigits {digits : Nat} {last : Int} {m : Magnitude} (hdigits : digits ≠ 0)
    (hlow : -2000 ≤ last) (hexact : exact false digits last = .finite false m) :
    (ofDigits digits last).Spells m := by
  obtain ⟨zeros, hzeros⟩ := exists_zeros (Nat.toDigits 10 digits)
  have hvalue := natOfDigits_toDigits digits
  have hisDigit : ∀ c ∈ Nat.toDigits 10 digits, c.isDigit := fun _ hc => isDigit_of_mem_toDigits hc
  unfold ofDigits
  dsimp only
  generalize Nat.toDigits 10 digits = written at *
  generalize Cut.dropTrailing (· == '0') written = significant at *
  subst hzeros
  rw [natOfDigits_append_zeros] at hvalue
  cases significant with
  | nil => exact absurd (by simpa [natOfDigits] using hvalue.symm) hdigits
  | cons first rest =>
      have hplace : last + (((first :: rest) ++ List.replicate zeros '0').length - 1 : Nat) -
          ((first :: rest).length - 1 : Nat) = last + zeros := by
        simp only [List.length_append, List.length_replicate, List.length_cons]
        omega
      refine ⟨by simp, ?_, ?_, ?_, ?_⟩
      · intro c hc
        exact hisDigit c (List.mem_append_left _ hc)
      · intro hzero
        rw [hzero, Nat.zero_mul] at hvalue
        exact hdigits hvalue.symm
      · unfold lastPlace
        dsimp only
        omega
      · unfold lastPlace
        dsimp only
        rw [hplace, ← exact_mul_pow_ten, hvalue, hexact]

/-! ## The search -/

/-- The first place of a double is not far below the least unit. -/
theorem le_placeOf (units : Nat) : -325 ≤ placeOf units := by
  unfold placeOf
  rw [Int.fdiv_eq_ediv_of_nonneg _ (by decide)]
  dsimp only
  split
  · omega
  · split <;> omega

theorem nonzero_of_ofDecimal {digits : Nat} {last : Int} {m : Magnitude} (hm : m.significand ≠ 0)
    (h : ofDecimal false digits last = .finite false m) : digits ≠ 0 := by
  rintro rfl
  rw [ofDecimal, if_pos rfl] at h
  injection h with _ hzero
  exact hm (by rw [← hzero]; rfl)

/-- What a grid gives reads back. -/
theorem spells_of_onGrid? {m : Magnitude} (hm : m.significand ≠ 0) {place : Int} {count : Nat}
    (hlow : -2000 ≤ place - (count - 1 : Nat)) {d : Decimal} (h : onGrid? m place count = some d) :
    d.Spells m := by
  unfold onGrid? at h
  generalize hlast : place - ((count - 1 : Nat) : Int) = last at h hlow
  have hreads (digits : Nat)
      (hback : (ofDecimal false digits last == .finite false m) = true) :
      (ofDigits digits last).Spells m := by
    have heq : ofDecimal false digits last = .finite false m := eq_of_beq hback
    have hdigits := nonzero_of_ofDecimal hm heq
    apply spells_ofDigits hdigits hlow
    rw [← ofDecimal_eq_exact false hdigits (by omega), heq]
  dsimp only at h
  generalize (if last < 0 then m.units * Nat.pow 10 (-last).toNat else m.units) = num at h
  generalize (if last < 0 then unitsPerOne else unitsPerOne * Nat.pow 10 last.toNat) = den at h
  split at h
  next hbelow habove =>
    obtain rfl := Option.some.inj h
    split
    · exact hreads _ hbelow
    · split
      · exact hreads _ habove
      · rcases Nat.mod_two_eq_zero_or_one (num / den) with heven | hodd
        · rw [heven]
          exact hreads _ hbelow
        · rw [hodd]
          exact hreads _ habove
  next hbelow _ =>
    obtain rfl := Option.some.inj h
    exact hreads _ hbelow
  next habove =>
    obtain rfl := Option.some.inj h
    exact hreads _ habove
  next => cases h

theorem units_ne_zero {m : Magnitude} (hm : m.significand ≠ 0) : m.units ≠ 0 :=
  Nat.mul_ne_zero hm (Nat.pow_pos Nat.two_pos).ne'

/-- The decimal with all places of a unit is exact, since ten is a multiple of two. -/
theorem spells_of_allPlaces {m : Magnitude} (hm : m.significand ≠ 0) {one five ten : Nat}
    {last : Int} (hone : 0 < one) (hfive : 0 < five) (hten : ten = five * one) (hlow : -2000 ≤ last)
    (hratio : ∀ digits, exact false digits last = ofUnits false (digits * one) ten) :
    (ofDigits (m.units * ten / one) last).Spells m := by
  have hquotient : m.units * ten / one = m.units * five := by
    rw [hten, ← Nat.mul_assoc, Nat.mul_div_cancel _ hone]
  have hpos : 0 < ten := hten ▸ Nat.mul_pos hfive hone
  have hnearest : Magnitude.nearest? (m.units * five * one) ten = some m := by
    calc Magnitude.nearest? (m.units * five * one) ten
        = Magnitude.nearest? (m.units * ten) (1 * ten) := by rw [Nat.one_mul, hten, Nat.mul_assoc]
      _ = Magnitude.nearest? m.units 1 := Magnitude.nearest?_scale hpos
      _ = some m := Magnitude.nearest?_units m
  rw [hquotient]
  apply spells_ofDigits (Nat.mul_ne_zero (units_ne_zero hm) hfive.ne') hlow
  rw [hratio]
  unfold ofUnits
  rw [hnearest]

theorem spells_allPlaces {m : Magnitude} (hm : m.significand ≠ 0) :
    (ofDigits (m.units * Nat.pow 10 1074 / unitsPerOne) (-1074)).Spells m := by
  have hpow (n : Nat) : Nat.pow 10 n = Nat.pow 5 n * Nat.pow 2 n := Nat.mul_pow 5 2 n
  have hfive (n : Nat) : 0 < Nat.pow 5 n := Nat.pow_pos (by decide)
  have hone := unitsPerOne_pos
  have hratio (digits : Nat) := exact_neg_natCast false digits 1074
  -- The powers are too large to be computed.
  unfold ofRatio at hratio
  unfold unitsPerOne at *
  generalize Nat.pow 2 = two at *
  generalize Nat.pow 5 = five at *
  generalize Nat.pow 10 = ten at *
  exact spells_of_allPlaces hm hone (hfive 1074) (hpow 1074) (by decide) hratio

/-- **The shortest decimal reads back as the magnitude.** -/
theorem spells_shortest {m : Magnitude} (hm : m.significand ≠ 0) : (shortest m).Spells m := by
  unfold shortest
  rw [if_neg hm]
  dsimp only
  split
  next d hd =>
    obtain ⟨n, hn, hgrid⟩ := List.exists_of_findSome?_eq_some hd
    have hn := List.mem_range.mp hn
    have hplace := le_placeOf m.units
    exact spells_of_onGrid? hm (by omega) hgrid
  next => exact spells_allPlaces hm

end Decimal

/-! ## Written numbers -/

/-- The parts of a written number that has a point. -/
structure Numeral where
  whole : List Char
  fraction : List Char
  exponent : Option Int

namespace Numeral

/-- The characters behind the fraction. -/
def tail (n : Numeral) : List Char :=
  match n.exponent with
  | none => []
  | some e => Decimal.exponentPart e

def chars (n : Numeral) : List Char := n.whole ++ '.' :: (n.fraction ++ n.tail)

/-- There are digits on both sides of the point, and the number is read as the magnitude. -/
structure Spells (n : Numeral) (m : Magnitude) : Prop where
  whole_ne : n.whole ≠ []
  fraction_ne : n.fraction ≠ []
  isDigit : ∀ c ∈ n.whole ++ n.fraction, c.isDigit
  value : ofDecimal false (natOfDigits (n.whole ++ n.fraction))
    (n.exponent.getD 0 - n.fraction.length) = .finite false m

end Numeral

namespace Decimal

/-- The digits may be followed by any number of zeros. -/
theorem Spells.ofDecimal_eq {d : Decimal} {m : Magnitude} (h : d.Spells m) {digits : Nat}
    (zeros : Nat) {e : Int} (hdigits : digits = natOfDigits d.digits * Nat.pow 10 zeros)
    (he : e + zeros = d.lastPlace) (hlow : -5000 ≤ e) :
    ofDecimal false digits e = .finite false m := by
  have hne : digits ≠ 0 := by
    rw [hdigits]
    exact Nat.mul_ne_zero h.nonzero (Nat.pow_pos (by decide)).ne'
  rw [ofDecimal_eq_exact false hne hlow, hdigits, exact_mul_pow_ten, he, h.exact]

theorem isDigit_zero : ∀ {n : Nat}, ∀ c ∈ List.replicate n '0', c.isDigit := by
  intro n c hc
  rw [List.eq_of_mem_replicate hc]
  rfl

/-- A number below one, with zeros behind its point. -/
theorem Spells.small {d : Decimal} {m : Magnitude} (h : d.Spells m) {zeros : Nat}
    (hzeros : d.place = -(zeros + 1 : Nat)) :
    (⟨['0'], List.replicate zeros '0' ++ d.digits, none⟩ : Numeral).Spells m := by
  have hne := List.length_pos_iff.mpr h.nonempty
  refine ⟨by simp, by simp [h.nonempty], ?_, ?_⟩
  · intro c hc
    rcases List.mem_append.mp hc with hc | hc
    · rw [List.mem_singleton.mp hc]
      rfl
    · rcases List.mem_append.mp hc with hc | hc
      · exact isDigit_zero c hc
      · exact h.isDigit c hc
  · have hlow := h.low
    have hdigits : natOfDigits (['0'] ++ (List.replicate zeros '0' ++ d.digits)) =
        natOfDigits d.digits := natOfDigits_zeros_append (zeros + 1) d.digits
    apply h.ofDecimal_eq 0
    · rw [hdigits]
      exact (Nat.mul_one _).symm
    all_goals
      unfold lastPlace at *
      simp only [Option.getD_none, List.length_append, List.length_replicate]
      omega

/-- A number whose digits reach over the point. -/
theorem Spells.straddling {d : Decimal} {m : Magnitude} (h : d.Spells m) {whole : Nat}
    (hwhole : d.place = whole) (hlength : whole + 1 < d.digits.length) :
    (⟨d.digits.take (whole + 1), d.digits.drop (whole + 1), none⟩ : Numeral).Spells m := by
  refine ⟨?_, ?_, ?_, ?_⟩
  · simp [h.nonempty]
  · simpa using hlength
  · rw [List.take_append_drop]
    exact h.isDigit
  · have hlow := h.low
    rw [List.take_append_drop]
    apply h.ofDecimal_eq 0
    · exact (Nat.mul_one _).symm
    all_goals
      unfold lastPlace at *
      simp only [Option.getD_none, List.length_drop]
      omega

/-- A whole number, with zeros behind its digits. -/
theorem Spells.whole {d : Decimal} {m : Magnitude} (h : d.Spells m) {zeros : Nat}
    (hplace : d.place + 1 = (d.digits.length + zeros : Nat)) :
    (⟨d.digits ++ List.replicate zeros '0', ['0'], none⟩ : Numeral).Spells m := by
  have hne := List.length_pos_iff.mpr h.nonempty
  refine ⟨by simp [h.nonempty], by simp, ?_, ?_⟩
  · intro c hc
    rcases List.mem_append.mp hc with hc | hc
    · rcases List.mem_append.mp hc with hc | hc
      · exact h.isDigit c hc
      · exact isDigit_zero c hc
    · rw [List.mem_singleton.mp hc]
      rfl
  · have hlow := h.low
    have hdigits : (d.digits ++ List.replicate zeros '0') ++ ['0'] =
        d.digits ++ List.replicate (zeros + 1) '0' := by
      rw [List.append_assoc, List.replicate_succ']
    apply h.ofDecimal_eq (zeros + 1)
    · rw [hdigits, natOfDigits_append_zeros]
    all_goals
      unfold lastPlace at *
      simp only [Option.getD_none, List.length_singleton]
      omega

/-- A number with an exponent and more than one digit. -/
theorem Spells.scientific {d : Decimal} {m : Magnitude} (h : d.Spells m) {first : Char}
    {rest : List Char} (hdigits : d.digits = first :: rest) (hrest : rest ≠ []) :
    (⟨[first], rest, some d.place⟩ : Numeral).Spells m := by
  have hlow := h.low
  refine ⟨by simp, hrest, ?_, ?_⟩
  · intro c hc
    exact h.isDigit c (hdigits ▸ hc)
  · apply h.ofDecimal_eq 0
    · rw [hdigits]
      exact (Nat.mul_one _).symm
    all_goals
      unfold lastPlace at *
      rw [hdigits] at *
      simp only [Option.getD_some, List.length_cons] at *
      omega

/-- A number with an exponent and a single digit: a zero may be put behind the point. -/
theorem Spells.lone {d : Decimal} {m : Magnitude} (h : d.Spells m) {first : Char}
    (hdigits : d.digits = [first]) : (⟨[first], ['0'], some d.place⟩ : Numeral).Spells m := by
  have hlow := h.low
  refine ⟨by simp, by simp, ?_, ?_⟩
  · intro c hc
    rcases List.mem_append.mp hc with hc | hc
    · exact h.isDigit c (hdigits ▸ hc)
    · rw [List.mem_singleton.mp hc]
      rfl
  · apply h.ofDecimal_eq 1
    · rw [hdigits]
      exact natOfDigits_append_zeros [first] 1
    all_goals
      unfold lastPlace at *
      rw [hdigits] at *
      simp only [Option.getD_some, List.length_singleton] at *
      omega

/-- **A decimal is written as a number that is read as the magnitude**, but for the point that a
number with a single digit and an exponent lacks. -/
theorem Spells.render {d : Decimal} {m : Magnitude} (h : d.Spells m) :
    (∃ n : Numeral, n.Spells m ∧ d.render = n.chars) ∨
      ∃ first, (⟨[first], ['0'], some d.place⟩ : Numeral).Spells m ∧
        d.render = first :: exponentPart d.place := by
  unfold Decimal.render
  split
  next hplain =>
    left
    split
    next hneg =>
      obtain ⟨zeros, hzeros⟩ : ∃ zeros : Nat, d.place = -(zeros + 1 : Nat) :=
        ⟨(-d.place - 1).toNat, by omega⟩
      refine ⟨_, h.small hzeros, ?_⟩
      rw [show (-d.place - 1).toNat = zeros by omega]
      simp [Numeral.chars, Numeral.tail]
    next hnonneg =>
      obtain ⟨whole, hwhole⟩ := Int.eq_ofNat_of_zero_le (Int.not_lt.mp hnonneg)
      dsimp only
      rw [show d.place.toNat = whole by omega]
      rcases Nat.lt_or_ge (whole + 1) d.digits.length with hshort | hlong
      · have hafter : (d.digits.drop (whole + 1)).isEmpty = false := by
          rw [List.isEmpty_eq_false_iff, ne_eq, List.drop_eq_nil_iff]
          omega
        refine ⟨_, h.straddling hwhole hshort, ?_⟩
        rw [hafter, List.length_take_of_le hshort.le]
        simp [Numeral.chars, Numeral.tail]
      · have hafter : (d.digits.drop (whole + 1)).isEmpty = true := by
          rw [List.isEmpty_iff, List.drop_eq_nil_iff]
          exact hlong
        have hplace : d.place + 1 = (d.digits.length + (whole + 1 - d.digits.length) : Nat) := by
          omega
        refine ⟨_, h.whole hplace, ?_⟩
        rw [hafter, List.take_of_length_le hlong]
        simp [Numeral.chars, Numeral.tail]
  next =>
    split
    next hnil => exact absurd hnil h.nonempty
    next first hlone => exact Or.inr ⟨first, h.lone hlone, rfl⟩
    next first rest hne hmore =>
      exact Or.inl ⟨_, h.scientific hmore hne, rfl⟩

end Decimal

/-- Zero is written with a digit on either side of the point. -/
theorem Numeral.spells_zero {m : Magnitude} (hm : m.significand = 0) :
    (⟨['0'], ['0'], none⟩ : Numeral).Spells m := by
  have hzero : m = Magnitude.zero := by
    obtain ⟨significand, power, hcanonical⟩ := m
    obtain rfl : significand = 0 := hm
    have hpower : power = 0 := hcanonical.2.2.resolve_left (by decide)
    subst hpower
    rfl
  rw [hzero]
  exact ⟨by simp, by simp, by simp, rfl⟩

end LanguageClient
