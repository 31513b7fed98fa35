import LanguageClient.Number.Reading
import LanguageClient.Proofs.Text.Ascii
import LanguageClient.Proofs.Text.Cut
import Mathlib.Data.List.TakeWhile

/-!
# Written digits are read back

A natural number is written with its decimal digits, and reading these gives the number again, as
long as there are no more of them than are read.
-/

namespace LanguageClient

theorem CodePoint.toChar_ofChar (c : Char) : (CodePoint.ofChar c).toChar = c := by
  have hvalid : (CodePoint.ofChar c).val.isValidChar := c.valid
  have : (CodePoint.ofChar c).toChar? = some c := by
    rw [toChar?, dif_pos hvalid]
    rfl
  rw [toChar, this]
  rfl

theorem CodePoint.ofChar_injective : Function.Injective CodePoint.ofChar :=
  Function.LeftInverse.injective toChar_ofChar

theorem Text.ofChar_mem_ofChars {c : Char} {cs : List Char} :
    CodePoint.ofChar c ∈ Text.ofChars cs ↔ c ∈ cs :=
  List.mem_map_of_injective CodePoint.ofChar_injective

namespace Reading

theorem natOfDigits_eq (digits : List Char) : natOfDigits digits = Nat.ofDigitChars 10 digits 0 := by
  unfold natOfDigits Nat.ofDigitChars
  congr 1
  funext m c
  rw [Nat.mul_comm]
  rfl

theorem natOfDigits_toDigits (n : Nat) : natOfDigits (Nat.toDigits 10 n) = n := by
  rw [natOfDigits_eq, Nat.ofDigitChars_ten_toDigits]

theorem plain_ofChar {c : Char} (h : IsPrintedAscii c) : plain (CodePoint.ofChar c) = c := by
  have hval : (CodePoint.ofChar c).val < 127 := h.2
  rw [plain, if_pos hval, CodePoint.toChar_ofChar]

theorem map_plain_ofChars {cs : List Char} (h : OnOneLine cs) :
    (Text.ofChars cs).map plain = cs := by
  rw [Text.ofChars, List.map_map]
  exact (List.map_congr_left fun c hc => plain_ofChar (h c hc)).trans (List.map_id cs)

theorem not_isPadding_of_isDigit {c : Char} (h : c.isDigit) : ¬ isPadding c := by
  obtain ⟨hlow, -⟩ := Char.isDigit_iff_toNat.mp h
  have hlow : 48 ≤ c.toNat := hlow
  have hne : c ≠ ' ' := by
    rintro rfl
    simp at hlow
  simp [isPadding, hne]
  omega

theorem underscoresFit_of_isDigit {cs : List Char} (h : ∀ c ∈ cs, c.isDigit) {previous : Char}
    (hprevious : previous ≠ '_') : underscoresFit previous cs := by
  induction cs generalizing previous with
  | nil => simpa [underscoresFit] using hprevious
  | cons c cs ih =>
      have hne : c ≠ '_' := by
        rintro rfl
        exact absurd (h '_' (by simp)) (by decide)
      simp [underscoresFit, hne, hprevious, ih (fun d hd => h d (by simp [hd])) hne]

theorem trimmed_ofChars {cs : List Char} (h : OnOneLine cs) (hpadding : ∀ c ∈ cs, ¬ isPadding c) :
    trimmed (Text.ofChars cs) = cs := by
  rw [trimmed, map_plain_ofChars h, Cut.trim_of_forall_not hpadding]

/-- Digits are the number they spell. -/
theorem int_ofChars {digits : List Char} (hdigits : ∀ c ∈ digits, c.isDigit) (hne : digits ≠ [])
    (hlength : digits.length ≤ digitLimit) :
    int (Text.ofChars digits) = .ok (natOfDigits digits) := by
  have htrimmed : trimmed (Text.ofChars digits) = digits :=
    trimmed_ofChars (OnOneLine.of_isDigit hdigits) fun c hc => not_isPadding_of_isDigit (hdigits c hc)
  have hsign : sign digits = (false, digits) := by
    obtain ⟨d, ds, rfl⟩ := List.exists_cons_of_ne_nil hne
    have hd := hdigits d (by simp)
    unfold sign
    split
    · simp_all
    · simp_all
    · rfl
  have htake : digits.takeWhile (fun c => c.isDigit || c == '_') = digits :=
    List.takeWhile_eq_self_iff.2 fun c hc => by simp [hdigits c hc]
  have hfilter : digits.filter Char.isDigit = digits := List.filter_eq_self.mpr hdigits
  have hfit : underscoresFit ' ' digits := underscoresFit_of_isDigit hdigits (by decide)
  simp [int, htrimmed, hsign, htake, hfilter, hfit, hne, Nat.not_lt.mpr hlength]

/-- The number is written with no more digits than are read. -/
def IsShort (n : Nat) : Prop := (Nat.toDigits 10 n).length ≤ digitLimit

instance (n : Nat) : Decidable (IsShort n) := inferInstanceAs (Decidable (_ ≤ _))

theorem int_toDigits {n : Nat} (h : IsShort n) : int (Text.ofChars (Nat.toDigits 10 n)) = .ok n := by
  have hdigits : ∀ c ∈ Nat.toDigits 10 n, c.isDigit := fun _ hc => isDigit_of_mem_toDigits hc
  rw [int_ofChars hdigits Nat.toDigits_ne_nil h, natOfDigits_toDigits]

end Reading

end LanguageClient
