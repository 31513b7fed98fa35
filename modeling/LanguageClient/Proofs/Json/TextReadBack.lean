import LanguageClient.Json.Parser
import LanguageClient.Proofs.Json.Printed
import LanguageClient.Proofs.Number.Reading
import Mathlib.Data.List.Chain

/-!
# Printed texts are read back

A text is printed code point by code point, and reading undoes each escape.  One thing is not
undone one by one: a code point beyond the basic plane is printed as two surrogates, which are
read as two units and then joined.  So a text is read back unless it holds a high surrogate with a
low one right behind it, because these two would be joined as well.

The proof goes through the units: `stringFrom` gives `t.flatMap units`, and `pairFrom` joins these
to `t`.
-/

namespace LanguageClient

/-! ## Surrogates -/

/-- The code point is one of U+D800 to U+DBFF. -/
def CodePoint.IsHighSurrogate (c : CodePoint) : Prop := 0xD800 ≤ c.val ∧ c.val < 0xDC00

/-- The code point is one of U+DC00 to U+DFFF. -/
def CodePoint.IsLowSurrogate (c : CodePoint) : Prop := 0xDC00 ≤ c.val ∧ c.val < 0xE000

/-- No high surrogate has a low one right behind it. -/
def Text.Unpaired (t : Text) : Prop :=
  t.IsChain fun c d => ¬ (c.IsHighSurrogate ∧ d.IsLowSurrogate)

instance (c : CodePoint) : Decidable c.IsHighSurrogate := inferInstanceAs (Decidable (_ ∧ _))

instance (c : CodePoint) : Decidable c.IsLowSurrogate := inferInstanceAs (Decidable (_ ∧ _))

instance (t : Text) : Decidable t.Unpaired := inferInstanceAs (Decidable (List.IsChain _ t))

theorem CodePoint.ext {c d : CodePoint} (h : c.val = d.val) : c = d := by
  cases c
  cases d
  simpa using h

theorem CodePoint.val_ofNat {n : Nat} (h : n < 0x110000) : (CodePoint.ofNat n).val = n := by
  rw [CodePoint.ofNat, dif_pos h]

theorem CodePoint.ofNat_val (c : CodePoint) : CodePoint.ofNat c.val = c :=
  CodePoint.ext (CodePoint.val_ofNat c.lt)

theorem CodePoint.ofChar_toChar {c : CodePoint} (h : c.val < 0xD800) :
    CodePoint.ofChar c.toChar = c := by
  apply CodePoint.ext
  exact CodePoint.toNat_toChar h

namespace Json

/-! ## Escapes -/

theorem hexDigit?_digitChar {d : Nat} (h : d < 16) :
    Parser.hexDigit? (Nat.digitChar d) = some d := by
  have : ∀ d < 16, Parser.hexDigit? (Nat.digitChar d) = some d := by decide
  exact this d h

/-- A unit is written with four digits. -/
theorem unitEscape_eq {n : Nat} (h : n < 0x10000) :
    unitEscape n = ['\\', 'u', Nat.digitChar (n / 4096), Nat.digitChar (n / 256 % 16),
      Nat.digitChar (n / 16 % 16), Nat.digitChar (n % 16)] := by
  have hbase : 1 < 16 := by omega
  rcases Nat.lt_or_ge n 16 with h₁ | h₁
  · have hdigits : Nat.toDigits 16 n = [Nat.digitChar n] := Nat.toDigits_of_lt_base h₁
    simp [unitEscape, hdigits, List.replicate, show n / 4096 = 0 by omega,
      show n / 256 = 0 by omega, show n / 16 = 0 by omega, Nat.mod_eq_of_lt h₁]
  rcases Nat.lt_or_ge n 256 with h₂ | h₂
  · have hdigits : Nat.toDigits 16 n = [Nat.digitChar (n / 16), Nat.digitChar (n % 16)] := by
      rw [Nat.toDigits_of_base_le hbase h₁, Nat.toDigits_of_lt_base (by omega)]
      rfl
    simp [unitEscape, hdigits, List.replicate, show n / 4096 = 0 by omega,
      show n / 256 = 0 by omega, Nat.mod_eq_of_lt (show n / 16 < 16 by omega)]
  rcases Nat.lt_or_ge n 4096 with h₃ | h₃
  · have hdigits : Nat.toDigits 16 n =
        [Nat.digitChar (n / 256), Nat.digitChar (n / 16 % 16), Nat.digitChar (n % 16)] := by
      rw [Nat.toDigits_of_base_le hbase h₁, Nat.toDigits_of_base_le hbase (by omega),
        Nat.toDigits_of_lt_base (by omega), show n / 16 / 16 = n / 256 by omega]
      rfl
    simp [unitEscape, hdigits, show n / 4096 = 0 by omega,
      Nat.mod_eq_of_lt (show n / 256 < 16 by omega)]
  · have hdigits : Nat.toDigits 16 n = [Nat.digitChar (n / 4096), Nat.digitChar (n / 256 % 16),
        Nat.digitChar (n / 16 % 16), Nat.digitChar (n % 16)] := by
      rw [Nat.toDigits_of_base_le hbase h₁, Nat.toDigits_of_base_le hbase (by omega),
        Nat.toDigits_of_base_le hbase (by omega), Nat.toDigits_of_lt_base (by omega),
        show n / 16 / 16 / 16 = n / 4096 by omega, show n / 16 / 16 = n / 256 by omega]
      rfl
    simp [unitEscape, hdigits]

theorem unit?_digitChars {n : Nat} (h : n < 0x10000) :
    Parser.unit? (Nat.digitChar (n / 4096)) (Nat.digitChar (n / 256 % 16))
      (Nat.digitChar (n / 16 % 16)) (Nat.digitChar (n % 16)) = some (CodePoint.ofNat n) := by
  have hsum : ((n / 4096 * 16 + n / 256 % 16) * 16 + n / 16 % 16) * 16 + n % 16 = n := by omega
  simp [Parser.unit?, hexDigit?_digitChar (show n / 4096 < 16 by omega),
    hexDigit?_digitChar (show n / 256 % 16 < 16 by omega),
    hexDigit?_digitChar (show n / 16 % 16 < 16 by omega),
    hexDigit?_digitChar (show n % 16 < 16 by omega), hsum]

theorem stringFrom_quote (opening : List Char) (done : Text) (rest : List Char) :
    Parser.stringFrom opening done ('"' :: rest) = .ok (done.reverse, rest) := by
  rw [Parser.stringFrom.eq_def]
  simp

theorem stringFrom_plain {c : Char} (hquote : c ≠ '"') (hslash : c ≠ '\\')
    (hcontrol : ¬ c.toNat < 0x20) (opening : List Char) (done : Text) (rest : List Char) :
    Parser.stringFrom opening done (c :: rest) =
      Parser.stringFrom opening (CodePoint.ofChar c :: done) rest := by
  rw [Parser.stringFrom.eq_def]
  simp [hquote, hslash, hcontrol]

theorem stringFrom_shortEscape {e escaped : Char} (hne : e ≠ 'u')
    (hread : Parser.shortEscape? e = some escaped) (opening : List Char) (done : Text)
    (rest : List Char) :
    Parser.stringFrom opening done ('\\' :: e :: rest) =
      Parser.stringFrom opening (CodePoint.ofChar escaped :: done) rest := by
  rw [Parser.stringFrom.eq_def]
  simp [hne, hread]

theorem stringFrom_unitEscape {n : Nat} (h : n < 0x10000) (opening : List Char) (done : Text)
    (next : Char) (more : List Char) :
    Parser.stringFrom opening done (unitEscape n ++ next :: more) =
      Parser.stringFrom opening (CodePoint.ofNat n :: done) (next :: more) := by
  rw [unitEscape_eq h, List.cons_append, Parser.stringFrom.eq_def]
  simp [unit?_digitChars h]

/-- An escape of one letter is read as the number that it stands for. -/
theorem shortEscape?_eq {n : Nat} {e : Char} (h : shortEscape? n = some e) :
    e ≠ 'u' ∧ ∃ c, Parser.shortEscape? e = some c ∧ (CodePoint.ofChar c).val = n := by
  have hall : ∀ escape ∈ shortEscapes, escape.2 ≠ 'u' ∧
      Parser.shortEscape? escape.2 = some (Char.ofNat escape.1) ∧
      (CodePoint.ofChar (Char.ofNat escape.1)).val = escape.1 := by decide
  obtain ⟨hne, hread, hval⟩ := hall _ (mem_shortEscapes h)
  exact ⟨hne, _, hread, hval⟩

/-! ## Units -/

/-- The units of UTF-16 that a code point is printed as. -/
def units (c : CodePoint) : Text :=
  if c.val < 0x10000 then [c]
  else [CodePoint.ofNat (0xD800 + (c.val - 0x10000) / 0x400),
    CodePoint.ofNat (0xDC00 + (c.val - 0x10000) % 0x400)]

/-- What one code point is printed as is read as its units. -/
theorem stringFrom_renderCodePoint (c : CodePoint) (opening : List Char) (done : Text)
    (next : Char) (more : List Char) :
    Parser.stringFrom opening done (renderCodePoint c ++ next :: more) =
      Parser.stringFrom opening ((units c).reverse ++ done) (next :: more) := by
  have hlt := c.lt
  unfold renderCodePoint
  cases hshort : shortEscape? c.val with
  | some e =>
      obtain ⟨hne, escaped, hread, hval⟩ := shortEscape?_eq hshort
      have hc : CodePoint.ofChar escaped = c := CodePoint.ext hval
      have hbasic : c.val < 0x10000 := by
        have hall : ∀ escape ∈ shortEscapes, escape.1 < 0x10000 := by decide
        exact hall _ (mem_shortEscapes hshort)
      simp [stringFrom_shortEscape hne hread, hc, units, hbasic]
  | none =>
      simp only
      split
      · -- the code point stands for itself
        rename_i hprinted
        simp only [Bool.and_eq_true, decide_eq_true_eq] at hprinted
        have hchar : CodePoint.ofChar c.toChar = c := CodePoint.ofChar_toChar (by omega)
        have hnat : c.toChar.toNat = c.val := congrArg CodePoint.val hchar
        have hquote : c.toChar ≠ '"' := by
          intro h
          have : c.val = 0x22 := by rw [← hnat, h]; rfl
          simp [shortEscape?, this] at hshort
        have hslash : c.toChar ≠ '\\' := by
          intro h
          have : c.val = 0x5C := by rw [← hnat, h]; rfl
          simp [shortEscape?, this] at hshort
        rw [List.singleton_append, stringFrom_plain hquote hslash (by omega), hchar]
        simp [units, show c.val < 0x10000 by omega]
      · split
        · -- one escape gives one unit
          rename_i hbasic
          rw [stringFrom_unitEscape hbasic, CodePoint.ofNat_val]
          simp [units, hbasic]
        · -- two escapes give two units; the first one needs the second to go on with
          rename_i hbeyond
          rw [List.append_assoc, unitEscape_eq (n := 0xDC00 + (c.val - 0x10000) % 0x400) (by omega),
            List.cons_append, stringFrom_unitEscape (by omega), ← List.cons_append,
            ← unitEscape_eq (by omega), stringFrom_unitEscape (by omega)]
          simp [units, hbeyond]

theorem stringFrom_flatMap (t : Text) (opening : List Char) (done : Text) (rest : List Char) :
    Parser.stringFrom opening done (t.flatMap renderCodePoint ++ '"' :: rest) =
      .ok (done.reverse ++ t.flatMap units, rest) := by
  induction t generalizing done with
  | nil => simp [stringFrom_quote]
  | cons c t ih =>
      -- there is always a next character, at least the closing quote
      obtain ⟨next, more, hmore⟩ : ∃ next more,
          t.flatMap renderCodePoint ++ '"' :: rest = next :: more :=
        List.exists_cons_of_ne_nil (by simp)
      rw [List.flatMap_cons, List.append_assoc, hmore, stringFrom_renderCodePoint, ← hmore, ih]
      simp

/-! ## Joining -/

theorem pairFrom_nil (done : Text) : Parser.pairFrom done [] = done.reverse := rfl

theorem pairFrom_cons_cons (high : CodePoint) (before : Text) (c : CodePoint) (rest : Text) :
    Parser.pairFrom (high :: before) (c :: rest) =
      if 0xD800 ≤ high.val && high.val < 0xDC00 && 0xDC00 ≤ c.val && c.val < 0xE000 then
        Parser.pairFrom (Parser.paired high c :: before) rest
      else Parser.pairFrom (c :: high :: before) rest := rfl

theorem paired_units {c : CodePoint} (h : ¬ c.val < 0x10000) :
    Parser.paired (CodePoint.ofNat (0xD800 + (c.val - 0x10000) / 0x400))
      (CodePoint.ofNat (0xDC00 + (c.val - 0x10000) % 0x400)) = c := by
  have hlt := c.lt
  apply CodePoint.ext
  rw [Parser.paired, CodePoint.val_ofNat (show 0xD800 + (c.val - 0x10000) / 0x400 < _ by omega),
    CodePoint.val_ofNat (show 0xDC00 + (c.val - 0x10000) % 0x400 < _ by omega),
    CodePoint.val_ofNat (by omega)]
  omega

/-- A code point that does not complete a pair is kept as it is. -/
theorem pairFrom_cons (done : Text) {c : CodePoint}
    (h : ∀ high ∈ done.head?, ¬ (high.IsHighSurrogate ∧ c.IsLowSurrogate)) (rest : Text) :
    Parser.pairFrom done (c :: rest) = Parser.pairFrom (c :: done) rest := by
  cases done with
  | nil => rfl
  | cons high before =>
      have hnot := h high rfl
      rw [pairFrom_cons_cons, if_neg]
      simpa [CodePoint.IsHighSurrogate, CodePoint.IsLowSurrogate, and_assoc] using hnot

theorem pairFrom_flatMap_units {t : Text} (ht : t.Unpaired) (done : Text)
    (h : ∀ high ∈ done.head?, ∀ low ∈ t.head?, ¬ (high.IsHighSurrogate ∧ low.IsLowSurrogate)) :
    Parser.pairFrom done (t.flatMap units) = done.reverse ++ t := by
  induction t generalizing done with
  | nil => simp [pairFrom_nil]
  | cons c t ih =>
      have htail : Text.Unpaired t := List.IsChain.tail ht
      by_cases hbasic : c.val < 0x10000
      · have hnext : ∀ high ∈ (c :: done).head?, ∀ low ∈ t.head?,
            ¬ (high.IsHighSurrogate ∧ low.IsLowSurrogate) := by
          rintro high hhigh low hlow
          obtain rfl : c = high := by simpa using hhigh
          cases t with
          | nil => simp at hlow
          | cons d t =>
              obtain rfl : d = low := by simpa using hlow
              exact (List.isChain_cons_cons.mp ht).1
        have hdone : ∀ high ∈ done.head?, ¬ (high.IsHighSurrogate ∧ c.IsLowSurrogate) :=
          fun high hhigh => h high hhigh c rfl
        rw [List.flatMap_cons, units, if_pos hbasic, List.singleton_append,
          pairFrom_cons done hdone, ih htail (c :: done) hnext]
        simp
      · have hlt := c.lt
        have hhigh := CodePoint.val_ofNat
          (show 0xD800 + (c.val - 0x10000) / 0x400 < 0x110000 by omega)
        have hlow := CodePoint.val_ofNat
          (show 0xDC00 + (c.val - 0x10000) % 0x400 < 0x110000 by omega)
        -- the first unit is no low surrogate, and `c` itself is no high one
        have hdone : ∀ high ∈ done.head?, ¬ (high.IsHighSurrogate ∧
            (CodePoint.ofNat (0xD800 + (c.val - 0x10000) / 0x400)).IsLowSurrogate) := by
          rintro high - ⟨-, hlo, -⟩
          omega
        have hnext : ∀ high ∈ (c :: done).head?, ∀ low ∈ t.head?,
            ¬ (high.IsHighSurrogate ∧ low.IsLowSurrogate) := by
          rintro high hhead low - ⟨⟨-, hhi⟩, -⟩
          obtain rfl : c = high := by simpa using hhead
          omega
        rw [List.flatMap_cons, units, if_neg hbasic, List.cons_append, List.singleton_append,
          pairFrom_cons done hdone, pairFrom_cons_cons, if_pos, paired_units hbasic,
          ih htail (c :: done) hnext]
        · simp
        · simp only [hhigh, hlow, Bool.and_eq_true, decide_eq_true_eq]
          omega

/-- A printed text is read back. -/
theorem string_renderText {t : Text} (ht : t.Unpaired) (rest : List Char) :
    Parser.string (renderText t ++ rest) = .ok (t, rest) := by
  have hread := stringFrom_flatMap t (renderText t ++ rest) [] rest
  have htail : (renderText t ++ rest).tail = t.flatMap renderCodePoint ++ '"' :: rest := by
    simp [renderText]
  have hjoin : Parser.pairFrom [] (t.flatMap units) = t := by
    simpa using pairFrom_flatMap_units ht [] (by simp)
  rw [Parser.string, htail, hread]
  simp [bind, Except.bind, hjoin]

end Json

end LanguageClient
