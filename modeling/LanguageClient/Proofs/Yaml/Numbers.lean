import LanguageClient.Proofs.Json.ReadBack
import LanguageClient.Proofs.Number.Shortest
import LanguageClient.Proofs.Yaml.Characters
import LanguageClient.Proofs.Yaml.ScalarTokens
import LanguageClient.Yaml.Document

/-!
# Numbers and words

What is neither a text nor a collection is printed without quotes, and the form of what is printed
tells its kind when it is read (`Spells`).  An integer has no point and no zero in front
(`spells_int`).  A double always has a point with a digit on either side of it: the printer puts one
into the numbers that would do without (`exists_numeral`), and so they are not taken for texts.
-/

namespace LanguageClient.Yaml

open Scanner Scalar

/-! ## Values without quotes -/

/-- The characters are one word on one line, and they are the value. -/
structure Spells (w : List Char) (v : Value) : Prop where
  bare : ∀ ch ∈ w, IsPrintedAscii ch ∧ ch ≠ ' ' ∧ ch ≠ ':'
  starts : StartsPlain w
  value : Scalar.build (Kind.ofPlain (Text.ofChars w)) (Text.ofChars w) = .ok v

namespace Spells

variable {w : List Char} {v : Value}

/-- The characters of a fixed word can be checked one by one. -/
theorem of_all (hbare : w.all (fun ch => decide (IsPrintedAscii ch ∧ ch ≠ ' ' ∧ ch ≠ ':')) = true)
    (hstarts : StartsPlain w)
    (hvalue : Scalar.build (Kind.ofPlain (Text.ofChars w)) (Text.ofChars w) = .ok v) : Spells w v where
  bare ch hch := of_decide_eq_true (List.all_eq_true.mp hbare ch hch)
  starts := hstarts
  value := hvalue

theorem isWritten (h : Spells w v) : ∀ ch ∈ w, IsWritten ch :=
  fun ch hch => .of_isPrintedAscii (h.bare ch hch).1

theorem isRun (h : Spells w v) : IsRun w := by
  obtain ⟨ch, rest, rfl, -⟩ := h.starts
  refine ⟨by simp, ?_, ?_⟩
  · intro d hd
    obtain ⟨hascii, hspace, -⟩ := h.bare d hd
    have hinline := isInline_of_isPrintedAscii hascii
    refine ⟨?_, hinline⟩
    have hblank : isBlank d = false := by
      have hlow := hascii.1
      rw [ne_eq, ← Char.toNat_inj, show ' '.toNat = 0x20 from rfl] at hspace
      rw [← Bool.not_eq_true, isBlank_iff]
      omega
    rw [isGap, hblank, hinline.1]
    rfl
  · intro hlast
    exact (h.bare ':' (List.mem_of_getLast? hlast)).2.2 rfl

theorem noHash (h : Spells w v) : w.head? ≠ some '#' := by
  obtain ⟨ch, rest, rfl, -, hkind⟩ := h.starts
  rintro hhash
  obtain rfl : ch = '#' := Option.some.inj hhash
  rcases hkind with hindicator | ⟨hmark, -⟩
  · exact absurd hindicator (by decide)
  · exact absurd hmark (by decide)

theorem takesLine (h : Spells w v) {indent : Nat} :
    TakesLine indent w [.scalar (Text.ofChars w) true] :=
  takesLine_plain (.last h.isRun h.noHash) h.starts

end Spells

theorem spells_null : Spells "null".toList .null :=
  .of_all (by decide) ⟨'n', _, rfl, by decide, Or.inl (by decide)⟩ rfl

theorem spells_true : Spells "true".toList (.bool true) :=
  .of_all (by decide) ⟨'t', _, rfl, by decide, Or.inl (by decide)⟩ rfl

theorem spells_false : Spells "false".toList (.bool false) :=
  .of_all (by decide) ⟨'f', _, rfl, by decide, Or.inl (by decide)⟩ rfl

/-! ## The characters of numbers -/

/-- The character may stand in a printed number. -/
def IsNumeric (c : Char) : Prop := c.isDigit = true ∨ c = '+' ∨ c = '-' ∨ c = '.' ∨ c = 'e'

theorem isDigit_iff {c : Char} : c.isDigit = true ↔ 0x30 ≤ c.toNat ∧ c.toNat ≤ 0x39 :=
  Char.isDigit_iff_toNat

theorem IsNumeric.toNat {c : Char} (h : IsNumeric c) :
    0x2B ≤ c.toNat ∧ c.toNat ≤ 0x39 ∨ c.toNat = 0x65 := by
  rcases h with h | rfl | rfl | rfl | rfl
  · have := isDigit_iff.mp h
    omega
  all_goals decide

theorem IsNumeric.ne {c d : Char} (h : IsNumeric c)
    (hd : ¬ (0x2B ≤ d.toNat ∧ d.toNat ≤ 0x39 ∨ d.toNat = 0x65)) : c ≠ d := by
  rintro rfl
  exact hd h.toNat

theorem IsNumeric.isPrintedAscii {c : Char} (h : IsNumeric c) : IsPrintedAscii c := by
  have := h.toNat
  unfold IsPrintedAscii
  omega

/-- Digits, perhaps with a sign before them, start a number. -/
theorem startsPlain_of_digit {sign rest : List Char} {d : Char} (hsign : sign = [] ∨ sign = ['-'])
    (hd : d.isDigit = true) : StartsPlain (sign ++ d :: rest) := by
  have hne {c : Char} (hc : c.isDigit = false) : d ≠ c := by
    rintro rfl
    rw [hd] at hc
    cases hc
  have hgap : isGap d = false := by
    simp [isGap, isBlank, isBreak, hne]
  rcases hsign with rfl | rfl
  · refine ⟨d, rest, rfl, hgap, Or.inl ?_⟩
    simp [isIndicator, hne]
  · exact ⟨'-', _, rfl, rfl, Or.inr ⟨Or.inl rfl, d, rest, rfl, hgap⟩⟩

/-! ## The kind of a number -/

theorem toChars_ofChars (w : List Char) : Text.toChars (Text.ofChars w) = w := by
  simp [Text.toChars, Text.ofChars, Function.comp_def, CodePoint.toChar_ofChar]

/-- What has no line feed at its end is judged as it is. -/
theorem ofPlain_ofChars {w : List Char} (h : ∀ c ∈ w.getLast?, c ≠ '\n') :
    Kind.ofPlain (Text.ofChars w) =
      if Kind.truthWords.contains (String.ofList w) then .bool
      else if Kind.isFloat w then .float
      else if Kind.isInt w then .int
      else if String.ofList w = "<<" then .merge
      else if Kind.nullWords.contains (String.ofList w) then .null
      else if Kind.isTimestamp w then .timestamp
      else if String.ofList w = "=" then .value
      else if ["!", "&", "*"].contains (String.ofList w) then .unknown
      else .str := by
  unfold Kind.ofPlain
  dsimp only
  split
  next last before hlast =>
    have hmem : (Text.ofChars w).getLast? = some last := by
      rw [← List.head?_reverse, hlast]
      rfl
    rw [Text.ofChars, List.getLast?_map, Option.map_eq_some_iff] at hmem
    obtain ⟨c, hc, rfl⟩ := hmem
    have hne : (CodePoint.ofChar c).val ≠ 0x0A := fun heq => h c hc (Char.toNat_inj.mp heq)
    simp only [beq_eq_false_iff_ne.mpr hne, Bool.false_and, Bool.false_eq_true, if_false,
      toChars_ofChars]
  next => rw [toChars_ofChars]

/-- No truth value starts with a digit or a sign. -/
theorem not_truthWord {sign rest : List Char} {d : Char} (hsign : sign = [] ∨ sign = ['-'])
    (hd : d.isDigit = true) :
    Kind.truthWords.contains (String.ofList (sign ++ d :: rest)) = false := by
  obtain ⟨c, hhead, hc⟩ : ∃ c, (sign ++ d :: rest).head? = some c ∧ (c.isDigit = true ∨ c = '-') := by
    rcases hsign with rfl | rfl
    · exact ⟨d, rfl, Or.inl hd⟩
    · exact ⟨'-', rfl, Or.inr rfl⟩
  have hwords : ∀ word ∈ Kind.truthWords,
      (word.toList.head?.all fun d => d.isDigit = false ∧ d ≠ '-') = true := by
    decide +kernel
  rw [List.contains_eq_mem, decide_eq_false_iff_not]
  intro hmem
  have hword : c.isDigit = false ∧ c ≠ '-' := by
    have hfirst := hwords _ hmem
    rw [String.toList_ofList, hhead] at hfirst
    exact of_decide_eq_true hfirst
  rcases hc with hc | hc
  · rw [hword.1] at hc
    cases hc
  · exact hword.2 hc

theorem unsigned_append {sign rest : List Char} {d : Char} (hsign : sign = [] ∨ sign = ['-'])
    (hd : d.isDigit = true) : Kind.unsigned (sign ++ d :: rest) = d :: rest := by
  have hne {c : Char} (hc : c.isDigit = false) : d ≠ c := by
    rintro rfl
    rw [hd] at hc
    cases hc
  rcases hsign with rfl | rfl
  · simp [Kind.unsigned, hne]
  · simp [Kind.unsigned]

/-! ## Reading numbers -/

theorem withoutUnderscores_ofChars {w : List Char} (h : ∀ c ∈ w, IsNumeric c) :
    withoutUnderscores (Text.ofChars w) = Text.ofChars w := by
  rw [withoutUnderscores, List.filter_eq_self]
  intro c hc
  obtain ⟨d, hd, rfl⟩ := List.mem_map.mp hc
  have := (h d hd).toNat
  rw [decide_eq_true_eq, show (CodePoint.ofChar d).val = d.toNat from rfl]
  omega

theorem takeSign_append {sign rest : List Char} {d : Char} (hsign : sign = [] ∨ sign = ['-'])
    (hd : d.isDigit = true) :
    takeSign (Text.ofChars (sign ++ d :: rest)) =
      .ok (!sign.isEmpty, Text.ofChars (d :: rest)) := by
  have hdigit := isDigit_iff.mp hd
  rcases hsign with rfl | rfl
  · have hval : (CodePoint.ofChar d).val = d.toNat := rfl
    simp only [List.nil_append, Text.ofChars, List.map_cons, takeSign, hval]
    rw [if_neg (by omega), if_neg (by omega)]
    rfl
  · rfl

/-! ## Integers -/

theorem isNumeric_of_isDigit {cs : List Char} (h : ∀ c ∈ cs, c.isDigit) : ∀ c ∈ cs, IsNumeric c :=
  fun c hc => Or.inl (h c hc)

theorem isNumeric_sign {sign cs : List Char} (hsign : sign = [] ∨ sign = ['-'])
    (h : ∀ c ∈ cs, IsNumeric c) : ∀ c ∈ sign ++ cs, IsNumeric c := by
  intro c hc
  rcases List.mem_append.mp hc with hc | hc
  · rcases hsign with rfl | rfl
    · cases hc
    · exact Or.inr (Or.inr (Or.inl (List.mem_singleton.mp hc)))
  · exact h c hc

theorem bare_of_isNumeric {w : List Char} (h : ∀ c ∈ w, IsNumeric c) :
    ∀ ch ∈ w, IsPrintedAscii ch ∧ ch ≠ ' ' ∧ ch ≠ ':' :=
  fun ch hch => ⟨(h ch hch).isPrintedAscii, (h ch hch).ne (by decide), (h ch hch).ne (by decide)⟩

theorem not_newLine_of_isNumeric {w : List Char} (h : ∀ c ∈ w, IsNumeric c) :
    ∀ c ∈ w.getLast?, c ≠ '\n' :=
  fun c hc => (h c (List.mem_of_getLast? hc)).ne (by decide)

/-- The parts of a printed integer. -/
theorem exists_int (n : Int) : ∃ sign, (sign = [] ∨ sign = ['-']) ∧
    Printer.int n = sign ++ Nat.toDigits 10 n.natAbs ∧
    (if !sign.isEmpty then -(n.natAbs : Int) else n.natAbs) = n := by
  cases n with
  | ofNat n => exact ⟨[], Or.inl rfl, rfl, rfl⟩
  | negSucc n => exact ⟨['-'], Or.inr rfl, rfl, rfl⟩

theorem isNumeric_int (n : Int) : ∀ c ∈ Printer.int n, IsNumeric c := by
  obtain ⟨sign, hsign, hint, -⟩ := exists_int n
  rw [hint]
  exact isNumeric_sign hsign (isNumeric_of_isDigit fun c hc => isDigit_of_mem_toDigits hc)

theorem all_isPlace {digits : List Char} (h : ∀ c ∈ digits, c.isDigit) :
    digits.all Kind.isPlace = true := by
  rw [List.all_eq_true]
  intro c hc
  rw [Kind.isPlace, h c hc]
  rfl

theorem isInt_toDigits {sign : List Char} (hsign : sign = [] ∨ sign = ['-']) (n : Nat) :
    Kind.isInt (sign ++ Nat.toDigits 10 n) = true := by
  rcases Nat.eq_zero_or_pos n with rfl | hn
  · rcases hsign with rfl | rfl <;> decide
  · obtain ⟨d, ds, hds, hd⟩ := Json.toDigits_eq_cons hn
    have hdigits : ∀ c ∈ Nat.toDigits 10 n, c.isDigit := fun c hc => isDigit_of_mem_toDigits hc
    rw [hds] at hdigits ⊢
    have hwhole : Kind.isWhole (d :: ds) = true := by
      rw [Kind.isWhole, hdigits d (by simp), all_isPlace fun c hc => hdigits c (by simp [hc])]
      rfl
    rw [Kind.isInt, unsigned_append hsign (hdigits d (by simp))]
    split <;> simp_all

theorem isFloat_eq_false {w : List Char} (h : ∀ c ∈ Kind.unsigned w, c ≠ '.') :
    Kind.isFloat w = false := by
  have hnone : (Kind.unsigned w).dropWhile (· ≠ '.') = [] := by
    rw [List.dropWhile_eq_nil_iff]
    intro c hc
    simpa using h c hc
  unfold Kind.isFloat
  simp only [hnone]

/-- Digits without a zero in front spell their number, in base ten. -/
theorem int_ofChars {sign : List Char} (hsign : sign = [] ∨ sign = ['-']) {n : Nat}
    (hshort : Reading.IsShort n) :
    Scalar.int (Text.ofChars (sign ++ Nat.toDigits 10 n)) =
      .ok (if !sign.isEmpty then -(n : Int) else n) := by
  rcases Nat.eq_zero_or_pos n with rfl | hn
  · rcases hsign with rfl | rfl <;> rfl
  · have hread := Reading.int_toDigits hshort
    obtain ⟨d, ds, hds, hd⟩ := Json.toDigits_eq_cons hn
    have hdigits : ∀ c ∈ Nat.toDigits 10 n, c.isDigit := fun c hc => isDigit_of_mem_toDigits hc
    rw [hds] at hdigits hread ⊢
    have hne : CodePoint.ofChar d ≠ CodePoint.ofChar '0' := CodePoint.ofChar_injective.ne hd
    have hval : (CodePoint.ofChar d).val ≠ 0x30 := fun h => hne (CodePoint.ext h)
    have hcolon : (Text.ofChars (d :: ds)).any (·.val == 0x3A) = false := by
      rw [List.any_eq_false]
      intro c hc
      obtain ⟨e, he, rfl⟩ := List.mem_map.mp hc
      have := isDigit_iff.mp (hdigits e he)
      rw [beq_iff_eq, show (CodePoint.ofChar e).val = e.toNat from rfl]
      omega
    have hbinary : Cut.after? (Text.ofString "0b") (Text.ofChars (d :: ds)) = none := by
      simp [Text.ofString, Text.ofChars, Cut.after?, hne.symm]
    have hhex : Cut.after? (Text.ofString "0x") (Text.ofChars (d :: ds)) = none := by
      simp [Text.ofString, Text.ofChars, Cut.after?, hne.symm]
    have hten : intInTen (Text.ofChars (d :: ds)) = .ok (n : Int) := by rw [intInTen, hread]
    have hzero : Text.ofChars (d :: ds) ≠ Text.ofString "0" := by
      simp [Text.ofString, Text.ofChars, hne]
    rw [Scalar.int, withoutUnderscores_ofChars (isNumeric_sign hsign (isNumeric_of_isDigit hdigits)),
      takeSign_append hsign (hdigits d (by simp))]
    have hcons : Text.ofChars (d :: ds) = CodePoint.ofChar d :: Text.ofChars ds := rfl
    rw [hcons] at hcolon hbinary hhex hten hzero ⊢
    simp only [bind, Except.bind, if_neg hzero, hbinary, hhex, if_neg hval, hcolon,
      Bool.false_eq_true, if_false, hten]
    rfl

theorem spells_int {n : Int} (h : Reading.isWritable n = true) : Spells (Printer.int n) (.int n) := by
  obtain ⟨sign, hsign, hint, hvalue⟩ := exists_int n
  have hshort : Reading.IsShort n.natAbs := by
    simpa [Reading.isWritable, Reading.IsShort] using h
  have hread := int_ofChars hsign hshort
  have hkind := isInt_toDigits hsign n.natAbs
  obtain ⟨d, ds, hds⟩ := List.exists_cons_of_ne_nil
    (Nat.toDigits_ne_nil (n := n.natAbs) (b := 10))
  have hdigits : ∀ c ∈ Nat.toDigits 10 n.natAbs, c.isDigit := fun c hc => isDigit_of_mem_toDigits hc
  rw [hds] at hdigits hint hread hkind
  have hd := hdigits d (by simp)
  have hnumeric := isNumeric_sign hsign (isNumeric_of_isDigit hdigits)
  have hfloat : Kind.isFloat (sign ++ d :: ds) = false := by
    apply isFloat_eq_false
    rw [unsigned_append hsign hd]
    rintro c hc rfl
    exact absurd (hdigits '.' hc) (by decide)
  rw [hint]
  refine ⟨bare_of_isNumeric hnumeric, startsPlain_of_digit hsign hd, ?_⟩
  rw [ofPlain_ofChars (not_newLine_of_isNumeric hnumeric), not_truthWord hsign hd, hfloat, hkind]
  simp only [Bool.false_eq_true, if_false, if_true, Scalar.build, hread, hvalue]
  rfl

/-! ## Doubles -/

/-- The exponent of a number: `e`, a sign and digits. -/
theorem exists_exponentPart (e : Int) : ∃ mark digits, Decimal.exponentPart e = 'e' :: mark :: digits ∧
    mark = (if e < 0 then '-' else '+') ∧ digits ≠ [] ∧ (∀ c ∈ digits, c.isDigit) ∧
    Reading.natOfDigits digits = e.natAbs := by
  have hdigits : ∀ c ∈ Nat.toDigits 10 e.natAbs, c.isDigit := fun c hc => isDigit_of_mem_toDigits hc
  refine ⟨_, _, rfl, rfl, ?_, ?_, ?_⟩
  · split
    · exact List.cons_ne_nil _ _
    · exact Nat.toDigits_ne_nil
  · split
    · exact List.forall_mem_cons.mpr ⟨rfl, hdigits⟩
    · exact hdigits
  · split
    · exact (Reading.natOfDigits_zeros_append 1 _).trans (Reading.natOfDigits_toDigits _)
    · exact Reading.natOfDigits_toDigits _

section

variable {digits : List Char} (hne : digits ≠ []) (hall : digits.all Char.isDigit = true)

include hne hall

theorem exponent?_minus :
    Reading.exponent? ('e' :: '-' :: digits) = some (-(Reading.natOfDigits digits : Int)) := by
  simp [Reading.exponent?, Reading.sign, hne, hall]

theorem exponent?_plus :
    Reading.exponent? ('e' :: '+' :: digits) = some (Reading.natOfDigits digits : Int) := by
  simp [Reading.exponent?, Reading.sign, hne, hall]

end

section

variable {n : Numeral} {m : Magnitude} {sign : List Char}

/-- What stands behind the fraction is a written exponent, or nothing. -/
theorem tail_spec (n : Numeral) : (∀ c ∈ n.tail, IsNumeric c) ∧ Kind.isExponent n.tail = true ∧
    Reading.exponent? n.tail = some (n.exponent.getD 0) ∧ ∀ c ∈ n.tail.head?, c = 'e' := by
  unfold Numeral.tail
  cases n.exponent with
  | none => exact ⟨by simp, rfl, rfl, by simp⟩
  | some e =>
      obtain ⟨mark, digits, hpart, hmark, hne, hdigits, hvalue⟩ := exists_exponentPart e
      have hall : digits.all Char.isDigit = true := List.all_eq_true.mpr hdigits
      dsimp only
      rw [hpart]
      refine ⟨?_, ?_, ?_, fun c hc => (Option.some.inj hc).symm⟩
      · refine List.forall_mem_cons.mpr ⟨by simp [IsNumeric], List.forall_mem_cons.mpr
          ⟨?_, isNumeric_of_isDigit hdigits⟩⟩
        rw [hmark]
        split <;> simp [IsNumeric]
      · rw [hmark]
        split <;> simp [Kind.isExponent, hne, hall]
      · rw [hmark]
        split
        next hneg =>
          rw [exponent?_minus hne hall, hvalue, Option.getD_some, Int.ofNat_natAbs_of_nonpos hneg.le,
            Int.neg_neg]
        next hpos =>
          rw [exponent?_plus hne hall, hvalue, Option.getD_some, Int.natAbs_of_nonneg (not_lt.mp hpos)]

theorem isNumeric_chars (h : n.Spells m) : ∀ c ∈ n.chars, IsNumeric c := by
  intro c hc
  rcases List.mem_append.mp hc with hc | hc
  · exact Or.inl (h.isDigit c (List.mem_append_left _ hc))
  · rcases List.mem_cons.mp hc with rfl | hc
    · simp [IsNumeric]
    · rcases List.mem_append.mp hc with hc | hc
      · exact Or.inl (h.isDigit c (List.mem_append_right _ hc))
      · exact (tail_spec n).1 c hc

theorem exists_chars (h : n.Spells m) : ∃ d rest, n.chars = d :: rest ∧ d.isDigit = true := by
  obtain ⟨d, whole, hwhole⟩ := List.exists_cons_of_ne_nil h.whole_ne
  refine ⟨d, whole ++ '.' :: (n.fraction ++ n.tail), by rw [Numeral.chars, hwhole]; rfl, ?_⟩
  exact h.isDigit d (by simp [hwhole])

/-- The parts of a number are found by their characters. -/
theorem cut_chars (h : n.Spells m) {p : Char → Bool} (hdigit : ∀ c, c.isDigit = true → p c = true)
    (hpoint : p '.' = false) :
    n.chars.takeWhile p = n.whole ∧ n.chars.dropWhile p = '.' :: (n.fraction ++ n.tail) := by
  have hwhole : ∀ c ∈ n.whole, p c = true :=
    fun c hc => hdigit c (h.isDigit c (List.mem_append_left _ hc))
  rw [Numeral.chars, List.takeWhile_append_of_pos hwhole, List.dropWhile_append_of_pos hwhole]
  simp [hpoint]

theorem cut_fraction (h : n.Spells m) {p : Char → Bool} (hdigit : ∀ c, c.isDigit = true → p c = true)
    (he : p 'e' = false) :
    (n.fraction ++ n.tail).takeWhile p = n.fraction ∧
      (n.fraction ++ n.tail).dropWhile p = n.tail := by
  have hfraction : ∀ c ∈ n.fraction, p c = true :=
    fun c hc => hdigit c (h.isDigit c (List.mem_append_right _ hc))
  rw [List.takeWhile_append_of_pos hfraction, List.dropWhile_append_of_pos hfraction]
  cases htail : n.tail with
  | nil => simp
  | cons c rest =>
      obtain rfl : c = 'e' := (tail_spec n).2.2.2 c (by rw [htail]; rfl)
      simp [he]

theorem isFloat_chars (hsign : sign = [] ∨ sign = ['-']) (h : n.Spells m) :
    Kind.isFloat (sign ++ n.chars) = true := by
  obtain ⟨d, rest, hchars, hd⟩ := exists_chars h
  have hunsigned : Kind.unsigned (sign ++ n.chars) = n.chars := by
    rw [hchars, unsigned_append hsign hd]
  obtain ⟨hbefore, hbehind⟩ := cut_chars h (p := (· ≠ '.')) (by
    rintro c hc
    rw [decide_eq_true_eq]
    rintro rfl
    cases hc) (by simp)
  obtain ⟨-, hrest⟩ := cut_fraction h (p := Kind.isPlace) (by
    intro c hc
    rw [Kind.isPlace, hc]
    rfl) rfl
  have hwhole : Kind.isWhole n.whole = true := by
    obtain ⟨c, whole, hcons⟩ := List.exists_cons_of_ne_nil h.whole_ne
    have hdigits : ∀ c ∈ n.whole, c.isDigit := fun c hc => h.isDigit c (List.mem_append_left _ hc)
    rw [hcons] at hdigits ⊢
    rw [Kind.isWhole, hdigits c (by simp), all_isPlace fun e he => hdigits e (by simp [he])]
    rfl
  unfold Kind.isFloat
  dsimp only
  rw [hunsigned, hbehind]
  dsimp only
  rw [hbefore, hrest, hwhole, (tail_spec n).2.1]
  rfl

theorem underscoresFit_of_isNumeric {w : List Char} (h : ∀ c ∈ w, IsNumeric c) {previous : Char}
    (hprevious : previous ≠ '_') : Reading.underscoresFit previous w = true := by
  induction w generalizing previous with
  | nil => simpa [Reading.underscoresFit] using hprevious
  | cons c w ih =>
      have hne : c ≠ '_' := (h c (by simp)).ne (by decide)
      simp [Reading.underscoresFit, hne, hprevious, ih (fun d hd => h d (by simp [hd])) hne]

theorem toLower_of_isDigit {c : Char} (h : c.isDigit = true) : c.toLower = c := by
  have := isDigit_iff.mp h
  have hval : c.val.toNat = c.toNat := rfl
  delta Char.toLower
  simp [UInt32.le_iff_toNat_le, hval]
  omega

/-- The number is read as the magnitude. -/
theorem float_chars (h : n.Spells m) : Reading.float (Text.ofChars n.chars) = .ok (.finite false m) := by
  obtain ⟨d, rest, hchars, hd⟩ := exists_chars h
  have hnumeric := isNumeric_chars h
  have hascii : OnOneLine n.chars := fun c hc => (hnumeric c hc).isPrintedAscii
  have htrimmed : Reading.trimmed (Text.ofChars n.chars) = n.chars := by
    rw [Reading.trimmed, Reading.map_plain_ofChars hascii]
    refine Cut.trim_of_forall_not fun c hc => ?_
    have := (hnumeric c hc).toNat
    simp [Reading.isPadding, (hnumeric c hc).ne (d := ' ') (by decide)]
    omega
  have hfilter : n.chars.filter (· != '_') = n.chars := by
    rw [List.filter_eq_self]
    exact fun c hc => bne_iff_ne.mpr ((hnumeric c hc).ne (by decide))
  have hsign : Reading.sign n.chars = (false, n.chars) := by
    rw [hchars]
    unfold Reading.sign
    split <;> simp_all
  have hfits : Reading.underscoresFit ' ' n.chars = true :=
    underscoresFit_of_isNumeric hnumeric (by decide)
  have hword {c : Char} {word : List Char} (hc : c.isDigit = false) :
      n.chars.map Char.toLower ≠ c :: word := by
    rw [hchars, List.map_cons, toLower_of_isDigit hd]
    rintro heq
    obtain ⟨rfl, -⟩ := List.cons.inj heq
    rw [hc] at hd
    cases hd
  have hdecimal : Reading.decimal? false n.chars = some (.finite false m) := by
    obtain ⟨hwhole, hbehind⟩ := cut_chars h (p := Char.isDigit) (fun _ hc => hc) rfl
    obtain ⟨hfraction, hrest⟩ := cut_fraction h (p := Char.isDigit) (fun _ hc => hc) rfl
    have hvalue := h.value
    unfold Reading.decimal?
    rw [hwhole, hbehind]
    simp only [hfraction, hrest, (tail_spec n).2.2.1]
    rw [if_neg (by simp [h.whole_ne]), Option.map_some, hvalue]
  unfold Reading.float
  simp only [htrimmed, hfilter, hsign, hfits, hdecimal, Bool.not_true, Bool.false_eq_true, if_false]
  rw [if_neg, if_neg]
  · exact hword rfl
  · rw [Bool.or_eq_true, decide_eq_true_eq, decide_eq_true_eq]
    exact not_or.mpr ⟨hword rfl, hword rfl⟩

/-- A sign before the number becomes that of the double. -/
theorem float_signed (hsign : sign = [] ∨ sign = ['-']) (h : n.Spells m) :
    Scalar.float (Text.ofChars (sign ++ n.chars)) = .ok (.finite (!sign.isEmpty) m) := by
  obtain ⟨d, rest, hchars, hd⟩ := exists_chars h
  have hread := float_chars h
  have hdigit := isDigit_iff.mp hd
  have hnumeric := isNumeric_sign hsign (isNumeric_chars h)
  have hlower : (Text.ofChars (sign ++ n.chars)).map CodePoint.asciiLower =
      Text.ofChars (sign ++ n.chars) := by
    refine (List.map_congr_left fun c hc => ?_).trans (List.map_id _)
    obtain ⟨e, he, rfl⟩ := List.mem_map.mp hc
    have := (hnumeric e he).toNat
    have hother : ¬ ((0x41 ≤ e.toNat && e.toNat ≤ 0x5A) = true) := by
      rw [Bool.and_eq_true, decide_eq_true_eq, decide_eq_true_eq]
      omega
    rw [CodePoint.asciiLower, show (CodePoint.ofChar e).val = e.toNat from rfl, if_neg hother]
    rfl
  have hcolon : (Text.ofChars n.chars).any (·.val == 0x3A) = false := by
    rw [List.any_eq_false]
    intro c hc
    obtain ⟨e, he, rfl⟩ := List.mem_map.mp hc
    have := (isNumeric_chars h e he).toNat
    rw [beq_iff_eq, show (CodePoint.ofChar e).val = e.toNat from rfl]
    omega
  have hword {c : CodePoint} {word : Text} (hc : c.val = 0x2E) : Text.ofChars n.chars ≠ c :: word := by
    rw [hchars]
    rintro heq
    have := congrArg CodePoint.val (List.cons.inj heq).1
    rw [hc, show (CodePoint.ofChar d).val = d.toNat from rfl] at this
    omega
  rw [Scalar.float, withoutUnderscores_ofChars hnumeric, hlower]
  have htake : takeSign (Text.ofChars (sign ++ n.chars)) = .ok (!sign.isEmpty, Text.ofChars n.chars) := by
    rw [hchars]
    exact takeSign_append hsign hd
  have hnan : Text.ofChars n.chars ≠ Text.ofString ".nan" := hword rfl
  have hinf : Text.ofChars n.chars ≠ Text.ofString ".inf" := hword rfl
  have hdecimal : decimal (Text.ofChars n.chars) = .ok (.finite false m) := by rw [decimal, hread]
  simp only [bind, Except.bind, htake, if_neg hnan, if_neg hinf, hcolon, Bool.false_eq_true, if_false,
    hdecimal]
  rcases hsign with rfl | rfl <;> rfl

end

theorem spells_numeral {n : Numeral} {m : Magnitude} {sign : List Char}
    (hsign : sign = [] ∨ sign = ['-']) (h : n.Spells m) :
    Spells (sign ++ n.chars) (.float (.finite (!sign.isEmpty) m)) := by
  have hread := float_signed hsign h
  have hfloat := isFloat_chars hsign h
  have hnumeric := isNumeric_sign hsign (isNumeric_chars h)
  obtain ⟨d, rest, hchars, hd⟩ := exists_chars h
  rw [hchars] at hread hfloat hnumeric ⊢
  refine ⟨bare_of_isNumeric hnumeric, startsPlain_of_digit hsign hd, ?_⟩
  rw [ofPlain_ofChars (not_newLine_of_isNumeric hnumeric), not_truthWord hsign hd, hfloat]
  simp only [Bool.false_eq_true, if_false, if_true, Scalar.build, hread]
  rfl

theorem float_of_point {negative : Bool} {m : Magnitude} {cs : List Char}
    (hrender : (Binary64.finite negative m).render = cs) (hpoint : '.' ∈ cs) :
    Printer.float (.finite negative m) = cs := by
  unfold Printer.float
  dsimp only
  rw [hrender, if_pos (by simp [hpoint])]

/-- Where there is none, a point and a zero are put before the exponent. -/
theorem float_of_exponent {negative : Bool} {m : Magnitude} {before behind : List Char}
    (hrender : (Binary64.finite negative m).render = before ++ 'e' :: behind)
    (hbefore : ∀ c ∈ before, c ≠ '.' ∧ c ≠ 'e') (hbehind : '.' ∉ behind) :
    Printer.float (.finite negative m) = before ++ '.' :: '0' :: 'e' :: behind := by
  have hpoint : '.' ∉ before := fun h => (hbefore '.' h).1 rfl
  have hpass : ∀ c ∈ before, (decide (c ≠ 'e')) = true :=
    fun c hc => decide_eq_true (hbefore c hc).2
  unfold Printer.float
  dsimp only
  rw [hrender, if_neg (by simp [hpoint, hbehind]), List.takeWhile_append_of_pos hpass,
    List.dropWhile_append_of_pos hpass]
  simp

/-- **A finite double is printed as a number with a point**, and the number is read as the double. -/
theorem exists_numeral (negative : Bool) (m : Magnitude) : ∃ n : Numeral, n.Spells m ∧
    Printer.float (.finite negative m) = (if negative then ['-'] else []) ++ n.chars := by
  have hpointed {n : Numeral} (hrender : (Decimal.shortest m).render = n.chars) :
      Printer.float (.finite negative m) = (if negative then ['-'] else []) ++ n.chars :=
    float_of_point (congrArg _ hrender) (by simp [Numeral.chars])
  by_cases hzero : m.significand = 0
  · refine ⟨_, Numeral.spells_zero hzero, hpointed ?_⟩
    rw [Decimal.shortest, if_pos hzero]
    rfl
  · rcases (Decimal.spells_shortest hzero).render with ⟨n, hspells, hrender⟩ | ⟨first, hspells, hrender⟩
    · exact ⟨n, hspells, hpointed hrender⟩
    · obtain ⟨mark, digits, hpart, hmark, -, hdigits, -⟩ :=
        exists_exponentPart (Decimal.shortest m).place
      have hfirst : first.isDigit = true := hspells.isDigit first (by simp)
      have hsign : ∀ c ∈ (if negative then ['-'] else []) ++ [first], c ≠ '.' ∧ c ≠ 'e' := by
        intro c hc
        rcases List.mem_append.mp hc with hc | hc
        · cases negative with
          | false => cases hc
          | true => rw [List.mem_singleton.mp hc]; decide
        · rw [List.mem_singleton.mp hc]
          constructor <;> (rintro rfl; exact absurd hfirst (by decide))
      have hbehind : '.' ∉ mark :: digits := by
        rw [List.mem_cons, not_or, hmark]
        refine ⟨by split <;> decide, fun h => absurd (hdigits '.' h) (by decide)⟩
      refine ⟨_, hspells, ?_⟩
      have hsigned : (Binary64.finite negative m).render =
          ((if negative then ['-'] else []) ++ [first]) ++ 'e' :: mark :: digits := by
        rw [Binary64.render, hrender, hpart, List.append_assoc]
        rfl
      rw [float_of_exponent hsigned hsign hbehind, Numeral.chars, Numeral.tail]
      dsimp only
      rw [hpart, List.append_assoc]
      rfl

theorem spells_float : (x : Binary64) → Spells (Printer.float x) (.float x)
  | .nan => .of_all (by decide) ⟨'.', _, rfl, by decide, Or.inl (by decide)⟩ rfl
  | .infinite false => .of_all (by decide) ⟨'.', _, rfl, by decide, Or.inl (by decide)⟩ rfl
  | .infinite true =>
      .of_all (by decide) ⟨'-', _, rfl, by decide, Or.inr ⟨by decide, '.', _, rfl, by decide⟩⟩ rfl
  | .finite negative m => by
      obtain ⟨n, hspells, hprinted⟩ := exists_numeral negative m
      rw [hprinted]
      cases negative with
      | false => exact spells_numeral (Or.inl rfl) hspells
      | true => exact spells_numeral (Or.inr rfl) hspells

end LanguageClient.Yaml
