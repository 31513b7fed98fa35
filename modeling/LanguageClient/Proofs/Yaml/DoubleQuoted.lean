import LanguageClient.Proofs.Yaml.Cursor
import LanguageClient.Yaml.Printer
import LanguageClient.Yaml.Scalar
import Mathlib.Algebra.GroupWithZero.Nat

/-!
# Texts between double quotes

Between double quotes every code point can be written, a surrogate too: as itself, or as an escape
(`escape_escape`).  A line may be broken behind a backslash, and then the line break and the indentation
behind it count for nothing.

Everything that the reader takes in one round may stand before anything that it reads (`ReadsDouble`),
and the printer puts nothing else together (`readsDouble_escaped`).  There is
one exception.  A line that is broken behind an escape goes on with a marked space, if a space comes
next.  Where the indentation alone is wider than a line, the printer breaks such a line once more,
between the mark and the space; the text is torn, and the mark is read as a backslash.  `IsTorn` says
which texts have a place for that.
-/

namespace LanguageClient.Yaml.Scalar

open Cursor

/-! ## Numbers of characters -/

theorem hexNumber_append_singleton (digits : List Char) (c : Char) :
    hexNumber (digits ++ [c]) = hexNumber digits * 16 + hexValue c := by
  simp [hexNumber]

theorem capitalDigit : ∀ d, d < 16 →
    hexValue (Nat.digitChar d).toUpper = d ∧ isHexDigit (Nat.digitChar d).toUpper = true := by
  decide

theorem hexNumber_toDigits (n : Nat) : hexNumber ((Nat.toDigits 16 n).map Char.toUpper) = n := by
  induction n using Nat.strong_induction_on with
  | _ n ih =>
      rcases Nat.lt_or_ge n 16 with hlt | hge
      · rw [Nat.toDigits_of_lt_base hlt]
        have hdigit := (capitalDigit n hlt).1
        simp [hexNumber, hdigit]
      · rw [Nat.toDigits_of_base_le (by decide) hge, List.map_append, List.map_singleton,
          hexNumber_append_singleton, ih (n / 16) (by omega), (capitalDigit _ (by omega)).1]
        omega

theorem isHexDigit_of_mem_toDigits {n : Nat} {c : Char}
    (h : c ∈ (Nat.toDigits 16 n).map Char.toUpper) : isHexDigit c = true := by
  induction n using Nat.strong_induction_on generalizing c with
  | _ n ih =>
      rcases Nat.lt_or_ge n 16 with hlt | hge
      · rw [Nat.toDigits_of_lt_base hlt, List.map_singleton, List.mem_singleton] at h
        rw [h]
        exact (capitalDigit n hlt).2
      · rw [Nat.toDigits_of_base_le (by decide) hge, List.map_append, List.map_singleton] at h
        rcases List.mem_append.mp h with h | h
        · exact ih (n / 16) (by omega) h
        · rw [List.mem_singleton.mp h]
          exact (capitalDigit _ (by omega)).2

theorem hexNumber_zeros_append (zeros : Nat) (digits : List Char) :
    hexNumber (List.replicate zeros '0' ++ digits) = hexNumber digits := by
  induction zeros with
  | zero => rfl
  | succ zeros ih => rw [List.replicate_succ, List.cons_append, ← ih]; rfl

/-- The digits of a code of a fixed length. -/
theorem capitalHex_spec {width n : Nat} (hwidth : 0 < width) (h : n < 16 ^ width) :
    (Printer.capitalHex width n).length = width ∧
      (∀ c ∈ Printer.capitalHex width n, isHexDigit c = true) ∧
      hexNumber (Printer.capitalHex width n) = n := by
  have hlength : (Nat.toDigits 16 n).length ≤ width :=
    (Nat.length_toDigits_le_iff (by decide) hwidth).mpr h
  refine ⟨?_, ?_, ?_⟩
  · simp [Printer.capitalHex]
    omega
  · intro c hc
    rcases List.mem_append.mp hc with hc | hc
    · rw [List.eq_of_mem_replicate hc]
      rfl
    · exact isHexDigit_of_mem_toDigits hc
  · rw [Printer.capitalHex, hexNumber_zeros_append, hexNumber_toDigits]

theorem codeEscape_capitalHex {width : Nat} {code : CodePoint} (hwidth : 0 < width)
    (h : code.val < 16 ^ width) {c : Cursor} {more : List Char}
    (hrest : c.rest = Printer.capitalHex width code.val ++ more) :
    codeEscape width c = .ok (code, c.advance width) := by
  obtain ⟨hlength, hhex, hnumber⟩ := capitalHex_spec hwidth h
  have htake : c.rest.take width = Printer.capitalHex width code.val := by
    rw [hrest, List.take_left' hlength]
  have hall : (Printer.capitalHex width code.val).all isHexDigit = true := List.all_eq_true.mpr hhex
  unfold codeEscape
  simp only [htake, hlength, hall, hnumber, Nat.lt_irrefl, decide_false, Bool.not_true, Bool.or_self,
    Bool.false_eq_true, if_false, dif_pos code.lt]

/-! ## Escapes -/

/-- A letter stands for the character it is written for. -/
theorem escape?_of_shortEscape? {n : Nat} {letter : Char} (h : Printer.shortEscape? n = some letter) :
    ∃ ch, escape? letter = some ch ∧ ch.toNat = n := by
  unfold Printer.shortEscape? at h
  split at h <;> first
    | (obtain rfl := Option.some.inj h; exact ⟨_, rfl, rfl⟩)
    | cases h

theorem ofChar_eq {c : CodePoint} {ch : Char} (h : ch.toNat = c.val) : CodePoint.ofChar ch = c :=
  CodePoint.ext h

/-- The cursor behind an escape; its backslash has been passed. -/
theorem escape_escape (code : CodePoint) {c : Cursor} {more : List Char}
    (h : c.rest = Printer.escape code ++ more) :
    escape c.step = .ok ([code], c.advance (Printer.escape code).length) := by
  cases hshort : Printer.shortEscape? code.val with
  | some letter =>
      obtain ⟨ch, hescape, hch⟩ := escape?_of_shortEscape? hshort
      have hwritten : Printer.escape code = ['\\', letter] := by
        unfold Printer.escape
        rw [hshort]
      rw [hwritten] at h ⊢
      have hpeek : c.step.peek = some letter := by
        rw [peek, rest_step, h]
        rfl
      unfold escape
      rw [hpeek]
      dsimp only
      rw [hescape]
      dsimp only
      rw [ofChar_eq hch]
      rfl
  | none =>
      obtain ⟨letter, width, hwritten, hescape, hlength, hpos, hfits⟩ : ∃ letter width,
          Printer.escape code = '\\' :: letter :: Printer.capitalHex width code.val ∧
            escape? letter = none ∧ codeLength? letter = some width ∧ 0 < width ∧
            code.val < 16 ^ width := by
        have hlt := code.lt
        unfold Printer.escape
        rw [hshort]
        dsimp only
        split
        next h => exact ⟨'x', 2, rfl, rfl, rfl, by decide, h⟩
        next =>
          split
          next h => exact ⟨'u', 4, rfl, rfl, rfl, by decide, h⟩
          next => exact ⟨'U', 8, rfl, rfl, rfl, by decide, by omega⟩
      rw [hwritten] at h ⊢
      have hpeek : c.step.peek = some letter := by
        rw [peek, rest_step, h]
        rfl
      have hcode : c.step.step.rest = Printer.capitalHex width code.val ++ more := by
        rw [rest_step, rest_step, h]
        rfl
      unfold escape
      rw [hpeek]
      dsimp only
      rw [hescape, hlength]
      dsimp only
      rw [codeEscape_capitalHex hpos hfits hcode, List.length_cons, List.length_cons,
        (capitalHex_spec hpos hfits).1]
      rfl

/-! ## Breaks and gaps -/

theorem isGap_eq_false_iff {ch : Char} :
    isGap ch = false ↔ isBlank ch = false ∧ isBreak ch = false := by
  simp [isGap]

/-- The indentation of a line behind a break; no more breaks follow. -/
theorem quotedBreaks_indentation {n fuel : Nat} {breaks : Text} {c : Cursor} {more : List Char}
    (h : c.rest = List.replicate (n + 1) ' ' ++ more) (hmore : ∀ ch ∈ more.head?, isGap ch = false) :
    quotedBreaks (fuel + 1) breaks c = .ok (breaks, c.advance (n + 1)) := by
  have hindented : c.atSeparator = false :=
    atSeparator_of_indented (h.trans rfl) ⟨by decide, by decide⟩
  have hspan : c.span isBlank = (List.replicate (n + 1) ' ', c.advance (n + 1)) :=
    span_replicate h rfl fun ch hch => (isGap_eq_false_iff.mp (hmore ch hch)).1
  have hbreak : (c.advance (n + 1)).takeBreak? = none := by
    apply takeBreak?_of_not
    rw [rest_advance_replicate h]
    exact fun ch hch => (isGap_eq_false_iff.mp (hmore ch hch)).2
  rw [quotedBreaks]
  simp only [hindented, Bool.false_eq_true, if_false, skip, hspan, hbreak]

/-- Blanks within a line stand for themselves. -/
theorem quotedGap_blanks {n : Nat} {c : Cursor} {ch : Char} {more : List Char}
    (h : c.rest = List.replicate n ' ' ++ ch :: more) (hch : isGap ch = false) :
    quotedGap c = .ok (List.replicate n (CodePoint.ofChar ' '), c.advance n) := by
  obtain ⟨hblank, hbreak⟩ := isGap_eq_false_iff.mp hch
  have hspan : c.span isBlank = (List.replicate n ' ', c.advance n) :=
    span_replicate h rfl fun d hd => Option.some.inj hd ▸ hblank
  have hbehind : (c.advance n).rest = ch :: more := rest_advance_replicate h
  have hnone : (c.advance n).takeBreak? = none := by
    apply takeBreak?_of_not
    rw [hbehind]
    exact fun d hd => Option.some.inj hd ▸ hbreak
  unfold quotedGap
  simp only [hspan, peek_eq hbehind, hnone, Text.ofChars, List.map_replicate]

/-! ## What is read between double quotes -/

/-- Behind a double quote, and with another one behind them, the characters are read as the text. -/
def ReadsDouble (w : List Char) (t : Text) : Prop :=
  ∀ (fuel : Nat) (done : Text) (c : Cursor) (more : List Char), c.rest = w ++ '"' :: more →
    c.rest.length < fuel →
    doubleQuoted fuel done c = .ok (done.reverse ++ t, c.advance (w.length + 1))

namespace ReadsDouble

variable {v w : List Char} {s t : Text}

theorem nil : ReadsDouble [] [] := by
  intro fuel done c more hrest hfuel
  obtain ⟨fuel, rfl⟩ := Nat.exists_eq_add_one_of_ne_zero (Nat.ne_zero_of_lt hfuel)
  rw [doubleQuoted, peek_eq hrest, List.append_nil]
  rfl

/-- What is read in one round may stand before what is read. -/
theorem round (hv : v ≠ [])
    (hround : ∀ fuel done c more, c.rest = v ++ (w ++ '"' :: more) →
      doubleQuoted (fuel + 1) done c = doubleQuoted fuel (s.reverse ++ done) (c.advance v.length))
    (h : ReadsDouble w t) : ReadsDouble (v ++ w) (s ++ t) := by
  intro fuel done c more hrest hfuel
  rw [List.append_assoc] at hrest
  obtain ⟨fuel, rfl⟩ := Nat.exists_eq_add_one_of_ne_zero (Nat.ne_zero_of_lt hfuel)
  have hne : c.rest ≠ [] := by simp [hrest, hv]
  rw [hround fuel done c _ hrest, h fuel _ _ more (rest_advance_append hrest)
    (length_rest_advance_lt (List.length_pos_iff.mpr hv) hne hfuel), ← advance_add,
    List.length_append, Nat.add_assoc]
  simp

theorem char {ch : Char} (hquote : ch ≠ '"') (hslash : ch ≠ '\\') (hgap : isGap ch = false)
    (h : ReadsDouble w t) : ReadsDouble (ch :: w) (CodePoint.ofChar ch :: t) := by
  refine round (v := [ch]) (s := [CodePoint.ofChar ch]) (by simp) ?_ h
  intro fuel done c more hrest
  rw [doubleQuoted, peek_eq (hrest.trans rfl)]
  dsimp only
  rw [if_neg (by simpa using hquote), if_neg (by simpa using hslash), if_neg (by simp [hgap])]
  rfl

/-- Blanks are passed at once, up to what stands behind them. -/
theorem blanks (n : Nat) (hw : ∀ ch ∈ w.head?, isGap ch = false) (h : ReadsDouble w t) :
    ReadsDouble (List.replicate n ' ' ++ w) (List.replicate n (CodePoint.ofChar ' ') ++ t) := by
  cases n with
  | zero => exact h
  | succ n =>
      refine round (by simp) ?_ h
      intro fuel done c more hrest
      obtain ⟨ch, behind, hsplit, hch⟩ : ∃ ch behind, w ++ '"' :: more = ch :: behind ∧
          isGap ch = false := by
        cases w with
        | nil => exact ⟨'"', more, rfl, rfl⟩
        | cons ch w => exact ⟨ch, _, rfl, hw ch rfl⟩
      rw [hsplit] at hrest
      rw [doubleQuoted, peek_eq (hrest.trans rfl)]
      dsimp only
      rw [if_neg (by decide), if_neg (by decide), if_pos (by decide), quotedGap_blanks hrest hch,
        List.length_replicate]
      rfl

theorem backslash {fuel : Nat} {done text : Text} {c c' : Cursor} {more : List Char}
    (h : c.rest = '\\' :: more) (hescape : escape c.step = .ok (text, c')) :
    doubleQuoted (fuel + 1) done c = doubleQuoted fuel (text.reverse ++ done) c' := by
  rw [doubleQuoted, peek_eq h]
  dsimp only
  rw [if_neg (by decide), if_pos (by decide), hescape]
  rfl

theorem escaped (code : CodePoint) (h : ReadsDouble w t) :
    ReadsDouble (Printer.escape code ++ w) (code :: t) := by
  obtain ⟨written, hwritten⟩ : ∃ written, Printer.escape code = '\\' :: written := by
    unfold Printer.escape
    split
    · exact ⟨_, rfl⟩
    · split
      · exact ⟨_, rfl⟩
      · split
        · exact ⟨_, rfl⟩
        · exact ⟨_, rfl⟩
  refine round (s := [code]) (by simp [hwritten]) ?_ h
  intro fuel done c more hrest
  have hslash : c.rest = '\\' :: (written ++ (w ++ '"' :: more)) := by rw [hrest, hwritten]; rfl
  exact backslash hslash (escape_escape code hrest)

/-- A space that a backslash stands before. -/
theorem marked (h : ReadsDouble w t) :
    ReadsDouble ('\\' :: ' ' :: w) (CodePoint.ofChar ' ' :: t) := by
  refine round (v := ['\\', ' ']) (s := [CodePoint.ofChar ' ']) (by simp) ?_ h
  intro fuel done c more hrest
  have hstep : c.step.rest = ' ' :: (w ++ '"' :: more) := by
    rw [rest_step, hrest]
    rfl
  apply backslash (hrest.trans rfl)
  unfold escape
  rw [peek_eq hstep]
  rfl

/-- A line that is broken behind a backslash. -/
theorem broken (n : Nat) (hw : ∀ ch ∈ w.head?, isGap ch = false) (h : ReadsDouble w t) :
    ReadsDouble ('\\' :: Printer.newLine (n + 1) ++ w) t := by
  refine round (v := '\\' :: Printer.newLine (n + 1)) (s := []) (by simp) ?_ h
  intro fuel done c more hrest
  have hstep : c.step.rest = '\n' :: (List.replicate (n + 1) ' ' ++ (w ++ '"' :: more)) := by
    rw [rest_step, hrest]
    rfl
  have hline : c.step.step.rest = List.replicate (n + 1) ' ' ++ (w ++ '"' :: more) := by
    rw [rest_step, hstep]
    rfl
  have hmore : ∀ ch ∈ (w ++ '"' :: more).head?, isGap ch = false := by
    cases w with
    | nil => exact fun ch hch => Option.some.inj hch ▸ rfl
    | cons d w => exact hw
  have hletter : escape? '\n' = none ∧ codeLength? '\n' = none := ⟨rfl, rfl⟩
  apply backslash (hrest.trans rfl)
  unfold escape
  rw [peek_eq hstep]
  dsimp only
  rw [hletter.1, hletter.2]
  dsimp only
  rw [if_pos (by decide), quotedBreaks_indentation hline hmore]
  simp [advance_succ, Printer.newLine, Printer.spaces]

end ReadsDouble

/-! ## What is printed between double quotes -/

section Printed

open Printer (isEscaped isSpace lineWidth)

/-- The text has an escape that a space follows, not at the end. -/
def tears : Text → Bool
  | a :: b :: rest => (isEscaped a && isSpace b && !rest.isEmpty) || tears (b :: rest)
  | _ => false

theorem tears_tail {a : CodePoint} {t : Text} (h : tears (a :: t) = false) : tears t = false := by
  cases t with
  | nil => rfl
  | cons b rest => exact (Bool.or_eq_false_iff.mp h).2

/-- Where an escape is followed by a space, the text ends. -/
theorem eq_nil_of_tears {a b : CodePoint} {t : Text} (h : tears (a :: b :: t) = false)
    (ha : isEscaped a = true) (hb : isSpace b = true) : t = [] := by
  have hfirst := (Bool.or_eq_false_iff.mp h).1
  simpa [ha, hb] using hfirst

theorem toChar_of_isSpace {c : CodePoint} (h : isSpace c = true) :
    c.toChar = ' ' ∧ CodePoint.ofChar ' ' = c := by
  have hval : c.val = 0x20 := by simpa [isSpace] using h
  obtain rfl : CodePoint.ofChar ' ' = c := CodePoint.ext hval.symm
  exact ⟨CodePoint.toChar_ofChar ' ', rfl⟩

theorem isEscaped_of_isSpace {c : CodePoint} (h : isSpace c = true) : isEscaped c = false := by
  obtain ⟨-, rfl⟩ := toChar_of_isSpace h
  decide

/-- A character that is written as itself. -/
theorem toChar_of_not_isEscaped {c : CodePoint} (h : isEscaped c = false) (hspace : isSpace c = false) :
    c.toChar ≠ '"' ∧ c.toChar ≠ '\\' ∧ isGap c.toChar = false ∧ CodePoint.ofChar c.toChar = c := by
  have hval : c.val ≠ 0x20 := by simpa [isSpace] using hspace
  simp only [isEscaped, Printer.isBreak, Bool.or_eq_false_iff, decide_eq_false_iff_not,
    Bool.not_eq_false', Bool.or_eq_true, Bool.and_eq_true, decide_eq_true_eq] at h
  have hscalar : c.IsScalar := by
    unfold CodePoint.IsScalar
    omega
  have hnumber := hscalar.toNat_toChar
  refine ⟨?_, ?_, ?_, hscalar.ofChar_toChar⟩
  · rw [ne_eq, ← Char.toNat_inj, hnumber]
    exact h.1.1.1.1
  · rw [ne_eq, ← Char.toNat_inj, hnumber]
    exact h.1.1.1.2
  · rw [isGap_eq_false_iff, ← Bool.not_eq_true, ← Bool.not_eq_true, isBlank_iff, isBreak_iff, hnumber]
    omega

variable {mayFold isFirst afterEscape : Bool} {indent column : Nat} {t : Text}

theorem head?_escape (c : CodePoint) (w : List Char) :
    (Printer.escape c ++ w).head? = some '\\' := by
  unfold Printer.escape
  split
  · rfl
  · split
    · rfl
    · split <;> rfl

/-- No escape and no broken line starts with a gap. -/
theorem isGap_of_backslash {w : List Char} (hw : w.head? = some '\\') :
    ∀ ch ∈ w.head?, isGap ch = false := by
  intro ch hch
  rw [hw] at hch
  exact Option.some.inj hch ▸ rfl

/-- What is printed starts with a gap only if the text starts with a space. -/
theorem isGap_head?_escaped (ht : ∀ c ∈ t.head?, isSpace c = false) :
    ∀ ch ∈ (Printer.escaped mayFold indent isFirst afterEscape column t).head?,
      isGap ch = false := by
  intro ch hch
  cases t with
  | nil => cases hch
  | cons c rest =>
      have hspace := ht c rfl
      unfold Printer.escaped at hch
      dsimp only at hch
      split at hch
      next =>
        split at hch
        · rw [List.append_assoc] at hch
          exact isGap_of_backslash (head?_escape c _) ch hch
        · exact isGap_of_backslash (head?_escape c _) ch hch
      next hescaped =>
        have hchar := toChar_of_not_isEscaped (Bool.not_eq_true _ ▸ hescaped) hspace
        split at hch
        · exact Option.some.inj hch ▸ rfl
        · exact Option.some.inj hch ▸ hchar.2.2.1

/-- A broken line before something that starts with a character of the text. -/
theorem readsDouble_brokenLine {next : Option CodePoint} {w : List Char} {t : Text}
    (hindent : 0 < indent) (hw : ∀ ch ∈ w.head?, next.any isSpace = false → isGap ch = false)
    (hmarked : next.any isSpace = true → ∃ w' t', w = ' ' :: w' ∧ t = CodePoint.ofChar ' ' :: t' ∧
      ReadsDouble w' t')
    (h : next.any isSpace = false → ReadsDouble w t) :
    ReadsDouble (Printer.brokenLine indent next ++ w) t := by
  obtain ⟨indent, rfl⟩ := Nat.exists_eq_add_one_of_ne_zero hindent.ne'
  unfold Printer.brokenLine
  cases hnext : next.any isSpace with
  | true =>
      obtain ⟨w', t', rfl, rfl, hreads⟩ := hmarked hnext
      rw [if_pos rfl, List.append_assoc]
      exact .broken indent (fun ch hch => Option.some.inj hch ▸ rfl) hreads.marked
  | false =>
      rw [if_neg (by decide), List.append_nil]
      exact .broken indent (fun ch hch => hw ch hch hnext) (h hnext)

/-- A space behind a broken line stays there, unless the text is torn. -/
theorem escaped_of_isSpace {b : CodePoint} {rest : Text} (hb : isSpace b = true)
    (hstay : lineWidth ≤ indent → rest = []) :
    Printer.escaped mayFold indent false afterEscape (Printer.columnAfterBreak indent (some b))
        (b :: rest) =
      ' ' :: Printer.escaped mayFold indent false false (indent + 1 + 1) rest := by
  have hcolumn : Printer.columnAfterBreak indent (some b) = indent + 1 := by
    simp [Printer.columnAfterBreak, hb]
  rw [hcolumn, Printer.escaped]
  simp only [isEscaped_of_isSpace hb, Bool.false_eq_true, if_false, (toChar_of_isSpace hb).1]
  rw [if_neg]
  intro hbreak
  simp only [Bool.and_eq_true, Bool.not_eq_true', decide_eq_true_eq] at hbreak
  obtain rfl := hstay (Nat.le_of_lt_succ hbreak.2)
  simp at hbreak

/-- **What is printed between double quotes is read as the text**, unless it is torn. -/
theorem readsDouble_escaped (hindent : mayFold = true → 0 < indent)
    (htear : mayFold = true → lineWidth ≤ indent →
      tears (if isFirst then t.tail else t) = false) (n : Nat) :
    ReadsDouble
      (List.replicate n ' ' ++ Printer.escaped mayFold indent isFirst afterEscape column t)
      (List.replicate n (CodePoint.ofChar ' ') ++ t) := by
  induction hlength : t.length using Nat.strong_induction_on
    generalizing n t isFirst afterEscape column with
  | _ length ih =>
  -- The rest of a text may be printed in any state but the first one.
  have hlater {c : CodePoint} {rest : Text} (ht : t = c :: rest) :
      mayFold = true → lineWidth ≤ indent → tears rest = false := by
    intro hfold hwide
    have := htear hfold hwide
    subst ht
    cases isFirst with
    | true => exact this
    | false => exact tears_tail this
  cases t with
  | nil => exact .blanks n (by simp [Printer.escaped]) .nil
  | cons c rest =>
      have hrest (afterEscape : Bool) (column n : Nat) :
          ReadsDouble
            (List.replicate n ' ' ++ Printer.escaped mayFold indent false afterEscape column rest)
            (List.replicate n (CodePoint.ofChar ' ') ++ rest) :=
        ih rest.length (by rw [← hlength]; exact Nat.lt_succ_self _) (by simpa using hlater rfl) n rfl
      unfold Printer.escaped
      dsimp only
      cases hescaped : isEscaped c with
      | true =>
          rw [if_pos rfl]
          split
          next hbreak =>
            rw [List.append_assoc]
            apply ReadsDouble.blanks n (isGap_of_backslash (head?_escape c _))
            apply ReadsDouble.escaped
            simp only [Bool.and_eq_true, Bool.not_eq_true'] at hbreak
            obtain ⟨⟨⟨hfold, rfl⟩, hne⟩, -⟩ := hbreak
            apply readsDouble_brokenLine (hindent hfold)
            · intro ch hch hnext
              exact isGap_head?_escaped (fun d hd => by rw [hd] at hnext; exact hnext) ch hch
            · intro hnext
              cases rest with
              | nil => simp at hne
              | cons b rest =>
                  have hb : isSpace b = true := hnext
                  have hend (hwide : lineWidth ≤ indent) : rest = [] :=
                    eq_nil_of_tears (htear hfold hwide) hescaped hb
                  refine ⟨_, rest, escaped_of_isSpace hb hend, by rw [(toChar_of_isSpace hb).2], ?_⟩
                  exact ih rest.length (by simp only [← hlength, List.length_cons]; omega)
                    (fun hfold hwide => tears_tail (hlater rfl hfold hwide)) 0 rfl
            · intro _
              exact hrest _ _ 0
          next =>
            apply ReadsDouble.blanks n (isGap_of_backslash (head?_escape c _))
            exact (hrest _ _ 0).escaped c
      | false =>
          rw [if_neg (by decide)]
          cases hspace : isSpace c with
          | true =>
              obtain ⟨hchar, hcode⟩ := toChar_of_isSpace hspace
              rw [hchar]
              split
              next hbreak =>
                simp only [Bool.and_eq_true] at hbreak
                apply ReadsDouble.blanks n (isGap_of_backslash rfl)
                apply readsDouble_brokenLine (hindent hbreak.1.1.1.1)
                · intro ch _ hnext
                  simp [hspace] at hnext
                · intro _
                  exact ⟨_, rest, rfl, by rw [hcode], hrest _ _ 0⟩
                · intro hnext
                  simp [hspace] at hnext
              next =>
                have hreads := hrest false (column + 1) (n + 1)
                rw [List.replicate_succ', List.replicate_succ', List.append_assoc, List.append_assoc,
                  List.singleton_append, List.singleton_append] at hreads
                rwa [← hcode]
          | false =>
              obtain ⟨hquote, hslash, hgap, hcode⟩ := toChar_of_not_isEscaped hescaped hspace
              have hchar (column : Nat) : ReadsDouble
                  (c.toChar :: Printer.escaped mayFold indent false false column rest)
                  (c :: rest) := by
                have hreads := ReadsDouble.char hquote hslash hgap (hrest false column 0)
                rwa [hcode] at hreads
              split
              next hbreak =>
                simp only [Bool.and_eq_true] at hbreak
                apply ReadsDouble.blanks n (isGap_of_backslash rfl)
                apply readsDouble_brokenLine (hindent hbreak.1.1.1.1)
                · intro ch hch _
                  exact Option.some.inj hch ▸ hgap
                · intro hnext
                  simp [hspace] at hnext
                · intro _
                  exact hchar _
              next => exact (hchar _).blanks n (fun ch hch => Option.some.inj hch ▸ hgap)

end Printed

end LanguageClient.Yaml.Scalar
