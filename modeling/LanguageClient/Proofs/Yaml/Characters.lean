import LanguageClient.Proofs.Yaml.SingleQuoted

/-!
# The characters of a printed text

A printed text consists of characters that a YAML text may hold, and no carriage return is among them
(`isWritten_of_mem_text`): whatever is none of these is written as an escape.  Where no line is broken
and the text has no breaks of its own, it stays on one line (`isInline_of_mem_text`).  Both come from one
account of the characters there are (`forall_mem_text`).
-/

namespace LanguageClient.Yaml

open Printer (isSpace isSpecial isEscaped)

/-- The character may stand in a YAML text, and is read as it is written. -/
structure IsWritten (ch : Char) : Prop where
  allowed : isAllowed ch = true
  noReturn : ch ≠ '\r'
  noMark : ch ≠ '\uFEFF'

theorem isAllowed_iff {ch : Char} : isAllowed ch = true ↔ ch.toNat = 0x09 ∨ ch.toNat = 0x0A ∨
    ch.toNat = 0x0D ∨ (0x20 ≤ ch.toNat ∧ ch.toNat ≤ 0x7E) ∨ ch.toNat = 0x85 ∨
    (0xA0 ≤ ch.toNat ∧ ch.toNat ≤ 0xFFFD) ∨ 0x10000 ≤ ch.toNat := by
  simp [isAllowed, or_assoc]

theorem IsWritten.of_toNat {ch : Char} (h : ch.toNat = 0x0A ∨ (0x20 ≤ ch.toNat ∧ ch.toNat ≤ 0x7E) ∨
    ch.toNat = 0x85 ∨ (0xA0 ≤ ch.toNat ∧ ch.toNat ≤ 0xFFFD ∧ ch.toNat ≠ 0xFEFF) ∨
    0x10000 ≤ ch.toNat) : IsWritten ch := by
  refine ⟨isAllowed_iff.mpr (by omega), ?_, ?_⟩
  · rw [ne_eq, ← Char.toNat_inj, show '\r'.toNat = 0x0D from rfl]
    omega
  · rw [ne_eq, ← Char.toNat_inj, show '\uFEFF'.toNat = 0xFEFF from rfl]
    omega

theorem IsWritten.of_isPrintedAscii {ch : Char} (h : IsPrintedAscii ch) : IsWritten ch := by
  obtain ⟨hlow, hhigh⟩ := h
  exact .of_toNat (Or.inr (Or.inl ⟨hlow, by omega⟩))

theorem isWritten_newLine : IsWritten '\n' := .of_toNat (Or.inl rfl)

theorem isInline_of_isPrintedAscii {ch : Char} (h : IsPrintedAscii ch) : IsInline ch := by
  obtain ⟨hlow, hhigh⟩ := h
  refine ⟨?_, (IsWritten.of_isPrintedAscii ⟨hlow, hhigh⟩).noMark⟩
  rw [← Bool.not_eq_true, isBreak_iff]
  omega

/-! ## Escapes -/

theorem isPrintedAscii_capitalHex {width n : Nat} : OnOneLine (Printer.capitalHex width n) := by
  intro ch hch
  rcases List.mem_append.mp hch with hch | hch
  · rw [List.eq_of_mem_replicate hch]
    decide
  · have hhex := Scalar.isHexDigit_of_mem_toDigits hch
    simp only [isHexDigit, Char.isDigit, Bool.or_eq_true, Bool.and_eq_true, decide_eq_true_eq,
      Char.le_def, UInt32.le_iff_toNat_le] at hhex
    have hval : ch.val.toNat = ch.toNat := rfl
    simp only [hval, Char.reduceVal, UInt32.reduceToNat] at hhex
    unfold IsPrintedAscii
    omega

theorem onOneLine_escape (c : CodePoint) : OnOneLine (Printer.escape c) := by
  unfold Printer.escape
  split
  next letter hletter =>
    have hprinted : IsPrintedAscii letter := by
      unfold Printer.shortEscape? at hletter
      split at hletter <;> first
        | (obtain rfl := Option.some.inj hletter; decide)
        | cases hletter
    rw [OnOneLine.cons_iff, OnOneLine.cons_iff]
    exact ⟨by decide, hprinted, .nil⟩
  next =>
    split
    · simp [isPrintedAscii_capitalHex, show IsPrintedAscii '\\' by decide,
        show IsPrintedAscii 'x' by decide]
    · split
      · simp [isPrintedAscii_capitalHex, show IsPrintedAscii '\\' by decide,
          show IsPrintedAscii 'u' by decide]
      · simp [isPrintedAscii_capitalHex, show IsPrintedAscii '\\' by decide,
          show IsPrintedAscii 'U' by decide]

/-! ## Texts -/

section

variable {P : Char → Prop} {mayFold inQuotes isFirst afterEscape : Bool} {indent column : Nat}
  {before : Option CodePoint} {t : Text}

theorem forall_mem_spaces (hspace : P ' ') (n : Nat) : ∀ ch ∈ Printer.spaces n, P ch := by
  intro ch hch
  rw [List.eq_of_mem_replicate hch]
  exact hspace

theorem forall_mem_newLine (hspace : P ' ') (hline : P '\n') (n : Nat) :
    ∀ ch ∈ Printer.newLine n, P ch :=
  List.forall_mem_cons.mpr ⟨hline, forall_mem_spaces hspace n⟩

theorem forall_mem_wrapped (hascii : ∀ ch, IsPrintedAscii ch → P ch)
    (hline : mayFold = true ∨ t.any Printer.isBreak = true → P '\n')
    (hchar : ∀ c ∈ t, P c.toChar) :
    ∀ ch ∈ Printer.wrapped inQuotes mayFold indent before column t, P ch := by
  have hspace : P ' ' := hascii ' ' (by decide)
  induction t generalizing before column with
  | nil => exact List.forall_mem_nil _
  | cons c rest ih =>
      obtain ⟨hc, hrest⟩ := List.forall_mem_cons.mp hchar
      have ih {before : Option CodePoint} {column : Nat} :
          ∀ ch ∈ Printer.wrapped inQuotes mayFold indent before column rest, P ch :=
        ih (fun h => hline (h.imp_right fun h => by simp [h])) hrest
      unfold Printer.wrapped
      dsimp only
      split
      · split
        next hfold =>
          simp only [Bool.and_eq_true] at hfold
          exact List.forall_mem_append.mpr
            ⟨forall_mem_newLine hspace (hline (Or.inl hfold.1.2)) indent, ih⟩
        next => exact List.forall_mem_cons.mpr ⟨hspace, ih⟩
      · split
        next hbreak =>
          refine List.forall_mem_append.mpr ⟨List.forall_mem_append.mpr
            ⟨?_, List.forall_mem_cons.mpr ⟨hc, ?_⟩⟩, ih⟩
          · have hfeed : P '\n' := hline (Or.inr (by simp [hbreak]))
            split
            · exact List.forall_mem_singleton.mpr hfeed
            · exact List.forall_mem_nil _
          · split
            · exact List.forall_mem_nil _
            · exact forall_mem_spaces hspace indent
        next =>
          split
          · exact List.forall_mem_cons.mpr ⟨hascii _ (by decide),
              List.forall_mem_cons.mpr ⟨hascii _ (by decide), ih⟩⟩
          · exact List.forall_mem_cons.mpr ⟨hc, ih⟩

theorem forall_mem_brokenLine (hascii : ∀ ch, IsPrintedAscii ch → P ch) (hline : P '\n')
    (next : Option CodePoint) : ∀ ch ∈ Printer.brokenLine indent next, P ch := by
  refine List.forall_mem_cons.mpr ⟨hascii _ (by decide), List.forall_mem_append.mpr
    ⟨forall_mem_newLine (hascii _ (by decide)) hline indent, ?_⟩⟩
  split
  · exact List.forall_mem_singleton.mpr (hascii _ (by decide))
  · exact List.forall_mem_nil _

theorem forall_mem_escaped (hascii : ∀ ch, IsPrintedAscii ch → P ch)
    (hline : mayFold = true → P '\n') (hchar : ∀ c ∈ t, isEscaped c = false → P c.toChar) :
    ∀ ch ∈ Printer.escaped mayFold indent isFirst afterEscape column t, P ch := by
  induction t generalizing isFirst afterEscape column with
  | nil => exact List.forall_mem_nil _
  | cons c rest ih =>
      obtain ⟨hc, hrest⟩ := List.forall_mem_cons.mp hchar
      have ih {isFirst afterEscape : Bool} {column : Nat} :
          ∀ ch ∈ Printer.escaped mayFold indent isFirst afterEscape column rest, P ch := ih hrest
      have hescape : ∀ ch ∈ Printer.escape c, P ch := fun ch hch =>
        hascii ch (onOneLine_escape c ch hch)
      unfold Printer.escaped
      dsimp only
      split
      · split
        next hbreak =>
          simp only [Bool.and_eq_true] at hbreak
          exact List.forall_mem_append.mpr ⟨List.forall_mem_append.mpr
            ⟨hescape, forall_mem_brokenLine hascii (hline hbreak.1.1.1) _⟩, ih⟩
        next => exact List.forall_mem_append.mpr ⟨hescape, ih⟩
      next hplain =>
        have hc : P c.toChar := hc (Bool.not_eq_true _ ▸ hplain)
        split
        next hbreak =>
          simp only [Bool.and_eq_true] at hbreak
          exact List.forall_mem_append.mpr
            ⟨forall_mem_brokenLine hascii (hline hbreak.1.1.1.1) _, List.forall_mem_cons.mpr ⟨hc, ih⟩⟩
        next => exact List.forall_mem_cons.mpr ⟨hc, ih⟩

theorem fitsSingleQuotes_of_style (h : Printer.Style.of t ≠ .doubleQuoted) :
    Printer.fitsSingleQuotes t = true := by
  unfold Printer.Style.of at h
  split at h
  next hplain =>
    simp only [Printer.fitsPlain, Bool.and_eq_true] at hplain
    exact hplain.2.1.1.1.1
  next =>
    split at h
    next hfits => exact hfits
    next => exact absurd rfl h

/-- **The characters of a printed text**: printed ASCII, line feeds where lines are broken, and
characters of the text that need no escape. -/
theorem forall_mem_text (hascii : ∀ ch, IsPrintedAscii ch → P ch)
    (hline : mayFold = true ∨ t.any Printer.isBreak = true → P '\n')
    (hchar : ∀ c ∈ t, isSpecial c = false ∨ isEscaped c = false → P c.toChar) :
    ∀ ch ∈ Printer.text mayFold indent column t, P ch := by
  have hwrapped (hstyle : Printer.Style.of t ≠ .doubleQuoted) (inQuotes : Bool) (column : Nat) :
      ∀ ch ∈ Printer.wrapped inQuotes mayFold indent none column t, P ch := by
    have hfits := fitsSingleQuotes_of_style hstyle
    simp only [Printer.fitsSingleQuotes, Bool.and_eq_true, Bool.not_eq_true', List.any_eq_false]
      at hfits
    exact forall_mem_wrapped hascii hline fun c hc =>
      hchar c hc (Or.inl (Bool.not_eq_true _ ▸ hfits.1.1 c hc))
  unfold Printer.text
  split
  next hstyle => exact hwrapped (by simp [hstyle]) false column
  next hstyle =>
    exact List.forall_mem_cons.mpr ⟨hascii _ (by decide), List.forall_mem_append.mpr
      ⟨hwrapped (by simp [hstyle]) true _, List.forall_mem_singleton.mpr (hascii _ (by decide))⟩⟩
  next =>
    exact List.forall_mem_cons.mpr ⟨hascii _ (by decide), List.forall_mem_append.mpr
      ⟨forall_mem_escaped hascii (fun h => hline (Or.inl h)) fun c hc h => hchar c hc (Or.inr h),
        List.forall_mem_singleton.mpr (hascii _ (by decide))⟩⟩

/-- What needs no escape is a character by itself. -/
theorem isScalar_of_unescaped {c : CodePoint} (h : isSpecial c = false ∨ isEscaped c = false) :
    c.IsScalar := by
  rcases h with h | h
  · exact (Scalar.isScalar_of_not_isSpecial h).1
  · simp only [isEscaped, Bool.or_eq_false_iff, decide_eq_false_iff_not, Bool.not_eq_false',
      Bool.or_eq_true, Bool.and_eq_true, decide_eq_true_eq] at h
    unfold CodePoint.IsScalar
    omega

/-- A character that is written as itself. -/
theorem isWritten_toChar {c : CodePoint} (h : isSpecial c = false ∨ isEscaped c = false) :
    IsWritten c.toChar := by
  have hval : c.val = 0x0A ∨ (0x20 ≤ c.val ∧ c.val ≤ 0x7E) ∨ c.val = 0x85 ∨
      (0xA0 ≤ c.val ∧ c.val ≤ 0xFFFD ∧ c.val ≠ 0xFEFF) ∨ 0x10000 ≤ c.val := by
    rcases h with h | h
    · simp only [isSpecial, Bool.not_eq_false', Bool.or_eq_true, Bool.and_eq_true,
        decide_eq_true_eq] at h
      omega
    · simp only [isEscaped, Bool.or_eq_false_iff, decide_eq_false_iff_not, Bool.not_eq_false',
        Bool.or_eq_true, Bool.and_eq_true, decide_eq_true_eq] at h
      omega
  exact .of_toNat (by rwa [(isScalar_of_unescaped h).toNat_toChar])

theorem isWritten_of_mem_text : ∀ ch ∈ Printer.text mayFold indent column t, IsWritten ch :=
  forall_mem_text (fun _ => .of_isPrintedAscii) (fun _ => isWritten_newLine) fun _ _ =>
    isWritten_toChar

/-- A text without breaks stays on one line, if its lines may not be broken. -/
theorem isInline_of_mem_text (ht : t.any Printer.isBreak = false) :
    ∀ ch ∈ Printer.text false indent column t, IsInline ch := by
  refine forall_mem_text (fun _ => isInline_of_isPrintedAscii) (by simp [ht]) ?_
  intro c hc h
  have hwritten := isWritten_toChar h
  have hbreak : Printer.isBreak c = false := by
    rw [List.any_eq_false] at ht
    exact Bool.not_eq_true _ ▸ ht c hc
  refine ⟨?_, hwritten.noMark⟩
  rw [← Bool.not_eq_true, Scalar.printer_isBreak_iff] at hbreak
  rw [← Bool.not_eq_true, isBreak_iff, (isScalar_of_unescaped h).toNat_toChar]
  exact hbreak

end

end LanguageClient.Yaml
