import LanguageClient.Proofs.Json.TextReadBack
import LanguageClient.Yaml.Cursor

/-!
# Passing over a YAML text

Everything that is read moves a cursor on over the characters that it has read, and does nothing else
to it: so a cursor behind a scalar is `advance` of the one before it, and what is left to be read is a
suffix (`rest_advance`).  Within a line the column counts the characters (`advance_inline`); a line
break starts a new column (`advance_newLine`), and no step goes back to an earlier line.
-/

namespace LanguageClient

/-- The code point is a character by itself. -/
def CodePoint.IsScalar (c : CodePoint) : Prop := c.val < 0xD800 ∨ 0xE000 ≤ c.val

theorem CodePoint.IsScalar.toNat_toChar {c : CodePoint} (h : c.IsScalar) :
    c.toChar.toNat = c.val := by
  have hvalid : c.val.isValidChar := by
    have hlt := c.lt
    unfold IsScalar at h
    unfold Nat.isValidChar
    omega
  rw [toChar, toChar?, dif_pos hvalid]
  rfl

theorem CodePoint.IsScalar.ofChar_toChar {c : CodePoint} (h : c.IsScalar) :
    CodePoint.ofChar c.toChar = c :=
  CodePoint.ext h.toNat_toChar

namespace Yaml

/-! ## Characters -/

theorem isBreak_iff {c : Char} :
    isBreak c = true ↔ c.toNat = 0x0A ∨ c.toNat = 0x85 ∨ c.toNat = 0x2028 ∨ c.toNat = 0x2029 := by
  simp [isBreak, ← Char.toNat_inj, or_assoc]

theorem isBlank_iff {c : Char} : isBlank c = true ↔ c.toNat = 0x20 ∨ c.toNat = 0x09 := by
  simp [isBlank, ← Char.toNat_inj]

theorem isGap_iff {c : Char} : isGap c = true ↔ isBlank c = true ∨ isBreak c = true := by
  simp [isGap]

/-- The character stays on its line and is one column wide. -/
def IsInline (c : Char) : Prop := isBreak c = false ∧ c ≠ '\uFEFF'

instance (c : Char) : Decidable (IsInline c) := inferInstanceAs (Decidable (_ ∧ _))

theorem isInline_space : IsInline ' ' := by decide

namespace Cursor

variable {text more : List Char} {c : Cursor}

/-! ## Steps -/

theorem rest_step (c : Cursor) : c.step.rest = c.rest.drop 1 := by
  unfold step
  cases hrest : c.rest with
  | nil => simp [hrest]
  | cons ch rest => dsimp only; split <;> simp

theorem line_le_step (c : Cursor) : c.line ≤ c.step.line := by
  unfold step
  split
  · exact Nat.le_refl _
  · split
    · exact Nat.le_succ _
    · exact Nat.le_refl _

theorem advance_zero (c : Cursor) : c.advance 0 = c := rfl

theorem advance_one (c : Cursor) : c.advance 1 = c.step := rfl

theorem advance_succ (n : Nat) (c : Cursor) : c.advance (n + 1) = c.step.advance n := rfl

theorem advance_add (m n : Nat) (c : Cursor) : c.advance (m + n) = (c.advance m).advance n := by
  induction m generalizing c with
  | zero => rw [Nat.zero_add, advance_zero]
  | succ m ih => rw [Nat.succ_add, advance_succ, advance_succ, ih]

@[simp] theorem rest_advance (n : Nat) (c : Cursor) : (c.advance n).rest = c.rest.drop n := by
  induction n generalizing c with
  | zero => rfl
  | succ n ih => rw [advance_succ, ih, rest_step, List.drop_drop, Nat.add_comm]

theorem line_le_advance (n : Nat) (c : Cursor) : c.line ≤ (c.advance n).line := by
  induction n generalizing c with
  | zero => exact Nat.le_refl _
  | succ n ih => exact Nat.le_trans c.line_le_step (ih c.step)

theorem rest_advance_append (h : c.rest = text ++ more) : (c.advance text.length).rest = more := by
  rw [rest_advance, h, List.drop_left]

theorem rest_advance_replicate {n : Nat} {ch : Char} (h : c.rest = List.replicate n ch ++ more) :
    (c.advance n).rest = more := by
  have hadvance := rest_advance_append h
  rwa [List.length_replicate] at hadvance

/-- Whoever passes something comes closer to the end. -/
theorem length_rest_advance_lt {n fuel : Nat} (hn : 0 < n) (hne : c.rest ≠ [])
    (h : c.rest.length < fuel + 1) : (c.advance n).rest.length < fuel := by
  have := List.length_pos_iff.mpr hne
  rw [rest_advance, List.length_drop]
  omega

/-- A character of a line is one column. -/
theorem step_inline {ch : Char} (h : c.rest = ch :: more) (hch : IsInline ch) :
    c.step = ⟨more, c.index + 1, c.line, c.column + 1⟩ := by
  rw [step, h]
  simp [hch.1, hch.2]

theorem step_break {ch : Char} (h : c.rest = ch :: more) (hch : isBreak ch = true) :
    c.step = ⟨more, c.index + 1, c.line + 1, 0⟩ := by
  rw [step, h]
  simp [hch]

/-- The cursor behind a part of a line. -/
theorem advance_inline (h : c.rest = text ++ more) (htext : ∀ ch ∈ text, IsInline ch) :
    c.advance text.length =
      ⟨more, c.index + text.length, c.line, c.column + text.length⟩ := by
  induction text generalizing c with
  | nil => rw [← show c.rest = more from h]; rfl
  | cons ch text ih =>
      rw [List.length_cons, advance_succ, step_inline h (htext ch (by simp)),
        ih rfl fun d hd => htext d (List.mem_cons_of_mem _ hd)]
      simp only [Cursor.mk.injEq, true_and]
      omega

/-- The cursor behind a line break and the indentation of the next line. -/
theorem advance_newLine {n : Nat} (h : c.rest = '\n' :: (List.replicate n ' ' ++ more)) :
    c.advance (n + 1) = ⟨more, c.index + (n + 1), c.line + 1, n⟩ := by
  rw [advance_succ, step_break h (by decide)]
  have hspaces : ∀ ch ∈ List.replicate n ' ', IsInline ch := by
    intro ch hch
    rw [List.eq_of_mem_replicate hch]
    exact isInline_space
  have hadvance := advance_inline (c := ⟨List.replicate n ' ' ++ more, c.index + 1, c.line + 1, 0⟩)
    rfl hspaces
  rw [List.length_replicate] at hadvance
  rw [hadvance]
  simp only [Cursor.mk.injEq, true_and]
  omega

/-! ## Runs -/

theorem span_eq {p : Char → Bool} (h : c.rest = text ++ more) (htext : ∀ ch ∈ text, p ch = true)
    (hmore : ∀ ch ∈ more.head?, p ch = false) :
    c.span p = (text, c.advance text.length) := by
  have hrun : c.rest.takeWhile p = text := by
    rw [h, List.takeWhile_append_of_pos htext]
    cases more with
    | nil => simp
    | cons ch more => simp [hmore ch rfl]
  rw [span, hrun]

theorem span_replicate {p : Char → Bool} {n : Nat} {ch : Char}
    (h : c.rest = List.replicate n ch ++ more) (hch : p ch = true)
    (hmore : ∀ ch ∈ more.head?, p ch = false) :
    c.span p = (List.replicate n ch, c.advance n) := by
  have hspan := span_eq h (fun d hd => by rw [List.eq_of_mem_replicate hd]; exact hch) hmore
  rwa [List.length_replicate] at hspan

theorem span_of_not {p : Char → Bool} (h : ∀ ch ∈ c.rest.head?, p ch = false) :
    c.span p = ([], c) :=
  span_eq (show c.rest = [] ++ c.rest from rfl) (by simp) h

theorem peek_eq {ch : Char} (h : c.rest = ch :: more) : c.peek = some ch := by
  rw [peek, h]
  rfl

theorem takeBreak?_eq {ch : Char} (h : c.rest = ch :: more) (hch : isBreak ch = true) :
    c.takeBreak? = some (breakText ch, c.step) := by
  rw [takeBreak?, peek_eq h]
  simp [hch]

theorem takeBreak?_of_not (h : ∀ ch ∈ c.rest.head?, isBreak ch = false) :
    c.takeBreak? = none := by
  rw [takeBreak?, peek]
  cases hrest : c.rest with
  | nil => rfl
  | cons ch more =>
      have hch := h ch (by simp [hrest])
      simp [hch]

/-- Where a line is indented there is no separator. -/
theorem atSeparator_of_indented {ch : Char} (h : c.rest = ch :: more)
    (hch : ch ≠ '-' ∧ ch ≠ '.') : c.atSeparator = false := by
  simp [atSeparator, atMarker, h, hch]

end Cursor

end Yaml

end LanguageClient
