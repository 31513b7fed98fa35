import LanguageClient.Json.Printer
import LanguageClient.Proofs.Text.Ascii

/-!
# Printed documents are on one line

Whatever a document holds, its printed form consists of printable ASCII: names and texts are
escaped, and numbers are written with digits, signs, points and a few letters.  So no line break
of a text gets onto the wire.
-/

namespace LanguageClient

/-! ## Numbers -/

namespace Decimal

theorem isDigit_ofDigits (digits : Nat) (lastPlace : Int) :
    ∀ c ∈ (ofDigits digits lastPlace).digits, c.isDigit := by
  intro c hc
  unfold ofDigits at hc
  simp only at hc
  split at hc
  · rw [List.mem_singleton.mp hc]
    rfl
  · have hmem : c ∈ Nat.toDigits 10 digits := by
      have : c ∈ Cut.dropTrailing (· == '0') (Nat.toDigits 10 digits) := hc
      rw [Cut.dropTrailing, List.mem_reverse] at this
      exact List.mem_reverse.mp ((List.dropWhile_suffix _).subset this)
    exact isDigit_of_mem_toDigits hmem

theorem isDigit_onGrid? {m : Magnitude} {place : Int} {count : Nat} {d : Decimal}
    (h : onGrid? m place count = some d) : ∀ c ∈ d.digits, c.isDigit := by
  unfold onGrid? at h
  simp only at h
  split at h
  · obtain rfl := Option.some.inj h
    exact isDigit_ofDigits _ _
  · obtain rfl := Option.some.inj h
    exact isDigit_ofDigits _ _
  · obtain rfl := Option.some.inj h
    exact isDigit_ofDigits _ _
  · exact absurd h (by simp)

theorem isDigit_shortest (m : Magnitude) : ∀ c ∈ (shortest m).digits, c.isDigit := by
  unfold shortest
  split
  · intro c hc
    rw [List.mem_singleton.mp hc]
    rfl
  · simp only
    split
    · rename_i d hd
      obtain ⟨count, -, hgrid⟩ := List.exists_of_findSome?_eq_some hd
      exact isDigit_onGrid? hgrid
    · exact isDigit_ofDigits _ _

theorem onOneLine_exponentPart (e : Int) : OnOneLine (exponentPart e) := by
  have hdigits := OnOneLine.toDigits e.natAbs
  have hsign : IsPrintedAscii (if e < 0 then '-' else '+') := by split <;> decide
  have hpadded : OnOneLine (if (Nat.toDigits 10 e.natAbs).length < 2
      then '0' :: Nat.toDigits 10 e.natAbs else Nat.toDigits 10 e.natAbs) := by
    split
    · exact OnOneLine.cons_iff.mpr ⟨by decide, hdigits⟩
    · exact hdigits
  exact OnOneLine.cons_iff.mpr ⟨by decide, OnOneLine.cons_iff.mpr ⟨hsign, hpadded⟩⟩

theorem onOneLine_render {d : Decimal} (hd : ∀ c ∈ d.digits, c.isDigit) : OnOneLine d.render := by
  have hdigits : OnOneLine d.digits := OnOneLine.of_isDigit hd
  have hzeros (n : Nat) : OnOneLine (List.replicate n '0') := OnOneLine.replicate n (by decide)
  have htake (n : Nat) : OnOneLine (d.digits.take n) :=
    fun c hc => hdigits c (List.mem_of_mem_take hc)
  have hdrop (n : Nat) : OnOneLine (d.digits.drop n) :=
    fun c hc => hdigits c (List.mem_of_mem_drop hc)
  have hpoint : IsPrintedAscii '.' := by decide
  have hzero : IsPrintedAscii '0' := by decide
  unfold render
  split
  · split
    · simp [hpoint, hzero, hzeros, hdigits]
    · simp only
      split <;> simp [hpoint, hzero, hzeros, htake, hdrop]
  · split
    · exact onOneLine_exponentPart _
    · rename_i first hfirst
      rw [hfirst] at hdigits
      simp_all [onOneLine_exponentPart]
    · rename_i first rest _ hall
      rw [hall] at hdigits
      simp_all [onOneLine_exponentPart]

end Decimal

theorem Binary64.onOneLine_render (x : Binary64) : OnOneLine x.render := by
  have hdecimal (m : Magnitude) := Decimal.onOneLine_render (Decimal.isDigit_shortest m)
  unfold render
  split
  · decide
  · split <;> decide
  · split
    · exact OnOneLine.append_iff.mpr ⟨by decide, hdecimal _⟩
    · simpa using hdecimal _

/-! ## Texts -/

theorem exists_digitChar_of_mem_toDigits {b : Nat} (hb : 1 < b) {n : Nat} {c : Char}
    (h : c ∈ Nat.toDigits b n) : ∃ d < b, c = Nat.digitChar d := by
  induction n using Nat.strongRecOn with
  | _ n ih =>
      rw [Nat.toDigits_eq_if hb] at h
      split at h
      · exact ⟨n, ‹_›, List.mem_singleton.mp h⟩
      · rcases List.mem_append.mp h with h | h
        · exact ih _ (Nat.div_lt_self (by omega) hb) h
        · exact ⟨n % b, Nat.mod_lt n (by omega), List.mem_singleton.mp h⟩

theorem isPrintedAscii_digitChar {d : Nat} (h : d < 16) : IsPrintedAscii (Nat.digitChar d) := by
  have : ∀ d < 16, IsPrintedAscii (Nat.digitChar d) := by decide
  exact this d h

namespace Json

theorem onOneLine_unitEscape (n : Nat) : OnOneLine (unitEscape n) := by
  have hdigits : OnOneLine (Nat.toDigits 16 n) := by
    intro c hc
    obtain ⟨d, hd, rfl⟩ := exists_digitChar_of_mem_toDigits (by omega) hc
    exact isPrintedAscii_digitChar hd
  have hzeros := OnOneLine.replicate (4 - (Nat.toDigits 16 n).length) (c := '0') (by decide)
  simp only [unitEscape, OnOneLine.cons_iff, OnOneLine.append_iff]
  exact ⟨by decide, by decide, hzeros, hdigits⟩

/-- The numbers that have an escape of one letter, and the letters. -/
def shortEscapes : List (Nat × Char) :=
  [(0x22, '"'), (0x5C, '\\'), (0x0A, 'n'), (0x0D, 'r'), (0x09, 't'), (0x0C, 'f'), (0x08, 'b')]

theorem mem_shortEscapes {n : Nat} {e : Char} (h : shortEscape? n = some e) :
    (n, e) ∈ shortEscapes := by
  unfold shortEscape? at h
  split_ifs at h with h₁ h₂ h₃ h₄ h₅ h₆ h₇ <;>
    obtain rfl := Option.some.inj h <;>
    simp [shortEscapes, *]

theorem onOneLine_renderCodePoint (c : CodePoint) : OnOneLine (renderCodePoint c) := by
  unfold renderCodePoint
  split
  · rename_i e he
    have : IsPrintedAscii e := by
      have hall : ∀ escape ∈ shortEscapes, IsPrintedAscii escape.2 := by decide
      exact hall _ (mem_shortEscapes he)
    exact OnOneLine.cons_iff.mpr ⟨by decide, OnOneLine.cons_iff.mpr ⟨this, OnOneLine.nil⟩⟩
  · split
    · rename_i hprinted
      simp only [Bool.and_eq_true, decide_eq_true_eq] at hprinted
      have hchar : c.toChar.toNat = c.val := CodePoint.toNat_toChar (by omega)
      refine OnOneLine.cons_iff.mpr ⟨?_, OnOneLine.nil⟩
      rw [IsPrintedAscii, hchar]
      exact hprinted
    · split
      · exact onOneLine_unitEscape _
      · exact OnOneLine.append_iff.mpr ⟨onOneLine_unitEscape _, onOneLine_unitEscape _⟩

theorem onOneLine_renderText (t : Text) : OnOneLine (renderText t) := by
  have hinside : OnOneLine (t.flatMap renderCodePoint) :=
    OnOneLine.flatMap fun c _ => onOneLine_renderCodePoint c
  have hquote : IsPrintedAscii '"' := by decide
  simp [renderText, hinside, hquote]

theorem onOneLine_renderFloat (x : Binary64) : OnOneLine (renderFloat x) := by
  unfold renderFloat
  split
  · decide
  · split <;> decide
  · exact Binary64.onOneLine_render _

theorem onOneLine_renderInt (n : Int) : OnOneLine (renderInt n) := by
  cases n with
  | ofNat n => exact OnOneLine.toDigits n
  | negSucc n => exact OnOneLine.cons_iff.mpr ⟨by decide, OnOneLine.toDigits _⟩

/-! ## Documents -/

mutual

/-- A document is printed on one line. -/
theorem onOneLine_render : (v : Json) → OnOneLine v.render
  | null => by decide
  | bool true => by decide
  | bool false => by decide
  | int n => onOneLine_renderInt n
  | float x => onOneLine_renderFloat x
  | str t => onOneLine_renderText t
  | arr items => by
      have hopen : IsPrintedAscii '[' := by decide
      have hclose : IsPrintedAscii ']' := by decide
      simp [render, hopen, hclose, onOneLine_renderItems items]
  | obj members => by
      have hopen : IsPrintedAscii '\x7b' := by decide
      have hclose : IsPrintedAscii '\x7d' := by decide
      simp [render, hopen, hclose, onOneLine_renderMembers members]

theorem onOneLine_renderItems : (items : List Json) → OnOneLine (renderItems items)
  | [] => OnOneLine.nil
  | [item] => onOneLine_render item
  | item :: next :: rest => by
      have hcomma : IsPrintedAscii ',' := by decide
      have hblank : IsPrintedAscii ' ' := by decide
      simp [renderItems, hcomma, hblank, onOneLine_render item,
        onOneLine_renderItems (next :: rest)]

theorem onOneLine_renderMembers : (members : Members) → OnOneLine (renderMembers members)
  | [] => OnOneLine.nil
  | [(name, value)] => by
      have hcolon : IsPrintedAscii ':' := by decide
      have hblank : IsPrintedAscii ' ' := by decide
      simp [renderMembers, hcolon, hblank, onOneLine_renderText name, onOneLine_render value]
  | (name, value) :: next :: rest => by
      have hcolon : IsPrintedAscii ':' := by decide
      have hcomma : IsPrintedAscii ',' := by decide
      have hblank : IsPrintedAscii ' ' := by decide
      simp [renderMembers, hcolon, hcomma, hblank, onOneLine_renderText name,
        onOneLine_render value, onOneLine_renderMembers (next :: rest)]

end

end Json

end LanguageClient
