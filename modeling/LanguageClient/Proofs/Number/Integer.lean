import LanguageClient.Proofs.Number.Reading

/-!
# How integers are spelled

```text
numeral    digit    digit numeral    digit _ numeral
integer    numeral    + numeral    - numeral
```

A text is read as an integer if and only if it spells this integer between blanks, and with no more
digits than are read (`int_eq_ok_iff`).  The value is that of the digits alone.
-/

namespace LanguageClient.Reading

/-- A numeral, and its digits: single underscores may stand between them. -/
inductive Numeral : List Char → List Char → Prop
  | digit {d : Char} (h : d.isDigit) : Numeral [d] [d]
  | cons {d : Char} {cs ds : List Char} (h : d.isDigit) (hcs : Numeral cs ds) :
      Numeral (d :: cs) (d :: ds)
  | underscore {d : Char} {cs ds : List Char} (h : d.isDigit) (hcs : Numeral cs ds) :
      Numeral (d :: '_' :: cs) (d :: ds)

/-- The characters spell the integer. -/
inductive SpellsInteger : List Char → Int → Prop
  | unsigned {cs ds : List Char} (h : Numeral cs ds) (hlength : ds.length ≤ digitLimit) :
      SpellsInteger cs (Nat.ofDigitChars 10 ds 0)
  | plus {cs ds : List Char} (h : Numeral cs ds) (hlength : ds.length ≤ digitLimit) :
      SpellsInteger ('+' :: cs) (Nat.ofDigitChars 10 ds 0)
  | minus {cs ds : List Char} (h : Numeral cs ds) (hlength : ds.length ≤ digitLimit) :
      SpellsInteger ('-' :: cs) (-(Nat.ofDigitChars 10 ds 0))

theorem ne_underscore_of_isDigit {c : Char} (h : c.isDigit) : c ≠ '_' := by
  rintro rfl
  exact absurd h (by decide)

/-! ## Numerals -/

namespace Numeral

variable {cs ds : List Char}

theorem head (h : Numeral cs ds) : ∃ d rest, cs = d :: rest ∧ d.isDigit := by
  cases h with
  | digit h => exact ⟨_, _, rfl, h⟩
  | cons h => exact ⟨_, _, rfl, h⟩
  | underscore h => exact ⟨_, _, rfl, h⟩

theorem last (h : Numeral cs ds) : ∃ front d, cs = front ++ [d] ∧ d.isDigit := by
  induction h with
  | digit h => exact ⟨[], _, rfl, h⟩
  | cons h hcs ih =>
      obtain ⟨front, d, rfl, hd⟩ := ih
      exact ⟨_ :: front, d, rfl, hd⟩
  | underscore h hcs ih =>
      obtain ⟨front, d, rfl, hd⟩ := ih
      exact ⟨_ :: '_' :: front, d, rfl, hd⟩

theorem isDigit_or (h : Numeral cs ds) : ∀ c ∈ cs, c.isDigit ∨ c = '_' := by
  induction h with
  | digit h => simp [h]
  | cons h hcs ih => simpa [h] using ih
  | underscore h hcs ih => simpa [h] using ih

theorem filter_isDigit (h : Numeral cs ds) : cs.filter Char.isDigit = ds := by
  have hunderscore : ¬ ('_').isDigit := by decide
  induction h with
  | digit h => simp [h]
  | cons h hcs ih => rw [List.filter_cons_of_pos h, ih]
  | underscore h hcs ih => rw [List.filter_cons_of_pos h, List.filter_cons_of_neg hunderscore, ih]

theorem ne_nil (h : Numeral cs ds) : ds ≠ [] := by
  cases h <;> simp

theorem underscoresFit (h : Numeral cs ds) (previous : Char) : underscoresFit previous cs := by
  induction h generalizing previous with
  | digit h => simp [Reading.underscoresFit, ne_underscore_of_isDigit h, h]
  | cons h hcs ih => simp [Reading.underscoresFit, ne_underscore_of_isDigit h, h, ih]
  | underscore h hcs ih => simp [Reading.underscoresFit, ne_underscore_of_isDigit h, h, ih]

/-- Behind an underscore a numeral has to begin; a digit can also end one. -/
theorem of_underscoresFit (hcs : ∀ c ∈ cs, c.isDigit ∨ c = '_') {previous : Char}
    (h : Reading.underscoresFit previous cs) :
    (previous = '_' → Numeral cs (cs.filter Char.isDigit)) ∧
      (previous.isDigit → Numeral (previous :: cs) (previous :: cs.filter Char.isDigit)) := by
  induction cs generalizing previous with
  | nil =>
      refine ⟨fun hprevious => ?_, fun hprevious => .digit hprevious⟩
      simp [Reading.underscoresFit, hprevious] at h
  | cons c cs ih =>
      have ih := @ih (fun c hc => hcs c (List.mem_cons_of_mem _ hc)) c
      rcases hcs c (List.mem_cons_self ..) with hc | rfl
      · have hne := ne_underscore_of_isDigit hc
        simp only [Reading.underscoresFit, beq_iff_eq, hne, if_false, hc, Bool.or_true,
          Bool.true_and] at h
        have hnumeral := (ih h).2 hc
        rw [List.filter_cons_of_pos hc]
        exact ⟨fun _ => hnumeral, fun hprevious => .cons hprevious hnumeral⟩
      · simp only [Reading.underscoresFit, beq_self_eq_true, if_true, Bool.and_eq_true] at h
        have hnumeral := (ih h.2).1 rfl
        rw [List.filter_cons_of_neg (by decide)]
        refine ⟨?_, fun hprevious => .underscore hprevious hnumeral⟩
        rintro rfl
        exact absurd h.1 (by decide)

end Numeral

theorem numeral_iff {cs ds : List Char} :
    Numeral cs ds ↔ (∀ c ∈ cs, c.isDigit ∨ c = '_') ∧ underscoresFit ' ' cs ∧
      cs.filter Char.isDigit = ds ∧ ds ≠ [] := by
  refine ⟨fun h => ⟨h.isDigit_or, h.underscoresFit _, h.filter_isDigit, h.ne_nil⟩, ?_⟩
  rintro ⟨hcs, hfit, rfl, hne⟩
  cases cs with
  | nil => exact absurd rfl hne
  | cons c cs =>
      rcases hcs c (List.mem_cons_self ..) with hc | rfl
      · have hne := ne_underscore_of_isDigit hc
        simp only [underscoresFit, beq_iff_eq, hne, if_false, hc, Bool.or_true, Bool.true_and] at hfit
        rw [List.filter_cons_of_pos hc]
        exact (Numeral.of_underscoresFit (fun c hc => hcs c (List.mem_cons_of_mem _ hc)) hfit).2 hc
      · simp [underscoresFit] at hfit

/-! ## Integers -/

theorem sign_cases (cs : List Char) :
    (∃ rest, cs = '-' :: rest) ∨ (∃ rest, cs = '+' :: rest) ∨ sign cs = (false, cs) := by
  unfold sign
  split
  · exact .inl ⟨_, rfl⟩
  · exact .inr (.inl ⟨_, rfl⟩)
  · exact .inr (.inr rfl)

theorem sign_of_numeral {cs ds : List Char} (h : Numeral cs ds) : sign cs = (false, cs) := by
  obtain ⟨d, rest, rfl, hd⟩ := h.head
  rcases sign_cases (d :: rest) with ⟨_, heq⟩ | ⟨_, heq⟩ | hsign
  · obtain ⟨rfl, -⟩ := List.cons_eq_cons.mp heq
    exact absurd hd (by decide)
  · obtain ⟨rfl, -⟩ := List.cons_eq_cons.mp heq
    exact absurd hd (by decide)
  · exact hsign

theorem spellsInteger_iff {cs : List Char} {z : Int} :
    SpellsInteger cs z ↔ ∃ ds, Numeral (sign cs).2 ds ∧ ds.length ≤ digitLimit ∧
      z = if (sign cs).1 then -(natOfDigits ds : Int) else natOfDigits ds := by
  simp only [natOfDigits_eq]
  constructor
  · rintro (⟨h, hlength⟩ | ⟨h, hlength⟩ | ⟨h, hlength⟩)
    · rw [sign_of_numeral h]
      exact ⟨_, h, hlength, rfl⟩
    · exact ⟨_, h, hlength, rfl⟩
    · exact ⟨_, h, hlength, rfl⟩
  · rintro ⟨ds, h, hlength, rfl⟩
    rcases sign_cases cs with ⟨rest, rfl⟩ | ⟨rest, rfl⟩ | hsign
    · exact .minus h hlength
    · exact .plus h hlength
    · rw [hsign] at h ⊢
      exact .unsigned h hlength

/-- **What is read as an integer.** -/
theorem int_eq_ok_iff {t : Text} {z : Int} : int t = .ok z ↔ SpellsInteger (trimmed t) z := by
  rw [spellsInteger_iff]
  rcases hsign : sign (trimmed t) with ⟨negative, cs⟩
  have htake : (cs.takeWhile fun c => c.isDigit || c == '_') = cs ↔ ∀ c ∈ cs, c.isDigit ∨ c = '_' := by
    simp only [List.takeWhile_eq_self_iff, Bool.or_eq_true, beq_iff_eq]
  simp only [int, hsign, numeral_iff, ← htake]
  constructor
  · intro h
    split at h
    · cases h
    rename_i hform
    split at h
    · cases h
    rename_i hlimit
    split at h
    · cases h
    rename_i hrest
    -- nothing is left behind the body
    have hbody : (cs.takeWhile fun c => c.isDigit || c == '_') = cs :=
      (List.takeWhile_prefix _).eq_of_length_le (Nat.le_of_not_lt hrest)
    simp only [hbody, Bool.or_eq_true, List.isEmpty_iff, Bool.not_eq_true', not_or,
      Bool.not_eq_false] at hform hlimit h
    exact ⟨_, ⟨hbody, hform.2, rfl, hform.1⟩, Nat.le_of_not_lt hlimit, (Except.ok.inj h).symm⟩
  · rintro ⟨ds, ⟨hbody, hfit, rfl, hne⟩, hlimit, rfl⟩
    simp [hbody, hfit, hne, Nat.not_lt.mpr hlimit]

namespace SpellsInteger

variable {cs : List Char} {z : Int}

theorem isDigit_or (h : SpellsInteger cs z) : ∀ c ∈ cs, c.isDigit ∨ c ∈ ['_', '+', '-'] := by
  have hnumeral : ∀ {cs ds : List Char}, Numeral cs ds → ∀ c ∈ cs, c.isDigit ∨ c ∈ ['_', '+', '-'] := by
    intro cs ds h c hc
    rcases h.isDigit_or c hc with hc | rfl
    · exact .inl hc
    · exact .inr (List.mem_cons_self ..)
  cases h with
  | unsigned h => exact hnumeral h
  | plus h => exact List.forall_mem_cons.mpr ⟨.inr (by decide), hnumeral h⟩
  | minus h => exact List.forall_mem_cons.mpr ⟨.inr (by decide), hnumeral h⟩

theorem onOneLine (h : SpellsInteger cs z) : OnOneLine cs := by
  intro c hc
  -- what is decided is the list, not all characters
  have hsigns : ∀ c ∈ ['_', '+', '-'], IsPrintedAscii c :=
    @of_decide_eq_true _ (List.decidableBAll _ _) rfl
  exact (h.isDigit_or c hc).elim .of_isDigit (hsigns c)

theorem not_isPadding (h : SpellsInteger cs z) : ∀ c ∈ cs, ¬ isPadding c := by
  intro c hc
  have hsigns : ∀ c ∈ ['_', '+', '-'], ¬ isPadding c :=
    @of_decide_eq_true _ (List.decidableBAll _ _) rfl
  exact (h.isDigit_or c hc).elim not_isPadding_of_isDigit (hsigns c)

theorem int_ofChars (h : SpellsInteger cs z) : int (Text.ofChars cs) = .ok z := by
  rwa [int_eq_ok_iff, trimmed_ofChars h.onOneLine h.not_isPadding]

/-- What begins with a minus is no more than zero. -/
theorem nonpos_of_minus (h : SpellsInteger ('-' :: cs) z) : z ≤ 0 := by
  obtain ⟨ds, -, -, rfl⟩ := spellsInteger_iff.mp h
  exact Int.neg_nonpos_of_nonneg (Int.natCast_nonneg _)

end SpellsInteger

theorem spellsInteger_toDigits {n : Nat} (hn : IsShort n) : SpellsInteger (Nat.toDigits 10 n) n := by
  have hint := int_eq_ok_iff.mp (int_toDigits hn)
  rwa [trimmed_ofChars (OnOneLine.toDigits n) fun c hc =>
    not_isPadding_of_isDigit (isDigit_of_mem_toDigits hc)] at hint

end LanguageClient.Reading
