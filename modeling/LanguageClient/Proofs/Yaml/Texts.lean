import LanguageClient.Proofs.Yaml.Characters
import LanguageClient.Proofs.Yaml.ScalarTokens

/-!
# Texts that are read back

A printed text is read back in any of the three styles, but for two flaws (`isIntact`).  The break
U+0085 may stand between single quotes, and there it counts as a line feed.  Between double quotes a
line that starts beyond the width may be broken right behind an escape, where the mark of a space at
the start of the next line is taken for an escape of its own.

A value may be followed by further lines (`takesLine_text`), and a key by a colon (`takesKey_text`).  A
key stays on its line, so the column at which further lines would start does not matter to it.
-/

namespace LanguageClient.Yaml

open Scanner Scalar Cursor
open Printer (Style isSpace isSpecial isSimpleKey fitsPlain startsOtherwise followedByGap lineWidth
  indentStep)

/-- The text is read back where it is printed with further lines at `indent`. -/
def isIntact (mayFold : Bool) (indent : Nat) (t : Text) : Bool :=
  match Style.of t with
  | .plain => true
  | .singleQuoted => t.all (·.val ≠ 0x85)
  | .doubleQuoted => !(mayFold && lineWidth ≤ indent && tears t.tail)

/-- The token that a printed text gives. -/
def textToken (t : Text) : Token := .scalar t (Style.of t = .plain)

section

variable {t : Text} {mayFold : Bool} {indent column : Nat}

/-! ## The three styles -/

theorem plain_of_style (h : Style.of t = .plain) :
    Kind.ofPlain t = .str ∧ fitsPlain t = true := by
  unfold Style.of at h
  split at h
  next hplain =>
    rw [Bool.and_eq_true, decide_eq_true_eq] at hplain
    exact hplain
  next => split at h <;> cases h

theorem readsSingle_text (hstyle : Style.of t = .singleQuoted) (hindent : 0 < indent)
    (hintact : isIntact mayFold indent t = true) :
    ReadsSingle (Printer.wrapped true mayFold indent none column t) t := by
  have hfits := fitsSingleQuotes_of_style (t := t) (by rw [hstyle]; nofun)
  have hnext : ∀ c ∈ t, c.val ≠ 0x85 := by
    simpa [isIntact, hstyle] using hintact
  exact readsSingle_wrapped hindent (.of_fits hfits hnext) (by simp) 0 (by simp)

theorem readsDouble_text (hstyle : Style.of t = .doubleQuoted) (hindent : 0 < indent)
    (hintact : isIntact mayFold indent t = true) :
    ReadsDouble (Printer.escaped mayFold indent true false column t) t := by
  refine readsDouble_escaped (fun _ => hindent) ?_ 0
  intro hfold hwide
  simpa [isIntact, hstyle, hfold, hwide] using hintact

/-- A text between quotes is read up to the second of them. -/
theorem exists_quoted (column : Nat) (hstyle : Style.of t ≠ .plain) (hindent : 0 < indent)
    (hintact : isIntact mayFold indent t = true) : ∃ quote w, IsQuote quote ∧
      Printer.text mayFold indent column t = quote :: w ∧
      ∀ (c : Cursor) (ch : Char) (more : List Char), ch ≠ '\'' → c.rest = quote :: w ++ ch :: more →
        Scalar.quoted quote c = .ok (t, c.advance (quote :: w).length) := by
  unfold Printer.text
  cases h : Style.of t with
  | plain => exact absurd h hstyle
  | singleQuoted =>
      refine ⟨'\'', _, Or.inr rfl, rfl, ?_⟩
      intro c ch more hch hrest
      have hcut : c.rest = '\'' :: (Printer.wrapped true mayFold indent none (column + 1) t ++
          '\'' :: ch :: more) := by
        rw [hrest]
        simp
      exact quoted_single (readsSingle_text h hindent hintact) hcut fun heq =>
        hch (Option.some.inj heq)
  | doubleQuoted =>
      refine ⟨'"', _, Or.inl rfl, rfl, ?_⟩
      intro c ch more _ hrest
      have hcut : c.rest = '"' :: (Printer.escaped mayFold indent true false (column + 1) t ++
          '"' :: ch :: more) := by
        rw [hrest]
        simp
      exact quoted_double (readsDouble_text h hindent hintact) hcut

theorem hasNeighbours_eq_false {p q : CodePoint → Bool} (h : (∀ c ∈ t, p c = false) ∨ ∀ c ∈ t, q c = false) :
    Printer.hasNeighbours p q t = false := by
  induction t with
  | nil => rfl
  | cons a rest ih =>
      cases rest with
      | nil => rfl
      | cons b rest =>
          rw [Printer.hasNeighbours, ih (h.imp (fun h c hc => h c (List.mem_cons_of_mem _ hc))
            fun h c hc => h c (List.mem_cons_of_mem _ hc)), Bool.or_false]
          rcases h with h | h
          · rw [h a (by simp), Bool.false_and]
          · rw [h b (by simp), Bool.and_false]

/-- A text of printed ASCII is read back wherever it stands. -/
theorem isIntact_of_ascii (h : ∀ c ∈ t, 0x20 ≤ c.val ∧ c.val ≤ 0x7E) (mayFold : Bool) (indent : Nat) :
    isIntact mayFold indent t = true := by
  have hplain : t.any isSpecial = false := by
    rw [List.any_eq_false]
    intro c hc
    have := h c hc
    simp [isSpecial, this]
  have hbreak : ∀ c ∈ t, Printer.isBreak c = false := by
    intro c hc
    have := h c hc
    rw [← Bool.not_eq_true, printer_isBreak_iff]
    omega
  have hfits : Printer.fitsSingleQuotes t = true := by
    rw [Printer.fitsSingleQuotes, hplain, hasNeighbours_eq_false (Or.inl hbreak),
      hasNeighbours_eq_false (Or.inr hbreak)]
    rfl
  unfold isIntact
  split
  next => rfl
  next =>
    rw [List.all_eq_true]
    intro c hc
    have := h c hc
    exact decide_eq_true (by omega)
  next hstyle =>
    unfold Style.of at hstyle
    rw [hfits] at hstyle
    split at hstyle <;> cases hstyle

/-! ## Where a text without quotes starts -/

/-- A letter that is no mark of the printer's is none of the scanner's, but for three marks that have
to be followed by a letter. -/
theorem isIndicator_toChar {c : CodePoint} (hletter : IsLetter c)
    (hindicator : Printer.isIndicator c = false) (hmarks : c.val ≠ 0x3F ∧ c.val ≠ 0x3A ∧ c.val ≠ 0x2D) :
    Scanner.isIndicator c.toChar = false := by
  rw [Scanner.isIndicator, List.contains_eq_mem, decide_eq_false_iff_not]
  intro hmem
  rw [Printer.isIndicator, List.contains_eq_mem, decide_eq_false_iff_not] at hindicator
  have hmark {ch : Char} (h : c.toChar = ch) : c = CodePoint.ofChar ch := by
    rw [← h, hletter.ofChar_toChar]
  have hall : ("-?:,[]\x7b\x7d#&*!|>'\"%@\x60".toList.all fun ch => ch = '-' ∨ ch = '?' ∨ ch = ':' ∨
      CodePoint.ofChar ch ∈ Text.ofString "#,[]\x7b\x7d&*!|>'\"%@\x60") = true := by
    decide +kernel
  rcases of_decide_eq_true (List.all_eq_true.mp hall _ hmem) with h | h | h | h
  · exact hmarks.2.2 (congrArg CodePoint.val (hmark h))
  · exact hmarks.1 (congrArg CodePoint.val (hmark h))
  · exact hmarks.2.1 (congrArg CodePoint.val (hmark h))
  · rw [hletter.ofChar_toChar] at h
    exact hindicator h

theorem startsPlain_wrapped (hstyle : Style.of t = .plain) :
    StartsPlain (Printer.wrapped false mayFold indent none column t) := by
  obtain ⟨hkind, hfits⟩ := plain_of_style hstyle
  obtain ⟨c, rest, rfl, hletter, -, hflows⟩ := exists_of_fitsPlain hkind hfits
  simp only [fitsPlain, Bool.and_eq_true, Bool.not_eq_true'] at hfits
  have hstart := hfits.1.2
  simp only [startsOtherwise, Bool.or_eq_false_iff] at hstart
  obtain ⟨⟨hindicator, hmark⟩, -⟩ := hstart
  rw [wrapped_letter hletter]
  refine ⟨_, _, rfl, hletter.toChar.1, ?_⟩
  by_cases hmarks : c.val = 0x3F ∨ c.val = 0x3A ∨ c.val = 0x2D
  · right
    constructor
    · rcases hmarks with h | h | h
      · exact Or.inr (Or.inl ((hletter.toChar_eq_iff '?').mpr h))
      · exact Or.inr (Or.inr ((hletter.toChar_eq_iff ':').mpr h))
      · exact Or.inl ((hletter.toChar_eq_iff '-').mpr h)
    · have hgap : followedByGap rest = false := by
        simpa [hmarks, or_assoc] using hmark
      cases rest with
      | nil => cases hgap
      | cons d rest =>
          have hspace : isSpace d = false := by
            simp only [followedByGap, Printer.isGap, Bool.or_eq_false_iff] at hgap
            exact hgap.1.1
          have hd : IsLetter d := hflows.letter hspace
          rw [wrapped_letter hd]
          exact ⟨_, _, rfl, hd.toChar.1⟩
  · left
    simp only [not_or] at hmarks
    exact isIndicator_toChar hletter hindicator hmarks

/-! ## Values -/

/-- **A printed text is taken as a value**, on one line or over several. -/
theorem takesLine_text {outer : Nat} (hindent : outer < indent)
    (hintact : isIntact mayFold indent t = true) :
    TakesLine outer (Printer.text mayFold indent column t) [textToken t] := by
  have hpos : 0 < indent := Nat.lt_of_le_of_lt (Nat.zero_le _) hindent
  unfold textToken
  by_cases hstyle : Style.of t = .plain
  · obtain ⟨hkind, hfits⟩ := plain_of_style hstyle
    rw [Printer.text, hstyle]
    exact takesLine_plain (readsPlain_wrapped hpos (by omega) hkind hfits column)
      (startsPlain_wrapped hstyle)
  · obtain ⟨quote, w, hquote, htext, hread⟩ := exists_quoted column hstyle hpos hintact
    rw [htext, decide_eq_false hstyle]
    exact takesLine_quoted hquote rfl fun c more hrest => hread c '\n' more (by decide) hrest

/-! ## Keys -/

/-- Without breaks and quotes, a text on one line consists of its own characters. -/
theorem wrapped_eq_toChars (hbreak : t.any Printer.isBreak = false) (indent column : Nat)
    (before : Option CodePoint) :
    Printer.wrapped false false indent before column t = Text.toChars t := by
  induction t generalizing before column with
  | nil => rfl
  | cons c rest ih =>
      simp only [List.any_cons, Bool.or_eq_false_iff] at hbreak
      have ih (column : Nat) := ih hbreak.2 column (some c)
      rw [Printer.wrapped, if_neg (Bool.eq_false_iff.mp hbreak.1), ih, ih]
      cases hspace : isSpace c with
      | false => simp [Text.toChars]
      | true => simp [Text.toChars, (toChar_of_isSpace hspace).1]

/-- No key without quotes is a line that separates documents. -/
theorem noMarker_of_plain (hstyle : Style.of t = .plain) {c : Cursor} {more : List Char}
    (hrest : c.rest = Text.toChars t ++ ':' :: more) : NoMarker c := by
  obtain ⟨-, hfits⟩ := plain_of_style hstyle
  simp only [fitsPlain, Printer.fitsSingleQuotes, Bool.and_eq_true, Bool.not_eq_true',
    List.any_eq_false] at hfits
  have hplain : ∀ a ∈ t, isSpecial a = false :=
    fun a ha => Bool.not_eq_true _ ▸ hfits.1.1.1.1.1.1 a ha
  have hstart := hfits.1.2
  have hmark (mark : Char) (hcolon : mark ≠ ':') (hmarks : [mark, mark, mark] = "---".toList ∨
      [mark, mark, mark] = "...".toList) : c.atMarker mark = false := by
    rw [atMarker, Bool.and_eq_false_imp]
    intro htake
    exfalso
    rw [beq_iff_eq, hrest] at htake
    -- The three characters belong to the text, since none of them is the colon.
    rcases t with _ | ⟨a, _ | ⟨b, _ | ⟨d, rest⟩⟩⟩
    · simp [Text.toChars] at htake
      exact hcolon htake.1.symm
    · simp [Text.toChars] at htake
      exact hcolon htake.2.1.symm
    · simp [Text.toChars] at htake
      exact hcolon htake.2.2.symm
    · have hchar {e : CodePoint} (he : e ∈ a :: b :: d :: rest) (hmark : e.toChar = mark) :
          e = CodePoint.ofChar mark := by
        rw [← hmark, (isScalar_of_not_isSpecial (hplain e he)).1.ofChar_toChar]
      simp only [Text.toChars, List.map_cons, List.cons_append, List.take_succ_cons, List.take_zero,
        List.cons.injEq, and_true] at htake
      have hthree : (a :: b :: d :: rest).take 3 = Text.ofChars [mark, mark, mark] := by
        rw [hchar (by simp) htake.1, hchar (by simp) htake.2.1, hchar (by simp) htake.2.2]
        rfl
      simp only [startsOtherwise, Bool.or_eq_false_iff] at hstart
      refine absurd hstart.2 ?_
      rw [hthree]
      rcases hmarks with h | h <;> rw [h] <;> decide
  exact fun _ => ⟨hmark '-' (by decide) (Or.inl rfl), hmark '.' (by decide) (Or.inr rfl)⟩

/-- **A printed key is taken as one**, if it is within reach at its colon. -/
theorem takesKey_text (hsimple : isSimpleKey t = true) (hindent : 0 < indent)
    (hintact : isIntact false indent t = true)
    (hshort : (Printer.text false indent column t).length ≤ keyReach) :
    TakesKey (Printer.text false indent column t) (textToken t) := by
  simp only [isSimpleKey, Bool.and_eq_true, Bool.not_eq_true'] at hsimple
  obtain ⟨⟨-, hbreak⟩, -⟩ := hsimple
  have hinline : ∀ ch ∈ Printer.text false indent column t, IsInline ch :=
    isInline_of_mem_text hbreak
  unfold textToken
  by_cases hstyle : Style.of t = .plain
  · obtain ⟨hkind, hfits⟩ := plain_of_style hstyle
    have hprinted (indent : Nat) : Printer.text false indent column t = Text.toChars t := by
      rw [Printer.text, hstyle]
      exact wrapped_eq_toChars hbreak indent column none
    have hstart : StartsPlain (Text.toChars t) := by
      rw [← wrapped_eq_toChars hbreak indent column none]
      exact startsPlain_wrapped hstyle
    rw [hprinted] at hinline hshort ⊢
    rw [decide_eq_true hstyle]
    refine takesKey_of_dispatch hinline ?_ hshort nofun ?_
    · obtain ⟨ch, rest, hcons, -⟩ := hstart
      rw [hcons]
      exact List.cons_ne_nil _ _
    intro c ts level outer more hrest hmore hcolumn
    have hread : ReadsPlain (level + 1) (Text.toChars t) t := by
      have hleast : level + 1 ≤ ((level.toNat + 1 : Nat) : Int) := by omega
      rw [← wrapped_eq_toChars hbreak (level.toNat + 1) column none]
      exact readsPlain_wrapped (Nat.succ_pos _) hleast hkind hfits column
    obtain ⟨hstops, hgap⟩ : StopsPlain (level + 1) (c.advance (Text.toChars t).length) ∧ _ :=
      stops_at_colon (rest_advance_append hrest) hmore
    refine ⟨false, (dispatch_plain hread hstart hrest (noMarker_of_plain hstyle hrest) hcolumn
      hstops).trans ?_⟩
    rw [hgap]
  · obtain ⟨quote, w, hquote, htext, hread⟩ := exists_quoted column hstyle hindent hintact
    rw [htext] at hinline hshort ⊢
    rw [decide_eq_false hstyle]
    refine takesKey_of_dispatch hinline (List.cons_ne_nil _ _) hshort nofun ?_
    intro c ts level outer more hrest hmore hcolumn
    exact ⟨_, dispatch_quoted hquote hrest (hread c ':' more (by decide) hrest)⟩

end

end LanguageClient.Yaml
