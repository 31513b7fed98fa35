import LanguageClient.Proofs.Yaml.DoubleQuoted

/-!
# Texts between single quotes

Between single quotes nothing is escaped, so line breaks stand for themselves or for spaces: `n + 1`
of them for `n` line feeds, and a single one for a space.  A run of breaks is read in one round with the
indentation behind it (`ReadsSingle.breaks`), and the printer writes runs that are read as they were.

The one break that is not read as it was is U+0085: as a line break it counts as a line feed.  Without it
every text that fits between single quotes is read back (`readsSingle_wrapped`).
-/

namespace LanguageClient.Yaml.Scalar

open Cursor

/-! ## Runs of breaks -/

theorem isBlank_eq_false_of_isBreak {ch : Char} (h : isBreak ch = true) : isBlank ch = false := by
  rw [← Bool.not_eq_true, isBlank_iff]
  rw [isBreak_iff] at h
  omega

theorem quotedBreaks_eq {bs : List Char} (hbs : ∀ ch ∈ bs, isBreak ch = true) {n fuel : Nat}
    {breaks : Text} {c : Cursor} {more : List Char}
    (hrest : c.rest = bs ++ (List.replicate (n + 1) ' ' ++ more))
    (hmore : ∀ ch ∈ more.head?, isGap ch = false) (hfuel : c.rest.length < fuel) :
    quotedBreaks fuel breaks c =
      .ok (breaks ++ bs.map breakText, c.advance (bs.length + (n + 1))) := by
  induction bs generalizing fuel breaks c with
  | nil =>
      obtain ⟨fuel, rfl⟩ := Nat.exists_eq_add_one_of_ne_zero (Nat.ne_zero_of_lt hfuel)
      rw [quotedBreaks_indentation hrest hmore, List.map_nil, List.append_nil, List.length_nil,
        Nat.zero_add]
  | cons b bs ih =>
      obtain ⟨fuel, rfl⟩ := Nat.exists_eq_add_one_of_ne_zero (Nat.ne_zero_of_lt hfuel)
      have hb : isBreak b = true := hbs b (by simp)
      have hrest : c.rest = b :: (bs ++ (List.replicate (n + 1) ' ' ++ more)) := hrest
      have hline : c.atSeparator = false := by
        apply atSeparator_of_indented hrest
        constructor <;> (rintro rfl; revert hb; decide)
      have hskip : c.skip isBlank = c := by
        rw [skip, span_of_not]
        rw [hrest]
        exact fun ch hch => Option.some.inj hch ▸ isBlank_eq_false_of_isBreak hb
      have hstep : c.step.rest = bs ++ (List.replicate (n + 1) ' ' ++ more) := by
        rw [rest_step, hrest]
        rfl
      have hlt : c.step.rest.length < fuel :=
        length_rest_advance_lt Nat.one_pos (by simp [hrest]) hfuel
      rw [quotedBreaks]
      simp only [hline, Bool.false_eq_true, if_false, hskip, takeBreak?_eq hrest hb]
      rw [ih (fun ch hch => hbs ch (List.mem_cons_of_mem _ hch)) hstep hlt, List.map_cons,
        List.length_cons, Nat.add_right_comm bs.length 1, advance_succ, List.append_assoc]
      rfl

/-- A run of breaks, up to the indentation of the line behind it. -/
theorem quotedGap_breaks {b : Char} {bs : List Char} (hb : isBreak b = true)
    (hbs : ∀ ch ∈ bs, isBreak ch = true) {n : Nat} {c : Cursor} {more : List Char}
    (hrest : c.rest = b :: (bs ++ (List.replicate (n + 1) ' ' ++ more)))
    (hmore : ∀ ch ∈ more.head?, isGap ch = false) :
    quotedGap c = .ok (folded (breakText b) (bs.map breakText),
      c.advance (1 + (bs.length + (n + 1)))) := by
  have hspan : c.span isBlank = ([], c) := by
    apply span_of_not
    rw [hrest]
    exact fun ch hch => Option.some.inj hch ▸ isBlank_eq_false_of_isBreak hb
  have hstep : c.step.rest = bs ++ (List.replicate (n + 1) ' ' ++ more) := by
    rw [rest_step, hrest]
    rfl
  unfold quotedGap
  simp only [hspan, peek_eq hrest, takeBreak?_eq hrest hb,
    quotedBreaks_eq hbs hstep hmore (Nat.lt_succ_self _), bind, Except.bind, pure, Except.pure,
    List.nil_append, advance_add 1, advance_one]

/-! ## What is read between single quotes -/

/-- Behind a single quote, and with another one behind them, the characters are read as the text. -/
def ReadsSingle (w : List Char) (t : Text) : Prop :=
  ∀ (fuel : Nat) (done : Text) (c : Cursor) (more : List Char), c.rest = w ++ '\'' :: more →
    more.head? ≠ some '\'' → c.rest.length < fuel →
    singleQuoted fuel done c = .ok (done.reverse ++ t, c.advance (w.length + 1))

namespace ReadsSingle

variable {v w : List Char} {s t : Text}

theorem nil : ReadsSingle [] [] := by
  intro fuel done c more hrest hmore hfuel
  obtain ⟨fuel, rfl⟩ := Nat.exists_eq_add_one_of_ne_zero (Nat.ne_zero_of_lt hfuel)
  have hnext : c.peekAt 1 = more.head? := by
    rw [peekAt, hrest]
    cases more <;> rfl
  rw [singleQuoted, peek_eq hrest]
  dsimp only
  rw [if_pos (by decide), if_neg (by simpa [hnext] using hmore), List.append_nil]
  rfl

/-- What is read in one round may stand before what is read. -/
theorem round (hv : v ≠ [])
    (hround : ∀ fuel done c more, c.rest = v ++ (w ++ '\'' :: more) →
      singleQuoted (fuel + 1) done c = singleQuoted fuel (s.reverse ++ done) (c.advance v.length))
    (h : ReadsSingle w t) : ReadsSingle (v ++ w) (s ++ t) := by
  intro fuel done c more hrest hmore hfuel
  rw [List.append_assoc] at hrest
  obtain ⟨fuel, rfl⟩ := Nat.exists_eq_add_one_of_ne_zero (Nat.ne_zero_of_lt hfuel)
  have hne : c.rest ≠ [] := by simp [hrest, hv]
  rw [hround fuel done c _ hrest, h fuel _ _ more (rest_advance_append hrest) hmore
    (length_rest_advance_lt (List.length_pos_iff.mpr hv) hne hfuel), ← advance_add,
    List.length_append, Nat.add_assoc]
  simp

theorem char {ch : Char} (hquote : ch ≠ '\'') (hgap : isGap ch = false) (h : ReadsSingle w t) :
    ReadsSingle (ch :: w) (CodePoint.ofChar ch :: t) := by
  refine round (v := [ch]) (s := [CodePoint.ofChar ch]) (by simp) ?_ h
  intro fuel done c more hrest
  rw [singleQuoted, peek_eq (hrest.trans rfl)]
  dsimp only
  rw [if_neg (by simpa using hquote), if_neg (by simp [hgap])]
  rfl

/-- A quote that is written twice. -/
theorem quote (h : ReadsSingle w t) :
    ReadsSingle ('\'' :: '\'' :: w) (CodePoint.ofChar '\'' :: t) := by
  refine round (v := ['\'', '\'']) (s := [CodePoint.ofChar '\'']) (by simp) ?_ h
  intro fuel done c more hrest
  have hnext : c.peekAt 1 = some '\'' := by
    rw [peekAt, hrest]
    rfl
  rw [singleQuoted, peek_eq (hrest.trans rfl)]
  dsimp only
  rw [if_pos (by decide), if_pos (by simp [hnext])]
  rfl

/-- A gap is read in one round. -/
theorem gap {ch : Char} (hgap : isGap ch = true) {v' : List Char} (hv : v = ch :: v')
    (hread : ∀ c more, c.rest = v ++ (w ++ '\'' :: more) → quotedGap c = .ok (s, c.advance v.length))
    (h : ReadsSingle w t) : ReadsSingle (v ++ w) (s ++ t) := by
  refine round (by simp [hv]) ?_ h
  intro fuel done c more hrest
  have hquote : ch ≠ '\'' := by
    rintro rfl
    revert hgap
    decide
  have hpeek : c.rest = ch :: (v' ++ (w ++ '\'' :: more)) := by rw [hrest, hv]; rfl
  rw [singleQuoted, peek_eq hpeek]
  dsimp only
  rw [if_neg (by simpa using hquote), if_pos hgap, hread c more hrest]
  rfl

theorem isGap_head?_append (hw : ∀ ch ∈ w.head?, isGap ch = false) (more : List Char) :
    ∀ ch ∈ (w ++ '\'' :: more).head?, isGap ch = false := by
  cases w with
  | nil => exact fun ch hch => Option.some.inj hch ▸ rfl
  | cons d w => exact hw

/-- Blanks are passed at once, up to what stands behind them. -/
theorem blanks (n : Nat) (hw : ∀ ch ∈ w.head?, isGap ch = false) (h : ReadsSingle w t) :
    ReadsSingle (List.replicate n ' ' ++ w) (List.replicate n (CodePoint.ofChar ' ') ++ t) := by
  cases n with
  | zero => exact h
  | succ n =>
      have hspace : isGap ' ' = true := rfl
      refine gap hspace List.replicate_succ ?_ h
      intro c more hrest
      cases hsplit : w ++ '\'' :: more with
      | nil => simp at hsplit
      | cons ch behind =>
          have hch := isGap_head?_append hw more ch (by rw [hsplit]; rfl)
          rw [hsplit] at hrest
          rw [quotedGap_blanks hrest hch, List.length_replicate]

/-- A run of breaks, and the indentation behind it. -/
theorem breaks {b : Char} {bs : List Char} (hb : isBreak b = true)
    (hbs : ∀ ch ∈ bs, isBreak ch = true) (n : Nat) (hw : ∀ ch ∈ w.head?, isGap ch = false)
    (h : ReadsSingle w t) :
    ReadsSingle (b :: (bs ++ Printer.spaces (n + 1)) ++ w)
      (folded (breakText b) (bs.map breakText) ++ t) := by
  have hgap : isGap b = true := by simp [isGap, hb]
  refine gap hgap rfl ?_ h
  intro c more hrest
  have hrest : c.rest = b :: (bs ++ (List.replicate (n + 1) ' ' ++ (w ++ '\'' :: more))) := by
    rw [hrest]
    simp [Printer.spaces]
  rw [quotedGap_breaks hb hbs hrest (isGap_head?_append hw more)]
  simp [Printer.spaces, Nat.add_comm, Nat.add_left_comm]

end ReadsSingle

/-! ## What is printed between single quotes -/

section Printed

open Printer (isSpace isSpecial hasNeighbours fitsSingleQuotes)

theorem hasNeighbours_tail {p q : CodePoint → Bool} {a : CodePoint} {t : Text}
    (h : hasNeighbours p q (a :: t) = false) : hasNeighbours p q t = false := by
  cases t with
  | nil => rfl
  | cons b t => exact (Bool.or_eq_false_iff.mp h).2

theorem hasNeighbours_drop {p q : CodePoint → Bool} (s : Text) {t : Text}
    (h : hasNeighbours p q (s ++ t) = false) : hasNeighbours p q t = false := by
  induction s with
  | nil => exact h
  | cons a s ih => exact ih (hasNeighbours_tail h)

/-- Behind an element of one class no element of the other comes. -/
theorem not_of_hasNeighbours {p q : CodePoint → Bool} {a : CodePoint} {t : Text}
    (h : hasNeighbours p q (a :: t) = false) (ha : p a = true) : ∀ b ∈ t.head?, q b = false := by
  intro b hb
  cases t with
  | nil => cases hb
  | cons c t =>
      obtain rfl := Option.some.inj hb
      simpa [ha] using (Bool.or_eq_false_iff.mp h).1

/-- The text can stand between single quotes, and none of its breaks is U+0085. -/
structure FitsSingleQuotes (t : Text) : Prop where
  plain : ∀ c ∈ t, isSpecial c = false
  breakSpace : hasNeighbours Printer.isBreak isSpace t = false
  spaceBreak : hasNeighbours isSpace Printer.isBreak t = false
  noNextLine : ∀ c ∈ t, c.val ≠ 0x85

theorem FitsSingleQuotes.of_fits {t : Text} (h : fitsSingleQuotes t = true)
    (hnext : ∀ c ∈ t, c.val ≠ 0x85) : FitsSingleQuotes t := by
  simp only [fitsSingleQuotes, Bool.and_eq_true, Bool.not_eq_true', List.any_eq_false] at h
  obtain ⟨⟨hplain, hbreakSpace⟩, hspaceBreak⟩ := h
  exact ⟨fun c hc => Bool.not_eq_true _ ▸ hplain c hc, hbreakSpace, hspaceBreak, hnext⟩

theorem FitsSingleQuotes.drop (s : Text) {t : Text} (h : FitsSingleQuotes (s ++ t)) :
    FitsSingleQuotes t :=
  ⟨fun c hc => h.plain c (List.mem_append_right _ hc), hasNeighbours_drop s h.breakSpace,
    hasNeighbours_drop s h.spaceBreak, fun c hc => h.noNextLine c (List.mem_append_right _ hc)⟩

/-- A character that needs no escape is a character by itself, and no tab. -/
theorem isScalar_of_not_isSpecial {c : CodePoint} (h : isSpecial c = false) :
    c.IsScalar ∧ c.val ≠ 0x09 ∧ c.val ≠ 0x0D ∧ c.val ≠ 0xFEFF := by
  simp only [isSpecial, Bool.not_eq_false', Bool.or_eq_true, Bool.and_eq_true,
    decide_eq_true_eq] at h
  unfold CodePoint.IsScalar
  omega

theorem printer_isBreak_iff {c : CodePoint} :
    Printer.isBreak c = true ↔ c.val = 0x0A ∨ c.val = 0x85 ∨ c.val = 0x2028 ∨ c.val = 0x2029 := by
  simp [Printer.isBreak, or_assoc]

/-- A break of the printer is one of the reader. -/
theorem isBreak_toChar {c : CodePoint} (h : isSpecial c = false) :
    isBreak c.toChar = Printer.isBreak c := by
  rw [Bool.eq_iff_iff, isBreak_iff, printer_isBreak_iff,
    (isScalar_of_not_isSpecial h).1.toNat_toChar]

theorem isGap_toChar {c : CodePoint} (h : isSpecial c = false) :
    isGap c.toChar = (isSpace c || Printer.isBreak c) := by
  obtain ⟨hscalar, htab, -⟩ := isScalar_of_not_isSpecial h
  have hblank : isBlank c.toChar = isSpace c := by
    rw [Bool.eq_iff_iff, isBlank_iff, hscalar.toNat_toChar]
    simp [isSpace, htab]
  rw [isGap, hblank, isBreak_toChar h]

theorem breakText_toChar {c : CodePoint} (h : isSpecial c = false) (hnext : c.val ≠ 0x85) :
    breakText c.toChar = c := by
  have hscalar := (isScalar_of_not_isSpecial h).1
  have hne : c.toChar ≠ '\u0085' := by
    rw [ne_eq, ← Char.toNat_inj, hscalar.toNat_toChar]
    exact hnext
  simp only [breakText, beq_eq_false_iff_ne.mpr hne, Bool.false_eq_true, if_false]
  exact hscalar.ofChar_toChar

variable {inQuotes mayFold : Bool} {indent column : Nat} {before : Option CodePoint} {t : Text}

/-- What is printed without escapes starts with a gap only if the text does. -/
theorem isGap_head?_wrapped (hplain : ∀ c ∈ t.head?, isSpecial c = false)
    (hspace : ∀ c ∈ t.head?, isSpace c = false) (hbreak : ∀ c ∈ t.head?, Printer.isBreak c = false) :
    ∀ ch ∈ (Printer.wrapped inQuotes mayFold indent before column t).head?, isGap ch = false := by
  intro ch hch
  cases t with
  | nil => cases hch
  | cons c rest =>
      have hgap : isGap c.toChar = false := by
        rw [isGap_toChar (hplain c rfl), hspace c rfl, hbreak c rfl]
        rfl
      rw [Printer.wrapped, if_neg (by simp [hspace c rfl]), if_neg (by simp [hbreak c rfl])] at hch
      split at hch
      · exact Option.some.inj hch ▸ rfl
      · exact Option.some.inj hch ▸ hgap

theorem isSpace_of_isBreak {c : CodePoint} (h : Printer.isBreak c = true) : isSpace c = false := by
  rw [printer_isBreak_iff] at h
  simp only [isSpace, decide_eq_false_iff_not]
  omega

/-- The rest of a run of breaks, and the indentation of the line behind it. -/
theorem wrapped_run {b : CodePoint} (hb : Printer.isBreak b = true) {bs : Text}
    (hbs : ∀ c ∈ bs, Printer.isBreak c = true) (ht : ∀ c ∈ t.head?, Printer.isBreak c = false) :
    ∃ last, Printer.isBreak last = true ∧ (∃ init, b :: bs = init ++ [last]) ∧
      (if (bs ++ t).head?.any Printer.isBreak then [] else Printer.spaces indent) ++
          Printer.wrapped inQuotes mayFold indent (some b) indent (bs ++ t) =
        bs.map CodePoint.toChar ++ (Printer.spaces indent ++
          Printer.wrapped inQuotes mayFold indent (some last) indent t) := by
  induction bs generalizing b with
  | nil =>
      refine ⟨b, hb, ⟨[], rfl⟩, ?_⟩
      have hhead : t.head?.any Printer.isBreak = false := by
        cases t with
        | nil => rfl
        | cons c t => exact ht c rfl
      simp [hhead]
  | cons b' bs ih =>
      have hb' : Printer.isBreak b' = true := hbs b' (by simp)
      have hspace : isSpace b' = false := isSpace_of_isBreak hb'
      obtain ⟨last, hlast, ⟨init, hinit⟩, hwritten⟩ :=
        ih hb' fun c hc => hbs c (List.mem_cons_of_mem _ hc)
      refine ⟨last, hlast, ⟨b :: init, by rw [hinit]; rfl⟩, ?_⟩
      have hfirst : Printer.wrapped inQuotes mayFold indent (some b) indent (b' :: (bs ++ t)) =
          b'.toChar :: ((if (bs ++ t).head?.any Printer.isBreak then [] else Printer.spaces indent) ++
            Printer.wrapped inQuotes mayFold indent (some b') indent (bs ++ t)) := by
        rw [Printer.wrapped, if_neg (by simp [hspace]), if_pos hb']
        simp [hb]
      have hhead : (b' :: (bs ++ t)).head?.any Printer.isBreak = true := hb'
      rw [List.map_cons, List.cons_append, List.cons_append, hfirst, hwritten, if_pos hhead]
      rfl

/-- A text is a run of breaks and what follows them. -/
theorem exists_run (t : Text) : ∃ bs rest, t = bs ++ rest ∧
    (∀ c ∈ bs, Printer.isBreak c = true) ∧ ∀ c ∈ rest.head?, Printer.isBreak c = false := by
  refine ⟨t.takeWhile Printer.isBreak, t.dropWhile Printer.isBreak,
    List.takeWhile_append_dropWhile.symm, fun c hc => List.mem_takeWhile_imp hc, ?_⟩
  intro c hc
  have := List.head?_dropWhile_not Printer.isBreak t
  rw [hc] at this
  simpa using this

/-- A run of breaks is read as it was: a line feed at its start is written twice. -/
theorem folded_run {b : CodePoint} {bs : Text} (hb : Printer.isBreak b = true)
    (hbs : ∀ c ∈ bs, Printer.isBreak c = true) (hplain : ∀ c ∈ b :: bs, isSpecial c = false)
    (hnext : ∀ c ∈ b :: bs, c.val ≠ 0x85) :
    ∃ first later, (if b.val = 0x0A then ['\n'] else []) ++ (b :: bs).map CodePoint.toChar =
        first :: later ∧
      isBreak first = true ∧ (∀ ch ∈ later, isBreak ch = true) ∧
      folded (breakText first) (later.map breakText) = b :: bs := by
  have hlater : ∀ ch ∈ (b :: bs).map CodePoint.toChar, isBreak ch = true := by
    intro ch hch
    obtain ⟨c, hc, rfl⟩ := List.mem_map.mp hch
    rw [isBreak_toChar (hplain c hc)]
    rcases List.mem_cons.mp hc with rfl | hc
    · exact hb
    · exact hbs c hc
  have hread : ∀ s : Text, (∀ c ∈ s, c ∈ b :: bs) →
      (s.map CodePoint.toChar).map breakText = s := by
    intro s hs
    rw [List.map_map]
    apply (List.map_congr_left fun c hc => ?_).trans (List.map_id s)
    exact breakText_toChar (hplain c (hs c hc)) (hnext c (hs c hc))
  by_cases hfeed : b.val = 0x0A
  · refine ⟨'\n', (b :: bs).map CodePoint.toChar, by rw [if_pos hfeed]; rfl, rfl, hlater, ?_⟩
    rw [hread (b :: bs) fun c hc => hc]
    simp [folded, show breakText '\n' = CodePoint.ofChar '\n' from rfl]
  · refine ⟨b.toChar, bs.map CodePoint.toChar, by rw [if_neg hfeed]; rfl, hlater _ (by simp),
      fun ch hch => hlater ch (by simp only [List.map_cons]; exact List.mem_cons_of_mem _ hch), ?_⟩
    have hne : b ≠ CodePoint.ofChar '\n' := by
      rintro rfl
      exact hfeed rfl
    rw [hread bs fun c hc => List.mem_cons_of_mem _ hc,
      breakText_toChar (hplain b (by simp)) (hnext b (by simp)), folded, if_pos hne]

/-- A run of breaks of a text, before something that is read. -/
theorem readsSingle_run {c : CodePoint} {bs later : Text} (hindent : 0 < indent)
    (hfits : FitsSingleQuotes (c :: (bs ++ later))) (hc : Printer.isBreak c = true)
    (hbs : ∀ d ∈ bs, Printer.isBreak d = true) (hlater : ∀ d ∈ later.head?, Printer.isBreak d = false)
    (hbefore : before.any Printer.isBreak = false)
    (h : ∀ last, ReadsSingle (Printer.wrapped true mayFold indent (some last) indent later) later) :
    ReadsSingle (Printer.wrapped true mayFold indent before column (c :: (bs ++ later)))
      (c :: (bs ++ later)) := by
  obtain ⟨indent, rfl⟩ := Nat.exists_eq_add_one_of_ne_zero hindent.ne'
  have hmem {d : CodePoint} (hd : d ∈ c :: bs) : d ∈ c :: (bs ++ later) :=
    (List.mem_append_left later hd : d ∈ c :: bs ++ later)
  have hfitsLater : FitsSingleQuotes later := hfits.drop (c :: bs)
  obtain ⟨last, hlast, ⟨init, hinit⟩, hwritten⟩ := wrapped_run hc hbs hlater
  obtain ⟨first, more, hfirst, hfirstBreak, hmoreBreak, hfolded⟩ :=
    folded_run hc hbs (fun d hd => hfits.plain d (hmem hd)) fun d hd => hfits.noNextLine d (hmem hd)
  have hspace : ∀ d ∈ later.head?, isSpace d = false := by
    have hall : c :: (bs ++ later) = init ++ last :: later := by
      rw [← List.cons_append, hinit, List.append_assoc, List.singleton_append]
    have hneighbours := hfits.breakSpace
    rw [hall] at hneighbours
    exact not_of_hasNeighbours (hasNeighbours_drop init hneighbours) hlast
  have hread := ReadsSingle.breaks hfirstBreak hmoreBreak indent
    (isGap_head?_wrapped (fun d hd => hfitsLater.plain d (List.mem_of_mem_head? hd)) hspace hlater)
    (h last)
  rw [hfolded, ← List.cons_append, ← hfirst] at hread
  have hprinted : Printer.wrapped true mayFold (indent + 1) before column (c :: (bs ++ later)) =
      (if c.val = 0x0A then ['\n'] else []) ++ (c :: bs).map CodePoint.toChar ++
        Printer.spaces (indent + 1) ++
        Printer.wrapped true mayFold (indent + 1) (some last) (indent + 1) later := by
    rw [Printer.wrapped, if_neg (by simp [isSpace_of_isBreak hc]), if_pos hc]
    simp only [hbefore, Bool.not_false, Bool.and_true, decide_eq_true_eq, List.append_assoc,
      List.map_cons, List.cons_append]
    rw [hwritten]
  rw [hprinted]
  exact hread

/-- A space of a text where a line is broken, before something that is read. -/
theorem readsSingle_fold {c : CodePoint} {rest : Text} (hindent : 0 < indent)
    (hfits : FitsSingleQuotes (c :: rest)) (hc : isSpace c = true)
    (hrest : ∀ d ∈ rest.head?, isSpace d = false)
    (h : ReadsSingle (Printer.wrapped true mayFold indent (some c) indent rest) rest) :
    ReadsSingle (Printer.newLine indent ++ Printer.wrapped true mayFold indent (some c) indent rest)
      (c :: rest) := by
  obtain ⟨indent, rfl⟩ := Nat.exists_eq_add_one_of_ne_zero hindent.ne'
  obtain ⟨-, rfl⟩ := toChar_of_isSpace hc
  have hplain : ∀ d ∈ rest.head?, isSpecial d = false :=
    fun d hd => hfits.plain d (List.mem_cons_of_mem _ (List.mem_of_mem_head? hd))
  have hbreak := not_of_hasNeighbours hfits.spaceBreak hc
  have hread := ReadsSingle.breaks (b := '\n') rfl (List.forall_mem_nil _) indent
    (isGap_head?_wrapped hplain hrest hbreak) h
  exact hread

/-- **What is printed between single quotes is read as the text.** -/
theorem readsSingle_wrapped (hindent : 0 < indent) (hfits : FitsSingleQuotes t)
    (hbefore : before.any Printer.isBreak = true → ∀ c ∈ t.head?, Printer.isBreak c = false) (n : Nat)
    (hn : 0 < n → before.any isSpace = true ∧ ∀ c ∈ t.head?, Printer.isBreak c = false) :
    ReadsSingle (List.replicate n ' ' ++ Printer.wrapped true mayFold indent before column t)
      (List.replicate n (CodePoint.ofChar ' ') ++ t) := by
  induction hlength : t.length using Nat.strong_induction_on
    generalizing n t before column with
  | _ length ih =>
  cases t with
  | nil => exact .blanks n (by simp [Printer.wrapped]) .nil
  | cons c rest =>
      have hplain := hfits.plain c (by simp)
      obtain ⟨hscalar, -⟩ := isScalar_of_not_isSpecial hplain
      have hlt : rest.length < length := by rw [← hlength]; exact Nat.lt_succ_self _
      have hzero {P : Prop} (h : 0 < 0) : P := absurd h (Nat.lt_irrefl 0)
      cases hspace : isSpace c with
      | true =>
          obtain ⟨-, hcode⟩ := toChar_of_isSpace hspace
          have hbreak : ∀ d ∈ rest.head?, Printer.isBreak d = false :=
            not_of_hasNeighbours hfits.spaceBreak hspace
          rw [Printer.wrapped, if_pos hspace]
          dsimp only
          split
          next hfold =>
            -- The space is alone, so no other one stands before it.
            simp only [Bool.and_eq_true] at hfold
            obtain ⟨⟨⟨hbeforeSpace, hnext⟩, -⟩, -⟩ := hfold
            obtain rfl : n = 0 := by
              by_contra hpos
              obtain ⟨hspaceBefore, -⟩ := hn (Nat.pos_of_ne_zero hpos)
              cases before with
              | none => cases hspaceBefore
              | some b => simp [show isSpace b = true from hspaceBefore] at hbeforeSpace
            apply readsSingle_fold hindent hfits hspace
            · intro d hd
              rw [hd] at hnext
              simpa using hnext
            · exact ih rest.length hlt (hfits.drop [c]) (fun _ => hbreak) 0 hzero rfl
          next =>
            have hreads : ReadsSingle (List.replicate (n + 1) ' ' ++
                Printer.wrapped true mayFold indent (some c) (column + 1) rest) _ :=
              ih rest.length hlt (hfits.drop [c]) (fun _ => hbreak) (n + 1)
                (fun _ => ⟨hspace, hbreak⟩) rfl
            rw [List.replicate_succ', List.replicate_succ', List.append_assoc, List.append_assoc,
              List.singleton_append, List.singleton_append] at hreads
            subst hcode
            exact hreads
      | false =>
          cases hbreak : Printer.isBreak c with
          | true =>
              obtain ⟨bs, later, rfl, hbs, hlater⟩ := exists_run rest
              obtain rfl : n = 0 := by
                by_contra hpos
                have := (hn (Nat.pos_of_ne_zero hpos)).2 c rfl
                simp [hbreak] at this
              have hstart : before.any Printer.isBreak = false := by
                by_contra hbefore'
                have := hbefore (Bool.not_eq_false _ ▸ hbefore') c rfl
                simp [hbreak] at this
              apply readsSingle_run hindent hfits hbreak hbs hlater hstart
              intro last
              rw [List.length_append] at hlt
              exact ih later.length (by omega) (hfits.drop (c :: bs)) (fun _ => hlater) 0 hzero rfl
          | false =>
              have hgap : isGap c.toChar = false := by
                rw [isGap_toChar hplain, hspace, hbreak]
                rfl
              have hreads (column : Nat) : ReadsSingle
                  (Printer.wrapped true mayFold indent (some c) column rest) rest :=
                ih rest.length hlt (hfits.drop [c]) (fun h => absurd h (by simp [hbreak])) 0 hzero rfl
              rw [Printer.wrapped, if_neg (by simp [hspace]), if_neg (by simp [hbreak])]
              split
              next hquote =>
                have hval : c.val = 0x27 := by simpa using hquote
                obtain rfl : CodePoint.ofChar '\'' = c := CodePoint.ext hval.symm
                exact (hreads _).quote.blanks n fun ch hch => Option.some.inj hch ▸ rfl
              next hquote =>
                have hne : c.toChar ≠ '\'' := by
                  rw [ne_eq, ← Char.toNat_inj, hscalar.toNat_toChar]
                  simpa using hquote
                have hread := (hreads (column + 1)).char hne hgap
                rw [hscalar.ofChar_toChar] at hread
                exact hread.blanks n fun ch hch => Option.some.inj hch ▸ hgap

end Printed

end LanguageClient.Yaml.Scalar
