import LanguageClient.Proofs.Yaml.SingleQuoted

/-!
# Texts without quotes

A text that stands without quotes is read run by run: a run goes up to a gap, or up to a colon that
ends a key.  The gap behind it belongs to the text if the line goes on, or if the next line is indented
deeply enough.

What is read depends on where the cursor comes to a stop (`StopsPlain`), which is either a colon or the
end of a line behind which nothing is indented as deeply (`stops_at_colon`, `stops_at_line`).  Up to
there the runs and gaps that the printer writes are read as the text (`readsPlain_wrapped`): a colon in
it is never followed by a gap, and no run starts with the mark of a comment.
-/

namespace LanguageClient.Yaml.Scalar

open Cursor

/-! ## Runs -/

/-- Characters that are passed in one go, if a gap or the end of a key comes next. -/
structure IsRun (run : List Char) : Prop where
  ne_nil : run ≠ []
  isInline : ∀ ch ∈ run, isGap ch = false ∧ IsInline ch
  noColon : run.getLast? ≠ some ':'

/-- Outside of brackets a run ends at a gap, and at a colon before one. -/
theorem plainRun_cons (ch : Char) (rest : List Char) :
    plainRun false (ch :: rest) =
      if isGap ch || (ch == ':' && endOr isGap rest.head?) then [] else ch :: plainRun false rest := by
  simp [plainRun]

theorem plainRun_of_gap {more : List Char} (h : ∀ ch ∈ more.head?, isGap ch = true) :
    plainRun false more = [] := by
  cases more with
  | nil => rfl
  | cons ch more => rw [plainRun_cons, h ch rfl, Bool.true_or, if_pos rfl]

theorem plainRun_of_colon {more : List Char} (h : endOr isGap more.head? = true) :
    plainRun false (':' :: more) = [] := by
  simp [plainRun_cons, h]

/-- A colon ends a run only if a gap comes next. -/
theorem plainRun_append {run more : List Char} (hrun : ∀ ch ∈ run, isGap ch = false)
    (hcolon : run.getLast? ≠ some ':') (hmore : plainRun false more = []) :
    plainRun false (run ++ more) = run := by
  induction run with
  | nil => exact hmore
  | cons ch run ih =>
      have hgap := hrun ch (by simp)
      have hends : (ch == ':' && endOr isGap (run ++ more).head?) = false := by
        cases run with
        | nil =>
            have hne : ch ≠ ':' := by simpa using hcolon
            simp [hne]
        | cons d run =>
            have hd : isGap d = false := hrun d (by simp)
            simp [endOr, hd]
      have hlater : run.getLast? ≠ some ':' := by
        cases run with
        | nil => simp
        | cons d run => simpa [List.getLast?_cons_cons] using hcolon
      rw [List.cons_append, plainRun_cons, hgap, hends, Bool.false_or, if_neg Bool.false_ne_true,
        ih (fun d hd => hrun d (List.mem_cons_of_mem _ hd)) hlater]

/-! ## Gaps -/

theorem plainGap_of_not {c : Cursor} (h : ∀ ch ∈ c.rest.head?, isGap ch = false) :
    plainGap c = ⟨[], false, c⟩ := by
  have hspan : c.span (· == ' ') = ([], c) := by
    apply span_of_not
    intro ch hch
    have := (isGap_eq_false_iff.mp (h ch hch)).1
    rw [← Bool.not_eq_true, isBlank_iff] at this
    rw [beq_eq_false_iff_ne, ne_eq, ← Char.toNat_inj]
    exact fun heq => this (Or.inl heq)
  have hbreak : c.takeBreak? = none :=
    takeBreak?_of_not fun ch hch => (isGap_eq_false_iff.mp (h ch hch)).2
  simp [plainGap, hspan, hbreak, Text.ofChars]

theorem beq_space_of_not_isGap {ch : Char} (h : isGap ch = false) : (ch == ' ') = false := by
  rw [beq_eq_false_iff_ne]
  rintro rfl
  revert h
  decide

/-- Spaces between two runs of a line. -/
theorem plainGap_spaces {n : Nat} {c : Cursor} {more : List Char}
    (hrest : c.rest = List.replicate n ' ' ++ more) (hmore : ∀ ch ∈ more.head?, isGap ch = false) :
    plainGap c = ⟨List.replicate n (CodePoint.ofChar ' '), false, c.advance n⟩ := by
  have hspan : c.span (· == ' ') = (List.replicate n ' ', c.advance n) :=
    span_replicate hrest rfl fun ch hch => beq_space_of_not_isGap (hmore ch hch)
  have hbreak : (c.advance n).takeBreak? = none := by
    apply takeBreak?_of_not
    rw [rest_advance_replicate hrest]
    exact fun ch hch => (isGap_eq_false_iff.mp (hmore ch hch)).2
  simp [plainGap, hspan, hbreak, Text.ofChars]

/-- The end of a line, and the indentation of the next one. -/
theorem plainGap_newLine {n : Nat} {c : Cursor} {more : List Char}
    (hrest : c.rest = '\n' :: (List.replicate n ' ' ++ more))
    (hmore : ∀ ch ∈ more.head?, isGap ch = false) :
    ∃ text, (text = [] ∨ text = [CodePoint.ofChar ' ']) ∧ (0 < n → text = [CodePoint.ofChar ' ']) ∧
      plainGap c = ⟨text, true, c.advance (n + 1)⟩ := by
  have hspan : c.span (· == ' ') = ([], c) := by
    apply span_of_not
    rw [hrest]
    exact fun ch hch => Option.some.inj hch ▸ rfl
  have hline : c.step.rest = List.replicate n ' ' ++ more := by
    rw [rest_step, hrest]
    rfl
  have hskip : c.step.skipSpaces = c.step.advance n := by
    rw [skipSpaces, skip,
      span_replicate hline rfl fun ch hch => beq_space_of_not_isGap (hmore ch hch)]
  have hbreak : (c.step.advance n).takeBreak? = none := by
    apply takeBreak?_of_not
    rw [rest_advance_replicate hline]
    exact fun ch hch => (isGap_eq_false_iff.mp (hmore ch hch)).2
  have hgap : plainGap c =
      ⟨((plainBreaks (c.step.rest.length + 1) [] c.step).1.map
          (folded (CodePoint.ofChar '\n'))).getD [],
        true, (plainBreaks (c.step.rest.length + 1) [] c.step).2⟩ := by
    simp only [plainGap, hspan, takeBreak?_eq hrest (by decide : isBreak '\n' = true)]
    rcases plainBreaks (c.step.rest.length + 1) [] c.step with ⟨_ | breaks, c'⟩ <;> rfl
  rw [hgap, plainBreaks]
  cases hseparator : c.step.atSeparator with
  | false =>
      refine ⟨[CodePoint.ofChar ' '], Or.inr rfl, fun _ => rfl, ?_⟩
      simp [hskip, hbreak, folded, advance_succ]
  | true =>
      -- A separator stands at the start of its line.
      have hn : n = 0 := by
        cases n with
        | zero => rfl
        | succ n =>
            rw [atSeparator_of_indented (hline.trans rfl) ⟨by decide, by decide⟩] at hseparator
            cases hseparator
      subst hn
      exact ⟨[], Or.inl rfl, fun h => absurd h (Nat.lt_irrefl 0), rfl⟩

/-! ## Where a text ends -/

/-- The text ends at the cursor: no run starts here, and none belongs to it behind the gap. -/
structure StopsPlain (least : Int) (c : Cursor) : Prop where
  noRun : plainRun false c.rest = []
  ends : (plainGap c).text = [] ∨ ((plainGap c).cursor.column : Int) < least

theorem stops_at_colon {least : Int} {c : Cursor} {more : List Char} (hrest : c.rest = ':' :: more)
    (hmore : endOr isGap more.head? = true) :
    StopsPlain least c ∧ plainGap c = ⟨[], false, c⟩ := by
  have hgap : plainGap c = ⟨[], false, c⟩ := by
    apply plainGap_of_not
    rw [hrest]
    exact fun ch hch => Option.some.inj hch ▸ rfl
  refine ⟨⟨?_, Or.inl ?_⟩, hgap⟩
  · rw [hrest]
    exact plainRun_of_colon hmore
  · rw [hgap]

/-- The end of a line, if the next one is indented by less. -/
theorem stops_at_line {least : Int} {n : Nat} {c : Cursor} {more : List Char}
    (hrest : c.rest = '\n' :: (List.replicate n ' ' ++ more))
    (hmore : ∀ ch ∈ more.head?, isGap ch = false) (hn : (n : Int) < least) :
    StopsPlain least c ∧ (plainGap c).breaksLine = true ∧ (plainGap c).cursor = c.advance (n + 1) := by
  obtain ⟨text, -, -, hgap⟩ := plainGap_newLine hrest hmore
  refine ⟨⟨?_, Or.inr ?_⟩, by rw [hgap], by rw [hgap]⟩
  · rw [hrest]
    exact plainRun_of_gap fun ch hch => Option.some.inj hch ▸ rfl
  · rw [hgap, advance_newLine hrest]
    exact hn

/-! ## What is read without quotes -/

/-- From the start of a run on, up to a place where a text ends, the characters are read as the rest of
the text. -/
def ReadsPlain (least : Int) (w : List Char) (t : Text) : Prop :=
  ∀ (fuel : Nat) (done gap : Text) (atNewLine : Bool) (c : Cursor) (more : List Char),
    c.rest = w ++ more → least ≤ c.column + 1 → StopsPlain least (c.advance w.length) →
    c.rest.length < fuel →
    plainFrom false least fuel done gap atNewLine c =
      ⟨done ++ gap ++ t, (plainGap (c.advance w.length)).breaksLine,
        (plainGap (c.advance w.length)).cursor⟩

namespace ReadsPlain

variable {least : Int} {run w : List Char} {t : Text}

theorem plainFrom_run {fuel : Nat} {done gap : Text} {atNewLine : Bool} {c : Cursor}
    {more : List Char} (hrun : IsRun run) (hhash : run.head? ≠ some '#')
    (hrest : c.rest = run ++ more) (hmore : plainRun false more = []) :
    plainFrom false least (fuel + 1) done gap atNewLine c =
      let done := done ++ gap ++ Text.ofChars run
      let next := plainGap (c.advance run.length)
      if next.text.isEmpty || next.cursor.peek == some '#' || (next.cursor.column : Int) < least then
        ⟨done, next.breaksLine, next.cursor⟩
      else plainFrom false least fuel done next.text next.breaksLine next.cursor := by
  have hpeek : (c.peek == some '#') = false := by
    rw [peek, hrest, List.head?_append_of_ne_nil _ hrun.ne_nil, beq_eq_false_iff_ne]
    exact hhash
  have hrun' : plainRun false c.rest = run := by
    rw [hrest]
    exact plainRun_append (fun ch hch => (hrun.isInline ch hch).1) hrun.noColon hmore
  have hne : run.isEmpty = false := by simp [hrun.ne_nil]
  rw [plainFrom]
  simp only [hpeek, Bool.false_eq_true, if_false, hrun', hne, Bool.not_false, Bool.true_and]

/-- The last run of a text. -/
theorem last (hrun : IsRun run) (hhash : run.head? ≠ some '#') :
    ReadsPlain least run (Text.ofChars run) := by
  intro fuel done gap atNewLine c more hrest _ hstops hfuel
  obtain ⟨fuel, rfl⟩ := Nat.exists_eq_add_one_of_ne_zero (Nat.ne_zero_of_lt hfuel)
  have hmore := hstops.noRun
  rw [rest_advance_append hrest] at hmore
  rw [plainFrom_run hrun hhash hrest hmore]
  dsimp only
  rw [if_pos]
  rcases hstops.ends with hempty | hcolumn
  · simp [hempty]
  · simp [hcolumn]

/-- A run, a gap, and what is read behind them. -/
theorem next {between : List Char} {s : Text} (hrun : IsRun run) (hhash : run.head? ≠ some '#')
    (hw : w.head? ≠ some '#') (hwne : w ≠ []) (hs : s ≠ [])
    (hbetween : ∀ ch ∈ between.head?, isGap ch = true)
    (hgap : ∀ c more, c.rest = between ++ (w ++ more) → least ≤ c.column →
      ∃ breaksLine, plainGap c = ⟨s, breaksLine, c.advance between.length⟩ ∧
        least ≤ (c.advance between.length).column)
    (hne : between ≠ []) (h : ReadsPlain least w t) :
    ReadsPlain least (run ++ (between ++ w)) (Text.ofChars run ++ (s ++ t)) := by
  intro fuel done gap atNewLine c more hrest hcolumn hstops hfuel
  obtain ⟨fuel, rfl⟩ := Nat.exists_eq_add_one_of_ne_zero (Nat.ne_zero_of_lt hfuel)
  have hrest : c.rest = run ++ (between ++ (w ++ more)) := by
    rw [hrest]
    simp
  have hbehind : (c.advance run.length).rest = between ++ (w ++ more) := rest_advance_append hrest
  have hrunColumn : (c.advance run.length).column = c.column + run.length := by
    rw [advance_inline hrest fun ch hch => (hrun.isInline ch hch).2]
  have hlength := List.length_pos_iff.mpr hrun.ne_nil
  obtain ⟨breaksLine, hplainGap, hnextColumn⟩ := hgap _ _ hbehind (by omega)
  have hnext : ((c.advance run.length).advance between.length).rest = w ++ more :=
    rest_advance_append hbehind
  have hpeek : (((c.advance run.length).advance between.length).peek == some '#') = false := by
    rw [peek, hnext, List.head?_append_of_ne_nil _ hwne, beq_eq_false_iff_ne]
    exact hw
  have hgapRun : plainRun false (between ++ (w ++ more)) = [] := by
    apply plainRun_of_gap
    rw [List.head?_append_of_ne_nil _ hne]
    exact hbetween
  have hadvance : c.advance (run ++ (between ++ w)).length =
      ((c.advance run.length).advance between.length).advance w.length := by
    rw [← advance_add, ← advance_add, List.length_append, List.length_append]
  rw [plainFrom_run hrun hhash hrest hgapRun, hplainGap]
  dsimp only
  rw [if_neg (by simp [hs, hpeek, hnextColumn]), h fuel _ _ _ _ more hnext (by omega)
    (by rw [← hadvance]; exact hstops), hadvance]
  · simp
  · rw [hnext]
    rw [hrest] at hfuel
    simp only [List.length_append] at hfuel ⊢
    omega

/-- Spaces between two runs. -/
theorem spaces (hrun : IsRun run) (hhash : run.head? ≠ some '#') (n : Nat)
    (hw : w.head? ≠ some '#') (hwne : w ≠ []) (hgap : ∀ ch ∈ w.head?, isGap ch = false)
    (h : ReadsPlain least w t) :
    ReadsPlain least (run ++ (List.replicate (n + 1) ' ' ++ w))
      (Text.ofChars run ++ (List.replicate (n + 1) (CodePoint.ofChar ' ') ++ t)) := by
  refine next hrun hhash hw hwne (by simp) (fun ch hch => Option.some.inj hch ▸ rfl) ?_ (by simp) h
  intro c more hrest hcolumn
  refine ⟨false, ?_, ?_⟩
  · rw [List.length_replicate]
    apply plainGap_spaces hrest
    rw [List.head?_append_of_ne_nil _ hwne]
    exact hgap
  · have hinline : ∀ ch ∈ List.replicate (n + 1) ' ', IsInline ch := by
      intro ch hch
      rw [List.eq_of_mem_replicate hch]
      exact isInline_space
    rw [advance_inline hrest hinline]
    dsimp only
    omega

/-- A line that is broken between two runs. -/
theorem newLine (hrun : IsRun run) (hhash : run.head? ≠ some '#') {n : Nat} (hpos : 0 < n)
    (hleast : least ≤ n) (hw : w.head? ≠ some '#') (hwne : w ≠ [])
    (hgap : ∀ ch ∈ w.head?, isGap ch = false) (h : ReadsPlain least w t) :
    ReadsPlain least (run ++ (Printer.newLine n ++ w))
      (Text.ofChars run ++ (CodePoint.ofChar ' ' :: t)) := by
  refine next (s := [CodePoint.ofChar ' ']) hrun hhash hw hwne (by simp)
    (fun ch hch => Option.some.inj hch ▸ rfl) ?_ (by simp [Printer.newLine]) h
  intro c more hrest hcolumn
  have hrest : c.rest = '\n' :: (List.replicate n ' ' ++ (w ++ more)) := hrest
  have hlength : (Printer.newLine n).length = n + 1 := by simp [Printer.newLine, Printer.spaces]
  have hhead : ∀ ch ∈ (w ++ more).head?, isGap ch = false := by
    rw [List.head?_append_of_ne_nil _ hwne]
    exact hgap
  obtain ⟨text, -, htext, hplainGap⟩ := plainGap_newLine hrest hhead
  refine ⟨true, ?_, ?_⟩
  · rw [hplainGap, htext hpos, hlength]
  · rw [hlength, advance_newLine hrest]
    exact hleast

end ReadsPlain

/-! ## What is printed without quotes -/

section Printed

open Printer (isSpace isSpecial hasMark followedByGap fitsPlain)

/-- The code point is a character of a word. -/
structure IsLetter (c : CodePoint) : Prop where
  plain : isSpecial c = false
  noBreak : Printer.isBreak c = false
  noSpace : isSpace c = false

theorem IsLetter.toChar {c : CodePoint} (h : IsLetter c) :
    isGap c.toChar = false ∧ IsInline c.toChar := by
  obtain ⟨hscalar, -, -, hmark⟩ := isScalar_of_not_isSpecial h.plain
  refine ⟨?_, ?_, ?_⟩
  · rw [isGap_toChar h.plain, h.noSpace, h.noBreak]
    rfl
  · rw [isBreak_toChar h.plain, h.noBreak]
  · rw [ne_eq, ← Char.toNat_inj, hscalar.toNat_toChar]
    exact hmark

theorem IsLetter.toChar_eq_iff {c : CodePoint} (h : IsLetter c) (ch : Char) :
    c.toChar = ch ↔ c.val = ch.toNat := by
  rw [← Char.toNat_inj, (isScalar_of_not_isSpecial h.plain).1.toNat_toChar]

theorem IsLetter.ofChar_toChar {c : CodePoint} (h : IsLetter c) : CodePoint.ofChar c.toChar = c :=
  (isScalar_of_not_isSpecial h.plain).1.ofChar_toChar

/-- A run of letters, the last of which is `b`; a colon at its end has to be followed by another
letter. -/
structure EndsIn (run : List Char) (b : CodePoint) : Prop where
  isInline : ∀ ch ∈ run, isGap ch = false ∧ IsInline ch
  last : run.getLast? = some b.toChar
  noHash : run.head? ≠ some '#'
  letter : IsLetter b

theorem EndsIn.isRun {run : List Char} {b : CodePoint} (h : EndsIn run b) (hcolon : b.val ≠ 0x3A) :
    IsRun run := by
  refine ⟨?_, h.isInline, ?_⟩
  · rintro rfl
    exact absurd h.last (by simp)
  · rw [h.last, ne_eq, Option.some.injEq, h.letter.toChar_eq_iff]
    exact hcolon

theorem EndsIn.single {c : CodePoint} (h : IsLetter c) (hhash : c.val ≠ 0x23) :
    EndsIn [c.toChar] c := by
  refine ⟨?_, rfl, ?_, h⟩
  · intro ch hch
    rw [List.mem_singleton.mp hch]
    exact h.toChar
  · rw [List.head?_cons, ne_eq, Option.some.injEq, h.toChar_eq_iff]
    exact hhash

theorem EndsIn.snoc {run : List Char} {b c : CodePoint} (h : EndsIn run b) (hc : IsLetter c) :
    EndsIn (run ++ [c.toChar]) c := by
  have hne : run ≠ [] := by
    rintro rfl
    exact absurd h.last (by simp)
  refine ⟨?_, by simp, ?_, hc⟩
  · intro ch hch
    rcases List.mem_append.mp hch with hch | hch
    · exact h.isInline ch hch
    · rw [List.mem_singleton.mp hch]
      exact hc.toChar
  · rw [List.head?_append_of_ne_nil _ hne]
    exact h.noHash

variable {inQuotes mayFold : Bool} {indent : Nat} {t : Text}

/-- No space of a run of spaces but the first is alone. -/
theorem wrapped_spaces {b : CodePoint} (hb : isSpace b = true) (n column : Nat) (t : Text) :
    Printer.wrapped inQuotes mayFold indent (some b) column (List.replicate n b ++ t) =
      List.replicate n ' ' ++ Printer.wrapped inQuotes mayFold indent (some b) (column + n) t := by
  induction n generalizing column with
  | zero => rfl
  | succ n ih =>
      rw [List.replicate_succ, List.cons_append, Printer.wrapped, if_pos hb]
      simp only [Option.any_some, hb, Bool.not_true, Bool.false_and, Bool.false_eq_true, if_false]
      rw [ih, Nat.add_assoc, Nat.add_comm 1 n]
      rfl

theorem wrapped_letter {c : CodePoint} (hc : IsLetter c) (before : Option CodePoint) (column : Nat)
    (t : Text) :
    Printer.wrapped false mayFold indent before column (c :: t) =
      c.toChar :: Printer.wrapped false mayFold indent (some c) (column + 1) t := by
  rw [Printer.wrapped, if_neg (by simp [hc.noSpace]), if_neg (by simp [hc.noBreak])]
  simp

theorem hasMark_tail {a : CodePoint} {t : Text} (h : hasMark (a :: t) = false) :
    hasMark t = false := by
  cases t with
  | nil => rfl
  | cons b t => exact (Bool.or_eq_false_iff.mp h).2

/-- Spaces within a text, up to the next letter. -/
theorem exists_spaces {c : CodePoint} {rest : Text} (hc : isSpace c = true)
    (hend : ∀ d ∈ (c :: rest).getLast?, isSpace d = false) :
    ∃ n d later, rest = List.replicate n c ++ d :: later ∧ isSpace d = false := by
  induction rest with
  | nil => exact absurd hc (by simp [hend c rfl])
  | cons d rest ih =>
      cases hd : isSpace d with
      | false => exact ⟨0, d, rest, rfl, hd⟩
      | true =>
          obtain rfl : d = c := (toChar_of_isSpace hd).2.symm.trans (toChar_of_isSpace hc).2
          obtain ⟨n, e, later, hrest, he⟩ := ih fun e he => hend e (by
            rw [List.getLast?_cons_cons]
            exact he)
          exact ⟨n + 1, e, later, by rw [hrest]; rfl, he⟩

/-- The rest of a text: no colon of it ends a key, no word starts with the mark of a comment, and no
space stands at its end. -/
structure FlowsOn (b : CodePoint) (t : Text) : Prop where
  plain : ∀ c ∈ t, isSpecial c = false ∧ Printer.isBreak c = false
  noMark : hasMark (b :: t) = false
  noColon : b.val = 0x3A → followedByGap t = false
  noSpace : ∀ c ∈ (b :: t).getLast?, isSpace c = false

theorem FlowsOn.tail {b c : CodePoint} {t : Text} (h : FlowsOn b (c :: t)) : FlowsOn c t := by
  refine ⟨fun d hd => h.plain d (List.mem_cons_of_mem _ hd), hasMark_tail h.noMark, ?_, ?_⟩
  · intro hcolon
    have := (Bool.or_eq_false_iff.mp (Bool.or_eq_false_iff.mp h.noMark).1).1
    simpa [hcolon] using this
  · intro d hd
    exact h.noSpace d (by rw [List.getLast?_cons_cons]; exact hd)

theorem FlowsOn.drop {b d : CodePoint} (s : Text) {t : Text} (h : FlowsOn b (s ++ d :: t)) :
    FlowsOn d t := by
  induction s generalizing b with
  | nil => exact h.tail
  | cons c s ih => exact ih h.tail

theorem FlowsOn.letter {b c : CodePoint} {t : Text} (h : FlowsOn b (c :: t))
    (hc : isSpace c = false) : IsLetter c :=
  ⟨(h.plain c (by simp)).1, (h.plain c (by simp)).2, hc⟩

/-- The word behind a space does not start with the mark of a comment. -/
theorem FlowsOn.noHash {b d : CodePoint} {t : Text} (h : FlowsOn b (d :: t))
    (hb : isSpace b = true) : d.val ≠ 0x23 := by
  have hmark := (Bool.or_eq_false_iff.mp (Bool.or_eq_false_iff.mp h.noMark).1).2
  simpa [Printer.isGap, hb] using hmark

/-- What is printed of the rest of a text is read as that rest. -/
theorem readsPlain_rest {least : Int} (hindent : 0 < indent) (hleast : least ≤ indent)
    {run : List Char} {b : CodePoint} (hrun : EndsIn run b) (hflows : FlowsOn b t) (column : Nat) :
    ReadsPlain least (run ++ Printer.wrapped false mayFold indent (some b) column t)
      (Text.ofChars run ++ t) := by
  induction hlength : t.length using Nat.strong_induction_on generalizing run b t column with
  | _ length ih =>
  cases t with
  | nil =>
      have hcolon : b.val ≠ 0x3A := fun h => absurd (hflows.noColon h) (by decide)
      rw [Printer.wrapped, List.append_nil, List.append_nil]
      exact .last (hrun.isRun hcolon) hrun.noHash
  | cons c rest =>
      cases hspace : isSpace c with
      | false =>
          have hletter := hflows.letter hspace
          have hread := ih rest.length (by rw [← hlength]; exact Nat.lt_succ_self _)
            (hrun.snoc hletter) hflows.tail (column + 1) rfl
          rw [wrapped_letter hletter]
          simpa [Text.ofChars, hletter.ofChar_toChar] using hread
      | true =>
          have hcolon : b.val ≠ 0x3A := by
            intro h
            have := hflows.noColon h
            simp [followedByGap, Printer.isGap, hspace] at this
          obtain ⟨n, d, later, rfl, hd⟩ := exists_spaces hspace hflows.tail.noSpace
          have hflowsLater : FlowsOn c (d :: later) := by
            cases n with
            | zero => exact hflows.tail
            | succ n =>
                have := hflows.tail
                rw [List.replicate_succ', List.append_assoc, List.singleton_append] at this
                exact this.drop _
          have hletter : IsLetter d := hflowsLater.letter hd
          have hlt : later.length < length := by
            rw [← hlength]
            simp
            omega
          have hread (column : Nat) : ReadsPlain least
              (d.toChar :: Printer.wrapped false mayFold indent (some d) column later)
              (d :: later) := by
            have := ih later.length hlt (EndsIn.single hletter (hflowsLater.noHash hspace))
              hflowsLater.tail column rfl
            simpa [Text.ofChars, hletter.ofChar_toChar] using this
          have hhead (w : List Char) : (d.toChar :: w).head? ≠ some '#' := by
            rw [List.head?_cons, ne_eq, Option.some.injEq, hletter.toChar_eq_iff]
            exact hflowsLater.noHash hspace
          have hgap (w : List Char) : ∀ ch ∈ (d.toChar :: w).head?, isGap ch = false :=
            fun ch hch => Option.some.inj hch ▸ hletter.toChar.1
          obtain ⟨-, rfl⟩ := toChar_of_isSpace hspace
          rw [Printer.wrapped, if_pos hspace]
          dsimp only
          split
          next hfold =>
            -- The space is alone.
            simp only [Bool.and_eq_true] at hfold
            obtain rfl : n = 0 := by
              cases n with
              | zero => rfl
              | succ n =>
                  have := hfold.1.1.2
                  simp [List.replicate_succ, hspace] at this
            rw [List.replicate_zero, List.nil_append, wrapped_letter hletter]
            exact .newLine (hrun.isRun hcolon) hrun.noHash hindent hleast (hhead _) (by simp) (hgap _)
              (hread _)
          next =>
            rw [wrapped_spaces hspace, wrapped_letter hletter]
            have := ReadsPlain.spaces (hrun.isRun hcolon) hrun.noHash n (hhead _) (by simp) (hgap _)
              (hread (column + 1 + n + 1))
            simpa [List.replicate_succ] using this

/-- What is known of a text that is printed without quotes. -/
theorem exists_of_fitsPlain (hkind : Kind.ofPlain t = .str) (hfits : fitsPlain t = true) :
    ∃ c rest, t = c :: rest ∧ IsLetter c ∧ c.val ≠ 0x23 ∧ FlowsOn c rest := by
  simp only [fitsPlain, Bool.and_eq_true, Bool.not_eq_true'] at hfits
  obtain ⟨⟨⟨⟨hquotes, hedge⟩, hbreak⟩, hstart⟩, hmark⟩ := hfits
  cases t with
  | nil => exact absurd hkind (by decide)
  | cons c rest =>
      have hplain : ∀ d ∈ c :: rest, isSpecial d = false := by
        simp only [Printer.fitsSingleQuotes, Bool.and_eq_true, Bool.not_eq_true',
          List.any_eq_false] at hquotes
        exact fun d hd => Bool.not_eq_true _ ▸ hquotes.1.1 d hd
      have hbreaks : ∀ d ∈ c :: rest, Printer.isBreak d = false := by
        rw [List.any_eq_false] at hbreak
        exact fun d hd => Bool.not_eq_true _ ▸ hbreak d hd
      simp only [Printer.hasLooseEdge, Bool.or_eq_false_iff, List.head?_cons, Option.any_some] at hedge
      obtain ⟨⟨hspace, -⟩, hlast⟩ := hedge
      simp only [Printer.startsOtherwise, Bool.or_eq_false_iff] at hstart
      obtain ⟨⟨hindicator, hcolon⟩, -⟩ := hstart
      refine ⟨c, rest, rfl, ⟨hplain c (by simp), hbreaks c (by simp), hspace⟩, ?_,
        fun d hd => ⟨hplain d (List.mem_cons_of_mem _ hd), hbreaks d (List.mem_cons_of_mem _ hd)⟩,
        hmark, ?_, ?_⟩
      · intro hhash
        obtain rfl : CodePoint.ofChar '#' = c := CodePoint.ext hhash.symm
        exact absurd hindicator (by decide)
      · intro hval
        simpa [hval] using hcolon
      · intro d hd
        rw [hd] at hlast
        exact (Bool.or_eq_false_iff.mp hlast).1

/-- **What is printed without quotes is read as the text.** -/
theorem readsPlain_wrapped {least : Int} (hindent : 0 < indent) (hleast : least ≤ indent)
    (hkind : Kind.ofPlain t = .str) (hfits : fitsPlain t = true) (column : Nat) :
    ReadsPlain least (Printer.wrapped false mayFold indent none column t) t := by
  obtain ⟨c, rest, rfl, hletter, hhash, hflows⟩ := exists_of_fitsPlain hkind hfits
  have hread : ReadsPlain least
      ([c.toChar] ++ Printer.wrapped false mayFold indent (some c) (column + 1) rest) _ :=
    readsPlain_rest hindent hleast (EndsIn.single hletter hhash) hflows (column + 1)
  rw [wrapped_letter hletter]
  simpa [Text.ofChars, hletter.ofChar_toChar] using hread

end Printed

end LanguageClient.Yaml.Scalar
