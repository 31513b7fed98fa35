import LanguageClient.Proofs.Yaml.Texts

/-!
# Values and blocks

The scanner takes a printed value up to the start of the line behind it, and it does not matter there
how many collections end with the value (`TakesValue`).  The entries of a collection are a block of
lines at one column (`TakesBlock`): blocks are joined line by line (`TakesBlock.append`), and a block
is a value behind its mark, either further in than the collection around it, with tokens that open and
close it (`takesValue_deeper`), or at the very column of that collection (`takesValue_flush`).
-/

namespace LanguageClient.Yaml.Scanner

open Cursor Scalar

variable {c : Cursor} {next : List Char}

/-! ## Up to the next token -/

theorem areLeft_nil : AreLeft [] c := by
  intro k hk
  cases hk

/-- Spaces before a token. -/
theorem comes_spaces (ts : List Token) (outer : List Int) (mayStartKey : Bool) {indent : Int}
    {n : Nat} (hrest : c.rest = List.replicate n ' ' ++ next)
    (hnext : StartsToken next) (hindent : indent ≤ c.column) :
    (c.advance n).rest = next ∧ (c.advance n).column = c.column + n ∧
      Comes (state c ts indent outer mayStartKey []) (state (c.advance n) ts indent outer mayStartKey []) := by
  have hinline : ∀ ch ∈ List.replicate n ' ', IsInline ch := by
    intro ch hch
    rw [List.eq_of_mem_replicate hch]
    exact isInline_space
  have hplace := advance_inline hrest hinline
  rw [List.length_replicate] at hplace
  have hcolumn : (c.advance n).column = c.column + n := by rw [hplace]
  refine ⟨by rw [hplace], hcolumn, .of_settle ((settle_spaces hrest hnext areLeft_nil).trans ?_)⟩
  rw [unwind_of_le (by omega)]

/-- The end of a line, and the indentation of the next one. -/
theorem comes_newLine (ts : List Token) (outer : List Int) (mayStartKey : Bool) {indent : Int}
    {n : Nat} (hrest : c.rest = Printer.newLine n ++ next)
    (hnext : StartsToken next) (hindent : indent ≤ n) :
    (c.advance (n + 1)).rest = next ∧ (c.advance (n + 1)).column = n ∧
      Comes (state c ts indent outer mayStartKey []) (state (c.advance (n + 1)) ts indent outer true []) := by
  have hplace := advance_newLine hrest
  refine ⟨by rw [hplace], by rw [hplace], .of_settle ((settle_line hrest hnext (by simp)).trans ?_)⟩
  rw [unwind_of_le hindent]

/-! ## Values -/

/-- Behind a mark, the characters are taken as a value up to the start of the next line.  `isOpen`
tells whether a key may start behind the mark. -/
def TakesValue (indent column : Nat) (isOpen : Bool) (w : List Char) (tokens : List Token) : Prop :=
  ∀ (c : Cursor) (ts : List Token) (outer : List Int) (k : Nat) (next : List Char),
    c.rest = w ++ (Printer.newLine k ++ next) → StartsToken next → k ≤ indent → c.column = column →
    ∃ c', c'.rest = next ∧ c'.column = k ∧
      Comes (state c ts indent outer isOpen [])
        ((state c' (tokens.reverse ++ ts) indent outer true []).unwind k)

/-- A value that begins on the line of its mark. -/
theorem takesValue_line {indent column : Nat} {isOpen : Bool} {w : List Char} {tokens : List Token}
    (h : TakesLine indent w tokens) (hstarts : ∀ more, StartsToken (w ++ more))
    (hcolumn : indent < column) : TakesValue indent column isOpen (' ' :: w) tokens := by
  intro c ts outer k next hrest hnext hk hplace
  obtain ⟨hrest', hcolumn', hcomes⟩ := comes_spaces (n := 1) ts outer isOpen hrest (hstarts _)
    (show (indent : Int) ≤ c.column by omega)
  obtain ⟨c', hend, hk', hgoes⟩ := h (c.advance 1) ts outer isOpen k next hrest' hnext hk (by omega)
  exact ⟨c', hend, hk', hcomes.trans hgoes⟩

/-! ## Blocks -/

/-- The characters are lines of a collection at a column, of which the first one has been reached; the
collection is opened here if the column is a new one. -/
def TakesBlock (start : Token) (indent : Nat) (w : List Char) (tokens : List Token) : Prop :=
  ∀ (c : Cursor) (ts : List Token) (around : Int) (outer : List Int) (k : Nat) (next : List Char),
    c.rest = w ++ (Printer.newLine k ++ next) → StartsToken next → k ≤ indent → c.column = indent →
    around ≤ indent →
    ∃ c', c'.rest = next ∧ c'.column = k ∧
      Goes (state c ts around outer true [])
        ((state c' (tokens.reverse ++ (opened start indent around ts outer).1) indent
          (opened start indent around ts outer).2 true []).unwind k)

/-- Blocks of one collection that follow each other. -/
theorem TakesBlock.append {start : Token} {indent : Nat} {w w' : List Char} {tokens tokens' : List Token}
    (h : TakesBlock start indent w tokens) (h' : TakesBlock start indent w' tokens')
    (hstarts : ∀ more, StartsToken (w' ++ more)) :
    TakesBlock start indent (w ++ (Printer.newLine indent ++ w')) (tokens ++ tokens') := by
  intro c ts around outer k next hrest hnext hk hcolumn haround
  have hrest : c.rest = w ++ (Printer.newLine indent ++ (w' ++ (Printer.newLine k ++ next))) := by
    rw [hrest]
    simp
  obtain ⟨c', hrest', hcolumn', hgoes⟩ :=
    h c ts around outer indent _ hrest (hstarts _) (Nat.le_refl _) hcolumn haround
  rw [unwind_of_le (Int.le_refl _)] at hgoes
  obtain ⟨c'', hend, hk', hgoes'⟩ :=
    h' c' _ indent _ k next hrest' hnext hk hcolumn' (Int.le_refl _)
  rw [opened_self] at hgoes'
  refine ⟨c'', hend, hk', hgoes.trans ?_⟩
  simpa using hgoes'

/-! ### Entries -/

/-- The first characters of a value are a gap, so that a mark may stand before it. -/
def StartsGap (w : List Char) : Prop := ∀ more, endOr isGap (w ++ more).head? = true

/-- An item behind its dash. -/
theorem takesBlock_item {indent : Nat} {w : List Char} {tokens : List Token}
    (h : TakesValue indent (indent + 1) true w tokens) (hgap : StartsGap w) :
    TakesBlock .blockSequenceStart indent ('-' :: w) (.blockEntry :: tokens) := by
  intro c ts around outer k next hrest hnext hk hcolumn haround
  have hstep := step_inline hrest (by decide : IsInline '-')
  have hplace : c.step.column = indent + 1 := by rw [hstep]; exact congrArg _ hcolumn
  have hrest' : c.step.rest = w ++ (Printer.newLine k ++ next) := by rw [hstep]; rfl
  obtain ⟨c', hend, hk', hcomes⟩ := h c.step _ _ k next hrest' hnext hk hplace
  refine ⟨c', hend, hk', .of_dispatch (dispatch_dash hrest (hgap _) (hcolumn ▸ haround)) (by simp [GoesOn])
    ?_ ?_⟩
  · rw [cursor_state, hrest', cursor_state, hrest]
    simp
  · rw [hcolumn]
    simpa using hcomes

/-- A value behind a key on the same line. -/
theorem takesBlock_key {indent : Nat} {w w' : List Char} {t : Token} {tokens : List Token}
    (hkey : TakesKey w t) (hinline : ∀ ch ∈ w, IsInline ch)
    (h : TakesValue indent (indent + w.length + 1) false w' tokens) (hgap : StartsGap w') :
    TakesBlock .blockMappingStart indent (w ++ ':' :: w') (.key :: t :: .value :: tokens) := by
  intro c ts around outer k next hrest hnext hk hcolumn haround
  have hrest : c.rest = w ++ ':' :: (w' ++ (Printer.newLine k ++ next)) := by
    rw [hrest]
    simp
  have hcolon : c.rest = (w ++ [':']) ++ (w' ++ (Printer.newLine k ++ next)) := by
    rw [hrest]
    simp
  have hplace := advance_inline hcolon (by
    intro ch hch
    rcases List.mem_append.mp hch with hch | hch
    · exact hinline ch hch
    · rw [List.mem_singleton.mp hch]
      decide)
  rw [List.length_append, List.length_singleton] at hplace
  have hrest' : (c.advance (w.length + 1)).rest = w' ++ (Printer.newLine k ++ next) := by rw [hplace]
  have hcolumn' : (c.advance (w.length + 1)).column = indent + w.length + 1 := by
    rw [hplace]
    dsimp only
    omega
  obtain ⟨c', hend, hk', hcomes⟩ := h _ _ _ k next hrest' hnext hk hcolumn'
  refine ⟨c', hend, hk', hkey c ts around outer _ _ hrest (hgap _) (by omega) ?_⟩
  rw [hcolumn]
  simpa using hcomes

/-- A key behind a question mark, and its value behind the colon of the next line. -/
theorem takesBlock_question {indent : Nat} {w w' : List Char} {t : Token} {tokens : List Token}
    (hkey : TakesLine indent w [t]) (hstarts : ∀ more, StartsToken (w ++ more))
    (h : TakesValue indent (indent + 1) true w' tokens) (hgap : StartsGap w') :
    TakesBlock .blockMappingStart indent ('?' :: ' ' :: w ++ (Printer.newLine indent ++ ':' :: w'))
      (.key :: t :: .value :: tokens) := by
  intro c ts around outer k next hrest hnext hk hcolumn haround
  have hrest : c.rest = '?' :: ' ' :: (w ++ (Printer.newLine indent ++
      (':' :: (w' ++ (Printer.newLine k ++ next))))) := by
    rw [hrest]
    simp
  have hstep := step_inline hrest (by decide : IsInline '?')
  have hplace : c.step.column = indent + 1 := by rw [hstep]; exact congrArg _ hcolumn
  have hrest₁ : c.step.rest = ' ' :: (w ++ (Printer.newLine indent ++
      (':' :: (w' ++ (Printer.newLine k ++ next))))) := by rw [hstep]
  have hquestion : (state c ts around outer true []).dispatch = .ok (state c.step _ _ _ true []) :=
    dispatch_question hrest rfl (hcolumn ▸ haround)
  rw [hcolumn] at hquestion
  generalize opened .blockMappingStart indent around ts outer = started at hquestion ⊢
  obtain ⟨before, outer⟩ := started
  -- The key behind the question mark.
  obtain ⟨hrest₂, hcolumn₂, hcomes⟩ := comes_spaces (n := 1) (.key :: before) outer true hrest₁
    (hstarts _) (show (indent : Int) ≤ c.step.column by omega)
  obtain ⟨c₃, hrest₃, hcolumn₃, hgoes⟩ := hkey (c.step.advance 1) (.key :: before) outer true indent _
    hrest₂ (fun ch hch => Option.some.inj hch ▸ by decide) (Nat.le_refl _) (by omega)
  rw [unwind_of_le (Int.le_refl _)] at hgoes
  -- The value behind the colon.
  have hstep₃ := step_inline hrest₃ (by decide : IsInline ':')
  have hplace₃ : c₃.step.column = indent + 1 := by rw [hstep₃]; exact congrArg _ hcolumn₃
  have hrest₄ : c₃.step.rest = w' ++ (Printer.newLine k ++ next) := by rw [hstep₃]
  have hcolon : (state c₃ ([t].reverse ++ .key :: before) c₃.column outer true []).dispatch =
      .ok (state c₃.step _ _ outer true []) := dispatch_colon hrest₃ (hgap _)
  rw [hcolumn₃] at hcolon
  obtain ⟨c', hend, hk', hcomes'⟩ := h c₃.step _ outer k next hrest₄ hnext hk hplace₃
  refine ⟨c', hend, hk', .of_dispatch hquestion (by simp [GoesOn]) ?_ ((hcomes.trans hgoes).trans
    (.of_dispatch hcolon (by simp [GoesOn]) ?_ ?_))⟩
  · rw [cursor_state, hrest₁, cursor_state, hrest]
    simp
  · rw [cursor_state, hrest₄, cursor_state, hrest₃]
    simp
  · simpa using hcomes'

/-! ### Blocks as values -/

/-- A block further in than the collection around it is a collection of its own. -/
theorem takesValue_deeper {start : Token} {indent inner column : Nat} {isOpen : Bool} {w : List Char}
    {tokens : List Token} (h : TakesBlock start inner w tokens) (hstarts : ∀ more, StartsToken (w ++ more))
    (hinner : indent < inner) (hopen : isOpen = true → indent < column ∧ column ≤ inner) :
    TakesValue indent column isOpen (Printer.lead isOpen inner column ++ w)
      (start :: tokens ++ [.blockEnd]) := by
  intro c ts outer k next hrest hnext hk hplace
  have hrest : c.rest = Printer.lead isOpen inner column ++ (w ++ (Printer.newLine k ++ next)) := by
    rw [hrest, List.append_assoc]
  -- The first line of the block, on the line of the mark or on the next one.
  obtain ⟨c₁, hrest₁, hcolumn₁, hcomes⟩ : ∃ c₁, c₁.rest = w ++ (Printer.newLine k ++ next) ∧
      c₁.column = inner ∧
      Comes (state c ts indent outer isOpen []) (state c₁ ts indent outer true []) := by
    cases isOpen with
    | true =>
        obtain ⟨hcolumn, hle⟩ := hopen rfl
        obtain ⟨hrest₁, hcolumn₁, hcomes⟩ := comes_spaces ts outer true hrest (hstarts _)
          (show (indent : Int) ≤ c.column by omega)
        exact ⟨_, hrest₁, by omega, hcomes⟩
    | false =>
        obtain ⟨hrest₁, hcolumn₁, hcomes⟩ := comes_newLine ts outer false hrest (hstarts _)
          (show (indent : Int) ≤ inner by omega)
        exact ⟨_, hrest₁, hcolumn₁, hcomes⟩
  obtain ⟨c', hend, hk', hgoes⟩ := h c₁ ts indent outer k next hrest₁ hnext (by omega) hcolumn₁ (by omega)
  rw [opened_of_lt (by omega), unwind_deeper (by omega)] at hgoes
  refine ⟨c', hend, hk', hcomes.trans ?_⟩
  simpa using hgoes

/-- A block at the column of the collection around it opens nothing. -/
theorem takesValue_flush {start : Token} {indent column : Nat} {w : List Char} {tokens : List Token}
    (h : TakesBlock start indent w tokens) (hstarts : ∀ more, StartsToken (w ++ more)) :
    TakesValue indent column false (Printer.newLine indent ++ w) tokens := by
  intro c ts outer k next hrest hnext hk hplace
  rw [List.append_assoc] at hrest
  obtain ⟨hrest₁, hcolumn₁, hcomes⟩ := comes_newLine ts outer false hrest (hstarts _)
    (Int.le_refl (indent : Int))
  obtain ⟨c', hend, hk', hgoes⟩ := h _ ts indent outer k next hrest₁ hnext hk hcolumn₁ (Int.le_refl _)
  rw [opened_self] at hgoes
  exact ⟨c', hend, hk', hcomes.trans hgoes⟩

end LanguageClient.Yaml.Scanner
