import LanguageClient.Protocol.HoverText
import Mathlib.Data.List.Forall2

/-!
# The lines of a hover

What is shown of a hover has all of its text: joined again, the lines of a fragment are the fragment
with its line breaks written as line feeds, and of several fragments only an empty line between two
of them is added (`ofHover_keeps_text`).

## Strategy

`unixBreaks` says what becomes of the line breaks without any cutting: first the pairs of carriage
return and line feed, then the carriage returns that are left.  The lines are then the pieces of
this text between its line feeds (`lines_eq_splitOn`), so what is known of pieces gives the rest:

* joined by line feeds they are the text;
* none of them has a line feed, and as the text has no carriage return, neither have they.

The cutter remembers that the last break was a carriage return.  This memory is spent on the next
code point, so the induction (`cutsPieces`) goes over a text and the same text after a carriage
return.
-/

namespace LanguageClient.HoverText

def lineFeed : CodePoint := '\n'

def carriageReturn : CodePoint := '\r'

/-- A line feed in the place of each carriage return that one follows. -/
def unixPairs : Text → Text
  | c :: d :: rest =>
    if c = carriageReturn ∧ d = lineFeed then lineFeed :: unixPairs rest
    else c :: unixPairs (d :: rest)
  | short => short

theorem unixPairs_nil : unixPairs [] = [] := rfl

theorem unixPairs_singleton (c : CodePoint) : unixPairs [c] = [c] := rfl

theorem unixPairs_cons_cons (c d : CodePoint) (rest : Text) :
    unixPairs (c :: d :: rest) =
      if c = carriageReturn ∧ d = lineFeed then lineFeed :: unixPairs rest
      else c :: unixPairs (d :: rest) := rfl

/-- The text with all its line breaks written as line feeds. -/
def unixBreaks (t : Text) : Text :=
  (unixPairs t).map fun c => if c = carriageReturn then lineFeed else c

/-! ## Line breaks -/

theorem val_eq_lineFeed {c : CodePoint} : c.val = 0x0A ↔ c = lineFeed :=
  ⟨fun h => by cases c; cases h; rfl, fun h => by rw [h]; rfl⟩

theorem val_eq_carriageReturn {c : CodePoint} : c.val = 0x0D ↔ c = carriageReturn :=
  ⟨fun h => by cases c; cases h; rfl, fun h => by rw [h]; rfl⟩

theorem lineFeed_ne_carriageReturn : lineFeed ≠ carriageReturn := by decide

theorem carriageReturn_not_mem_unixBreaks (t : Text) : carriageReturn ∉ unixBreaks t := by
  intro hmem
  obtain ⟨c, -, hc⟩ := List.mem_map.mp hmem
  split at hc
  · exact lineFeed_ne_carriageReturn hc
  · contradiction

theorem unixBreaks_pair (rest : Text) :
    unixBreaks (carriageReturn :: lineFeed :: rest) = lineFeed :: unixBreaks rest := by
  simp [unixBreaks, unixPairs_cons_cons, lineFeed_ne_carriageReturn]

/-- A carriage return that no line feed follows is a line break of its own. -/
theorem unixBreaks_return {rest : Text} (h : rest.head? ≠ some lineFeed) :
    unixBreaks (carriageReturn :: rest) = lineFeed :: unixBreaks rest := by
  cases rest with
  | nil => rfl
  | cons d rest =>
      have hd : d ≠ lineFeed := by simpa using h
      simp [unixBreaks, unixPairs_cons_cons, hd]

theorem unixBreaks_cons {c : CodePoint} (hc : c ≠ carriageReturn) (rest : Text) :
    unixBreaks (c :: rest) = c :: unixBreaks rest := by
  cases rest with
  | nil => simp [unixBreaks, unixPairs_nil, unixPairs_singleton, hc]
  | cons d rest => simp [unixBreaks, unixPairs_cons_cons, hc]

/-! ## Pieces -/

/-- A piece does not have the element that was cut at. -/
theorem not_mem_of_mem_splitOn {mark : CodePoint} {t piece : Text}
    (h : piece ∈ t.splitOn mark) : mark ∉ piece := by
  induction t generalizing piece with
  | nil =>
      obtain rfl : piece = [] := by simpa using h
      exact List.not_mem_nil
  | cons c rest ih =>
      rw [List.splitOn_cons_eq_if_modifyHead] at h
      split at h
      · rcases List.mem_cons.mp h with rfl | h
        · exact List.not_mem_nil
        · exact ih h
      · rename_i hc
        obtain ⟨first, more, hpieces⟩ := List.exists_cons_of_ne_nil (rest.splitOn_ne_nil mark)
        rw [hpieces, List.modifyHead_cons] at h
        rcases List.mem_cons.mp h with rfl | h
        · have hfirst : mark ∉ first := ih (hpieces ▸ List.mem_cons_self)
          have hne : mark ≠ c := fun heq => hc (by simp [heq])
          exact List.not_mem_cons_of_ne_of_not_mem hne hfirst
        · exact ih (hpieces ▸ List.mem_cons_of_mem _ h)

theorem intercalate_append {α : Type} (mark : List α) {front back : List (List α)}
    (hfront : front ≠ []) (hback : back ≠ []) :
    mark.intercalate (front ++ back) =
      mark.intercalate front ++ (mark ++ mark.intercalate back) := by
  induction front with
  | nil => contradiction
  | cons piece front ih =>
      cases front with
      | nil =>
          rw [List.singleton_append, List.intercalate_cons_of_ne_nil hback,
            List.intercalate_singleton, List.append_assoc]
      | cons next front =>
          rw [List.cons_append, List.intercalate_cons_of_ne_nil (by simp),
            ih (List.cons_ne_nil _ _), List.intercalate_cons_cons]
          simp

/-- What is in a piece is in the joined text. -/
theorem subset_intercalate {mark piece : Text} {pieces : List Text} (h : piece ∈ pieces) :
    piece ⊆ mark.intercalate pieces := by
  induction pieces with
  | nil => cases h
  | cons first rest ih =>
      cases rest with
      | nil =>
          obtain rfl := List.mem_singleton.mp h
          rw [List.intercalate_singleton]
          exact List.Subset.refl _
      | cons next rest =>
          rw [List.intercalate_cons_cons]
          rcases List.mem_cons.mp h with rfl | h
          · simp
          · exact List.Subset.trans (ih h) (by simp)

/-! ## Lines -/

theorem linesFrom_nil (current : Text) (done : List Text) (afterReturn : Bool) :
    linesFrom current done afterReturn [] = (current.reverse :: done).reverse := rfl

theorem linesFrom_step (current : Text) (done : List Text) (afterReturn : Bool) (c : CodePoint)
    (rest : Text) :
    linesFrom current done afterReturn (c :: rest) =
      if c.val = 0x0A && afterReturn then linesFrom current done false rest
      else if c.val = 0x0A || c.val = 0x0D then
        linesFrom [] (current.reverse :: done) (c.val = 0x0D) rest
      else linesFrom (c :: current) done false rest := rfl

theorem linesFrom_lineFeed (current : Text) (done : List Text) (rest : Text) :
    linesFrom current done false (lineFeed :: rest) =
      linesFrom [] (current.reverse :: done) false rest := by
  simp [linesFrom_step, lineFeed, CodePoint.ofChar]

/-- A line feed after a carriage return ends no other line. -/
theorem linesFrom_pair (current : Text) (done : List Text) (rest : Text) :
    linesFrom current done false (carriageReturn :: lineFeed :: rest) =
      linesFrom [] (current.reverse :: done) false rest := by
  simp [linesFrom_step, carriageReturn, lineFeed, CodePoint.ofChar]

theorem linesFrom_return {rest : Text} (h : rest.head? ≠ some lineFeed) (current : Text)
    (done : List Text) :
    linesFrom current done false (carriageReturn :: rest) =
      linesFrom [] (current.reverse :: done) false rest := by
  have hstep : linesFrom current done false (carriageReturn :: rest) =
      linesFrom [] (current.reverse :: done) true rest := by
    simp [linesFrom_step, carriageReturn, CodePoint.ofChar]
  rw [hstep]
  cases rest with
  | nil => rfl
  | cons d rest =>
      have hd : ¬ d.val = 0x0A := by
        rw [val_eq_lineFeed]
        simpa using h
      simp [linesFrom_step, hd]

theorem linesFrom_cons {c : CodePoint} (hfeed : c ≠ lineFeed) (hreturn : c ≠ carriageReturn)
    (current : Text) (done : List Text) (rest : Text) :
    linesFrom current done false (c :: rest) = linesFrom (c :: current) done false rest := by
  simp [linesFrom_step, val_eq_lineFeed, val_eq_carriageReturn, hfeed, hreturn]

/-- With any line begun, cutting finds the pieces between line feeds. -/
def CutsPieces (t : Text) : Prop :=
  ∀ current done, linesFrom current done false t =
    done.reverse ++ ((unixBreaks t).splitOn lineFeed).modifyHead (current.reverse ++ ·)

/-- A line break ends the line that was begun. -/
theorem CutsPieces.of_break {t rest : Text}
    (hcut : ∀ current done, linesFrom current done false t =
      linesFrom [] (current.reverse :: done) false rest)
    (hbreaks : unixBreaks t = lineFeed :: unixBreaks rest) (h : CutsPieces rest) :
    CutsPieces t := by
  intro current done
  obtain ⟨first, more, hpieces⟩ :=
    List.exists_cons_of_ne_nil ((unixBreaks rest).splitOn_ne_nil lineFeed)
  rw [hcut, h, hbreaks, List.splitOn_cons_eq_if_modifyHead, if_pos (beq_self_eq_true lineFeed),
    hpieces]
  simp

theorem CutsPieces.of_other {c : CodePoint} {rest : Text} (hfeed : c ≠ lineFeed)
    (hreturn : c ≠ carriageReturn) (h : CutsPieces rest) : CutsPieces (c :: rest) := by
  intro current done
  obtain ⟨first, more, hpieces⟩ :=
    List.exists_cons_of_ne_nil ((unixBreaks rest).splitOn_ne_nil lineFeed)
  rw [linesFrom_cons hfeed hreturn, h, unixBreaks_cons hreturn,
    List.splitOn_cons_eq_if_modifyHead, if_neg (by simpa using hfeed), hpieces]
  simp

/-- What the cutter remembers of a carriage return is spent on the next code point, so a text is
treated together with the text that a carriage return precedes. -/
theorem cutsPieces (t : Text) : CutsPieces t ∧ CutsPieces (carriageReturn :: t) := by
  induction t with
  | nil =>
      have hnil : CutsPieces [] := fun current done => by simp [linesFrom_nil, unixBreaks, unixPairs_nil]
      exact ⟨hnil, .of_break (linesFrom_return nofun) (unixBreaks_return nofun) hnil⟩
  | cons c rest ih =>
      obtain ⟨hrest, hreturned⟩ := ih
      by_cases hfeed : c = lineFeed
      · subst hfeed
        exact ⟨.of_break (fun current done => linesFrom_lineFeed current done rest)
            (unixBreaks_cons lineFeed_ne_carriageReturn rest) hrest,
          .of_break (fun current done => linesFrom_pair current done rest)
            (unixBreaks_pair rest) hrest⟩
      · have hcons : CutsPieces (c :: rest) := by
          by_cases hreturn : c = carriageReturn
          · exact hreturn ▸ hreturned
          · exact .of_other hfeed hreturn hrest
        have hhead : (c :: rest).head? ≠ some lineFeed := by simpa using hfeed
        exact ⟨hcons, .of_break (linesFrom_return hhead) (unixBreaks_return hhead) hcons⟩

/-- **The lines of a text are its pieces between line breaks**, all of them written as line
feeds. -/
theorem lines_eq_splitOn (t : Text) : lines t = (unixBreaks t).splitOn lineFeed := by
  rw [lines, (cutsPieces t).1]
  cases (unixBreaks t).splitOn lineFeed <;> rfl

example : lines (Text.ofString "a\r\n\rb\n") =
    [Text.ofString "a", [], Text.ofString "b", []] := by
  decide

/-- No line break is left in the line. -/
def IsUnbroken (line : Text) : Prop := lineFeed ∉ line ∧ carriageReturn ∉ line

/-- The lines have the whole of a text, and nothing else. -/
structure AreLinesOf (t : Text) (block : List Text) : Prop where
  ne_nil : block ≠ []
  unbroken : ∀ line ∈ block, IsUnbroken line
  join_eq : [lineFeed].intercalate block = unixBreaks t

theorem areLinesOf_lines (t : Text) : AreLinesOf t (lines t) := by
  have hjoin : [lineFeed].intercalate (lines t) = unixBreaks t := by
    rw [lines_eq_splitOn, List.intercalate_splitOn]
  refine ⟨?_, fun line hline => ⟨?_, fun hmem => ?_⟩, hjoin⟩
  · rw [lines_eq_splitOn]
    exact List.splitOn_ne_nil _ _
  · rw [lines_eq_splitOn] at hline
    exact not_mem_of_mem_splitOn hline
  · exact carriageReturn_not_mem_unixBreaks t (hjoin ▸ subset_intercalate hline hmem)

/-! ## Paragraphs -/

/-- The paragraphs are the blocks of lines, one empty line between two of them. -/
theorem paragraphs_eq : (ts : List Text) → paragraphs ts = [[]].intercalate (ts.map lines)
  | [] => rfl
  | [t] => by simp [paragraphs]
  | t :: next :: rest => by
      rw [paragraphs, paragraphs_eq (next :: rest)]
      simp only [List.map_cons, List.intercalate_cons_cons, List.append_assoc,
        List.singleton_append]

/-- An empty line between two blocks is a second line break. -/
theorem intercalate_blocks {blocks : List (List Text)} (h : ∀ block ∈ blocks, block ≠ []) :
    [lineFeed].intercalate ([[]].intercalate blocks) =
      [lineFeed, lineFeed].intercalate (blocks.map [lineFeed].intercalate) := by
  induction blocks with
  | nil => rfl
  | cons block rest ih =>
      obtain ⟨hblock, hrest⟩ := List.forall_mem_cons.mp h
      cases rest with
      | nil => simp
      | cons next rest =>
          have hne : [[]].intercalate (next :: rest) ≠ [] := by
            obtain ⟨line, more, hnext⟩ := List.exists_cons_of_ne_nil (hrest next List.mem_cons_self)
            cases rest <;> simp [hnext, List.intercalate_cons_cons]
          rw [List.intercalate_cons_cons, List.append_assoc, intercalate_append _ hblock (by simp),
            List.singleton_append (l := [[]].intercalate (next :: rest)),
            List.intercalate_cons_of_ne_nil hne, ih hrest]
          simp [List.intercalate_cons_cons]

theorem isUnbroken_of_mem_paragraphs {ts : List Text} {line : Text} (h : line ∈ paragraphs ts) :
    IsUnbroken line := by
  induction ts with
  | nil => cases h
  | cons t rest ih =>
      cases rest with
      | nil => exact (areLinesOf_lines t).unbroken line h
      | cons next rest =>
          rcases List.mem_append.mp h with h | h
          · exact (areLinesOf_lines t).unbroken line h
          · rcases List.mem_cons.mp h with rfl | h
            · exact ⟨List.not_mem_nil, List.not_mem_nil⟩
            · exact ih h

/-! ## Hovers -/

/-- A stretch of a buffer is a range, field by field. -/
structure IsBufferRange (r : Range) (b : BufferRange) : Prop where
  firstLine : b.first.line = r.start.line
  firstColumn : b.first.column = r.start.character
  lastLine : b.last.line = r.stop.line
  lastColumn : b.last.column = r.stop.character

/-- How the contents of a hover become a title and lines. -/
inductive Shows : Contents → Text → List Text → Prop where
  /-- A single fragment has no title. -/
  | one {f : Fragment} {description : List Text} (h : AreLinesOf (fragmentText f) description) :
      Shows (.one f) [] description
  /-- Neither has a list with one fragment. -/
  | single {f : Fragment} {description : List Text} (h : AreLinesOf (fragmentText f) description) :
      Shows (.many [f]) [] description
  | nothing : Shows (.many []) [] []
  /-- Of more fragments the first is the title.  The others are blocks of lines, with an empty line
  between two of them. -/
  | several {first next : Fragment} {rest : List Fragment} {blocks : List (List Text)}
      (hblocks : List.Forall₂ (fun f => AreLinesOf (fragmentText f)) (next :: rest) blocks)
      (hjoin : [lineFeed].intercalate ([[]].intercalate blocks) =
        [lineFeed, lineFeed].intercalate
          ((next :: rest).map fun f => unixBreaks (fragmentText f))) :
      Shows (.many (first :: next :: rest)) (fragmentText first) ([[]].intercalate blocks)

theorem shows_several (first next : Fragment) (rest : List Fragment) :
    Shows (.many (first :: next :: rest)) (fragmentText first)
      (paragraphs ((next :: rest).map fragmentText)) := by
  have hlines : ∀ f, AreLinesOf (fragmentText f) (lines (fragmentText f)) :=
    fun f => areLinesOf_lines (fragmentText f)
  have hne : ∀ block ∈ (next :: rest).map (lines ∘ fragmentText), block ≠ [] :=
    List.forall_mem_map.mpr fun f _ => (hlines f).ne_nil
  rw [paragraphs_eq, List.map_map]
  refine .several ?_ ?_
  · rw [List.forall₂_map_right_iff]
    exact List.forall₂_same.mpr fun f _ => hlines f
  · rw [intercalate_blocks hne, List.map_map]
    congr 1
    exact List.map_congr_left fun f _ => (hlines f).join_eq

/-- **What is shown of a hover has all of its text.** -/
theorem ofHover_keeps_text (h : Hover) :
    Shows h.contents (ofHover h).title (ofHover h).description ∧
      (∀ line ∈ (ofHover h).description, IsUnbroken line) ∧
      Option.Rel IsBufferRange h.range (ofHover h).range := by
  obtain ⟨contents, range⟩ := h
  have hrange : Option.Rel IsBufferRange range
      (range.map fun r => (⟨r.start.toBuffer, r.stop.toBuffer⟩ : BufferRange)) := by
    cases range with
    | none => exact .none
    | some r => exact .some ⟨rfl, rfl, rfl, rfl⟩
  match contents with
  | .one f =>
      have hlines := areLinesOf_lines (fragmentText f)
      exact ⟨.one hlines, hlines.unbroken, hrange⟩
  | .many [] => exact ⟨.nothing, nofun, hrange⟩
  | .many [f] =>
      have hlines := areLinesOf_lines (fragmentText f)
      exact ⟨.single hlines, hlines.unbroken, hrange⟩
  | .many (first :: next :: rest) =>
      refine ⟨?_, fun line hline => isUnbroken_of_mem_paragraphs hline, hrange⟩
      exact shows_several first next rest

end LanguageClient.HoverText
