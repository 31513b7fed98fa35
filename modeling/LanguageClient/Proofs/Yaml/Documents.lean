import LanguageClient.Proofs.Yaml.Tokens

/-!
# Files of documents

A file to which documents are appended is scanned document by document.  A document starts with a line
of dashes; that line, or the end of the file, closes what the document before it has left open, and so
the scanner comes to every document in the same state, but for one collection that it has yet to close
(`goes_documents`).

Main statement: `ofText_documents`, the tokens of such a file are those of its documents, one after the
other.  Nothing in it is a character that a YAML text may not have (`isWritten_documents`).
-/

namespace LanguageClient.Yaml

open Scanner Cursor
open Printer (isSimpleKey indentStep)

/-! ## Characters -/

theorem isWritten_lead (isOpen : Bool) (indent column : Nat) :
    ∀ ch ∈ Printer.lead isOpen indent column, IsWritten ch := by
  have hspace : IsWritten ' ' := .of_isPrintedAscii (by decide)
  cases isOpen with
  | true => exact forall_mem_spaces hspace _
  | false => exact forall_mem_newLine hspace isWritten_newLine _

theorem isWritten_key (indent : Nat) (name : Text) :
    ∀ ch ∈ (Printer.key indent name).1, IsWritten ch := by
  have hascii {ch : Char} (h : IsPrintedAscii ch) : IsWritten ch := .of_isPrintedAscii h
  unfold Printer.key
  split
  · exact List.forall_mem_append.mpr ⟨isWritten_of_mem_text,
      List.forall_mem_singleton.mpr (hascii (by decide))⟩
  · exact List.forall_mem_append.mpr ⟨List.forall_mem_append.mpr
      ⟨List.forall_mem_cons.mpr ⟨hascii (by decide), List.forall_mem_cons.mpr
        ⟨hascii (by decide), isWritten_of_mem_text⟩⟩,
        forall_mem_newLine (hascii (by decide)) isWritten_newLine _⟩,
      List.forall_mem_singleton.mpr (hascii (by decide))⟩

/-- A word behind a space. -/
theorem isWritten_word {w : List Char} (h : OnOneLine w) : ∀ ch ∈ ' ' :: w, IsWritten ch :=
  List.forall_mem_cons.mpr ⟨.of_isPrintedAscii (by decide), fun ch hch => .of_isPrintedAscii (h ch hch)⟩

mutual

theorem isWritten_value : (v : Json) → (indent column : Nat) → (isOpen : Bool) →
    ∀ ch ∈ Printer.value indent column isOpen v, IsWritten ch
  | .null, _, _, _ => isWritten_word (by decide)
  | .bool true, _, _, _ => isWritten_word (by decide)
  | .bool false, _, _, _ => isWritten_word (by decide)
  | .int n, _, _, _ => isWritten_word fun ch hch => (isNumeric_int n ch hch).isPrintedAscii
  | .float x, _, _, _ => isWritten_word fun ch hch => ((spells_float x).bare ch hch).1
  | .str _, _, _, _ =>
      List.forall_mem_cons.mpr ⟨.of_isPrintedAscii (by decide), isWritten_of_mem_text⟩
  | .arr [], _, _, _ => isWritten_word (by decide)
  | .arr (item :: rest), _, _, _ => isWritten_items (item :: rest) _ _ _
  | .obj [], _, _, _ => isWritten_word (by decide)
  | .obj (member :: rest), _, _, _ => isWritten_entries (member :: rest) _ _ _

theorem isWritten_items : (items : List Json) → (indent column : Nat) → (isOpen : Bool) →
    ∀ ch ∈ Printer.items indent column isOpen items, IsWritten ch
  | [], _, _, _ => List.forall_mem_nil _
  | item :: rest, indent, column, isOpen =>
      List.forall_mem_append.mpr ⟨List.forall_mem_append.mpr ⟨isWritten_lead _ _ _,
        List.forall_mem_cons.mpr ⟨.of_isPrintedAscii (by decide), isWritten_value item _ _ _⟩⟩,
        isWritten_items rest _ _ _⟩

theorem isWritten_entries : (members : Members) → (indent column : Nat) → (isOpen : Bool) →
    ∀ ch ∈ Printer.entries indent column isOpen members, IsWritten ch
  | [], _, _, _ => List.forall_mem_nil _
  | (_, v) :: rest, _, _, _ =>
      List.forall_mem_append.mpr ⟨List.forall_mem_append.mpr ⟨List.forall_mem_append.mpr
        ⟨isWritten_lead _ _ _, isWritten_key _ _⟩, isWritten_value v _ _ _⟩,
        isWritten_entries rest _ _ _⟩

end

/-- A file of documents, one appended to the other. -/
def printedFile (documents : List Members) : List Char := documents.flatMap Printer.document

theorem isWritten_documents (documents : List Members) :
    ∀ ch ∈ printedFile documents, IsWritten ch := by
  have hdashes : OnOneLine "---".toList := by decide
  intro ch hch
  obtain ⟨members, -, hch⟩ := List.mem_flatMap.mp hch
  have hdocument : ∀ ch ∈ Printer.document members, IsWritten ch :=
    List.forall_mem_append.mpr ⟨List.forall_mem_append.mpr
      ⟨fun ch hch => .of_isPrintedAscii (hdashes ch hch), isWritten_entries _ _ _ _⟩,
      List.forall_mem_singleton.mpr isWritten_newLine⟩
  exact hdocument ch hch

/-! ## Separators and the end -/

/-- The tokens of a document that holds an object with at least one member. -/
def documentTokens (members : Members) : List Token :=
  .documentStart :: .blockMappingStart :: entryTokens members ++ [.blockEnd]

variable {c : Cursor} {ts : List Token} {s : Scanner}

theorem startsToken_documents (documents : List Members) : StartsToken (printedFile documents) := by
  cases documents with
  | nil => exact fun ch hch => by cases hch
  | cons members documents => exact startsToken_cons (by decide) _

/-- A line of dashes closes the document before it. -/
theorem dispatch_separator {more : List Char} (hs : s.unwind (-1) = state c ts (-1) [] true [])
    (hrest : c.rest = "---".toList ++ '\n' :: more) (hcolumn : c.column = 0) :
    s.dispatch = .ok (state (c.advance 3) (.documentStart :: ts) (-1) [] false []) := by
  have hcursor : s.cursor = c := by
    rw [← cursor_unwind (-1) s, hs]
    rfl
  have hmarker : c.atMarker '-' = true := by
    rw [atMarker, peekAt, hrest]
    rfl
  have hpeek : c.peek = some '-' := peek_eq hrest
  have hfetch : s.fetchAt '-' = s.fetchSeparator .documentStart := by
    simp [fetchAt, hcursor, hcolumn, hmarker]
  rw [dispatch, hcursor, hpeek]
  dsimp only
  rw [hfetch, fetchSeparator, atTop, hs]
  rfl

theorem dispatch_end (hs : s.unwind (-1) = state c ts (-1) [] true []) (hrest : c.rest = []) :
    s.dispatch = .ok (state c (.streamEnd :: ts) (-1) [] false []) := by
  have hcursor : s.cursor = c := by
    rw [← cursor_unwind (-1) s, hs]
    rfl
  have hpeek : c.peek = none := by
    rw [peek, hrest]
    rfl
  rw [dispatch, hcursor, hpeek]
  dsimp only
  rw [fetchStreamEnd, atTop, hs]
  rfl

/-! ## Documents -/

/-- **The scanner goes from one document to the next**, up to the end of the file. -/
theorem goes_documents {documents : List Members} (hne : ∀ d ∈ documents, d ≠ [])
    (hlegible : ∀ d ∈ documents, areEntriesLegible 0 d = true)
    (hs : s.unwind (-1) = state c ts (-1) [] true []) (hrest : c.rest = printedFile documents)
    (hcolumn : c.column = 0) :
    ∃ e c', Goes s e ∧ c'.rest = [] ∧
      e.unwind (-1) = state c' ((documents.flatMap documentTokens).reverse ++ ts) (-1) [] true [] := by
  induction documents generalizing s c ts with
  | nil => exact ⟨s, c, .refl s, hrest, hs⟩
  | cons members documents ih =>
      obtain ⟨hmembers, hne⟩ := List.forall_mem_cons.mp hne
      obtain ⟨hfirst, hlegible⟩ := List.forall_mem_cons.mp hlegible
      have hrest : c.rest = "---".toList ++ (Printer.newLine 0 ++
          (Printer.entries 0 0 true members ++ (Printer.newLine 0 ++ printedFile documents))) := by
        rw [hrest, printedFile, List.flatMap_cons, Printer.document,
          (entries_eq 0 3 false members).2 hmembers]
        simp [Printer.lead, Printer.newLine, Printer.spaces, printedFile]
      have hcursor : s.cursor = c := by
        rw [← cursor_unwind (-1) s, hs]
        rfl
      -- The line of dashes.
      have hbehind : (c.advance 3).rest = Printer.newLine 0 ++
          (Printer.entries 0 0 true members ++ (Printer.newLine 0 ++ printedFile documents)) :=
        rest_advance_append hrest
      obtain ⟨hrest₁, hcolumn₁, hcomes⟩ := comes_newLine (.documentStart :: ts) [] false hbehind
        (startsToken_entries hmembers _) (show (-1 : Int) ≤ (0 : Nat) by decide)
      -- The entries of the document.
      obtain ⟨c', hrest', hcolumn', hgoes⟩ := takesEntries members 0 hmembers hfirst _
        (.documentStart :: ts) (-1) [] 0 (printedFile documents) hrest₁
        (startsToken_documents documents) (Nat.le_refl 0) hcolumn₁ (by decide)
      rw [opened_of_lt (by decide), unwind_of_le (Int.le_refl _)] at hgoes
      -- The documents behind it.
      obtain ⟨e, c'', hgoes', hend, he⟩ := ih hne hlegible
        ((unwind_deeper (show (-1 : Int) < (0 : Nat) by decide)).trans (unwind_of_le (Int.le_refl _)))
        hrest' hcolumn'
      refine ⟨e, c'', .of_dispatch (dispatch_separator hs hrest hcolumn) (by simp [GoesOn]) ?_
        ((hcomes.trans hgoes).trans hgoes'), hend, ?_⟩
      · simp only [cursor_state, hbehind, hcursor, hrest, List.length_append]
        have : 0 < "---".toList.length := by decide
        omega
      · rw [he]
        simp [documentTokens]

/-- **The tokens of a file are those of its documents.** -/
theorem ofText_documents {documents : List Members} (hne : ∀ d ∈ documents, d ≠ [])
    (hlegible : ∀ d ∈ documents, areEntriesLegible 0 d = true) :
    Token.ofText (printedFile documents) =
      documents.flatMap documentTokens ++ [.streamEnd] := by
  have hallowed : (printedFile documents).all isAllowed = true :=
    List.all_eq_true.mpr fun ch hch => (isWritten_documents documents ch hch).allowed
  have hsettle : (Scanner.start (printedFile documents)).settle =
      .ok (Scanner.start (printedFile documents)) :=
    settle_here (startsToken_documents documents) areLeft_nil
  have hstart : (Scanner.start (printedFile documents)).unwind (-1) =
      state (Cursor.ofText (printedFile documents)) [] (-1) [] true [] := rfl
  obtain ⟨e, c', hgoes, hend, he⟩ := goes_documents hne hlegible hstart rfl rfl
  obtain ⟨s', fuel, hsettle', hfuel, hrun⟩ := run_of_comes ⟨_, hsettle, hgoes⟩
    (Nat.lt_succ_self (printedFile documents).length)
  obtain ⟨fuel, rfl⟩ := Nat.exists_eq_add_one_of_ne_zero (Nat.ne_zero_of_lt hfuel)
  rw [Token.ofText, if_pos hallowed, hrun, run, fetch_of_settle hsettle', dispatch_end he hend]
  simp

end LanguageClient.Yaml
