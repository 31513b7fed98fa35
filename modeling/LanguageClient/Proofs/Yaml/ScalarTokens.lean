import LanguageClient.Proofs.Yaml.Marks

/-!
# Scalars as tokens

A scalar is one token.  As a value it is the last thing on its line, and the scanner goes on with the
next line (`TakesLine`); as a key it is followed by a colon on the same line (`TakesKey`).
-/

namespace LanguageClient.Yaml.Scanner

open Cursor Scalar

variable {c : Cursor} {ts : List Token} {outer : List Int} {mayStartKey : Bool} {more : List Char}

/-! ## Tokens -/

/-- The character starts a scalar between quotes. -/
def IsQuote (ch : Char) : Prop := ch = '"' ∨ ch = '\''

theorem dispatch_quoted {indent : Int} {quote : Char} {t : Text} {c' : Cursor}
    (hquote : IsQuote quote) (hrest : c.rest = quote :: more)
    (hread : Scalar.quoted quote c = .ok (t, c')) :
    (state c ts indent outer mayStartKey []).dispatch =
      .ok (state c' (.scalar t false :: ts) indent outer false
        (noted mayStartKey c ts.length indent)) := by
  have hfetch (s : Scanner) : s.fetchAt quote = s.fetchInline fun c =>
      Scalar.quoted quote c >>= fun taken => return (.scalar taken.1 false, taken.2) := by
    rcases hquote with rfl | rfl <;> simp [fetchAt]
  rw [dispatch, cursor_state, peek_eq hrest]
  dsimp only
  rw [hfetch, fetchInline, notePossible_state]
  simp only [bind, Except.bind, cursor_state, hread]
  rfl

theorem quoted_double {w : List Char} {t : Text} (h : ReadsDouble w t)
    (hrest : c.rest = '"' :: (w ++ '"' :: more)) :
    Scalar.quoted '"' c = .ok (t, c.advance ('"' :: w ++ ['"']).length) := by
  have hstep : c.step.rest = w ++ '"' :: more := by
    rw [rest_step, hrest]
    rfl
  have hlength : ('"' :: w ++ ['"']).length = w.length + 1 + 1 := by simp
  rw [Scalar.quoted, if_pos (by decide), h _ _ _ more hstep (Nat.lt_succ_self _), hlength, advance_succ]
  rfl

theorem quoted_single {w : List Char} {t : Text} (h : ReadsSingle w t)
    (hrest : c.rest = '\'' :: (w ++ '\'' :: more)) (hmore : more.head? ≠ some '\'') :
    Scalar.quoted '\'' c = .ok (t, c.advance ('\'' :: w ++ ['\'']).length) := by
  have hstep : c.step.rest = w ++ '\'' :: more := by
    rw [rest_step, hrest]
    rfl
  have hlength : ('\'' :: w ++ ['\'']).length = w.length + 1 + 1 := by simp
  rw [Scalar.quoted, if_neg (by decide), h _ _ _ more hstep hmore (Nat.lt_succ_self _), hlength, advance_succ]
  rfl

/-- The characters start a scalar without quotes, whatever follows them. -/
def StartsPlain (w : List Char) : Prop :=
  ∃ ch rest, w = ch :: rest ∧ isGap ch = false ∧
    (isIndicator ch = false ∨
      (ch = '-' ∨ ch = '?' ∨ ch = ':') ∧ ∃ d rest', rest = d :: rest' ∧ isGap d = false)

/-- The cursor does not stand before three dashes or points at the start of a line. -/
def NoMarker (c : Cursor) : Prop :=
  c.column = 0 → c.atMarker '-' = false ∧ c.atMarker '.' = false

theorem isIndicator_eq_false {ch : Char} (h : isIndicator ch = false) :
    ∀ d ∈ "-?:,[]\x7b\x7d#&*!|>'\"%@\x60".toList, (ch == d) = false := by
  intro d hd
  rw [beq_eq_false_iff_ne]
  rintro rfl
  rw [isIndicator, List.contains_eq_mem, decide_eq_false_iff_not] at h
  exact h hd

theorem fetchAt_plain {s : Scanner} {w : List Char} (hdepth : s.depth = 0)
    (hrest : s.cursor.rest = w ++ more) (hstart : StartsPlain w) (hmarker : NoMarker s.cursor) :
    ∃ ch rest, w = ch :: rest ∧ s.fetchAt ch = s.fetchPlain := by
  obtain ⟨ch, rest, rfl, hgap, hkind⟩ := hstart
  refine ⟨ch, rest, rfl, ?_⟩
  have hmarkers : (ch == '-' && s.cursor.column == 0 && s.cursor.atMarker '-') = false ∧
      (ch == '.' && s.cursor.column == 0 && s.cursor.atMarker '.') = false := by
    cases hcolumn : s.cursor.column == 0 with
    | false => simp
    | true => simp [(hmarker (by simpa using hcolumn)).1, (hmarker (by simpa using hcolumn)).2]
  rcases hkind with hindicator | ⟨hmark, d, rest', rfl, hd⟩
  · have hne := isIndicator_eq_false hindicator
    have hstarts : startsPlain false ch (s.cursor.peekAt 1) = true := by
      simp [startsPlain, hgap, hindicator]
    unfold fetchAt
    simp only [hmarkers, hdepth, hne '-' (by decide), hne '?' (by decide), hne ':' (by decide),
      hne ',' (by decide), hne '[' (by decide), hne ']' (by decide), hne '\x7b' (by decide),
      hne '\x7d' (by decide), hne '&' (by decide), hne '*' (by decide), hne '!' (by decide),
      hne '|' (by decide), hne '>' (by decide), hne '\'' (by decide), hne '"' (by decide),
      hne '%' (by decide), hstarts, ne_eq, not_true_eq_false, decide_false, Bool.false_and,
      Bool.false_eq_true, Bool.or_self, if_false, if_true]
  · have hnext : s.cursor.peekAt 1 = some d := by
      rw [peekAt, hrest]
      rfl
    have hends : endOr isGap (s.cursor.peekAt 1) = false := by rw [hnext]; exact hd
    have hdash : ¬ (s.cursor.column = 0 ∧ s.cursor.atMarker '-' = true) := by
      rintro ⟨hzero, hdash⟩
      rw [(hmarker hzero).1] at hdash
      cases hdash
    unfold fetchAt
    rcases hmark with rfl | rfl | rfl <;> simp [hdash, hdepth, hends, startsPlain]

theorem dispatch_plain {indent : Int} {w : List Char} {t : Text} (h : ReadsPlain (indent + 1) w t)
    (hstart : StartsPlain w) (hrest : c.rest = w ++ more) (hmarker : NoMarker c)
    (hcolumn : indent ≤ c.column) (hstops : StopsPlain (indent + 1) (c.advance w.length)) :
    (state c ts indent outer mayStartKey []).dispatch =
      .ok (state (plainGap (c.advance w.length)).cursor (.scalar t true :: ts) indent outer
        (plainGap (c.advance w.length)).breaksLine (noted mayStartKey c ts.length indent)) := by
  have hread : Scalar.plain false (indent + 1) c =
      ⟨t, (plainGap (c.advance w.length)).breaksLine, (plainGap (c.advance w.length)).cursor⟩ := by
    rw [Scalar.plain, h _ _ _ _ _ more hrest (by omega) hstops (Nat.lt_succ_self _)]
    rfl
  obtain ⟨ch, rest, rfl, hfetch⟩ :=
    fetchAt_plain (s := state c ts indent outer mayStartKey []) rfl hrest hstart hmarker
  rw [dispatch, cursor_state, peek_eq (hrest.trans rfl)]
  dsimp only
  rw [hfetch, fetchPlain, notePossible_state]
  have hread' : Scalar.plain (decide ((state c ts indent outer mayStartKey
      (noted mayStartKey c ts.length indent)).depth ≠ 0)) (indent + 1) c =
      Scalar.plain false (indent + 1) c := rfl
  simp only [bind, Except.bind]
  rw [show (state c ts indent outer mayStartKey (noted mayStartKey c ts.length indent)).cursor = c
    from rfl, show (state c ts indent outer mayStartKey
      (noted mayStartKey c ts.length indent)).indent = indent from rfl, hread', hread]
  rfl

/-! ## Values -/

/-- The characters are a value that the scanner takes in the tokens up to the end of its line, if the
next line is not indented more deeply than the collection around it. -/
def TakesLine (indent : Nat) (w : List Char) (tokens : List Token) : Prop :=
  ∀ (c : Cursor) (ts : List Token) (outer : List Int) (mayStartKey : Bool) (k : Nat)
    (next : List Char), c.rest = w ++ '\n' :: (List.replicate k ' ' ++ next) → StartsToken next →
    k ≤ indent → indent < c.column →
    ∃ c', c'.rest = next ∧ c'.column = k ∧
      Goes (state c ts indent outer mayStartKey [])
        ((state c' (tokens.reverse ++ ts) indent outer true []).unwind k)

/-- A place that lies further in than the collection need not be that of a key. -/
theorem isRequired_noted {indent : Int} {before : Nat} (h : indent < c.column) :
    ∀ k ∈ noted mayStartKey c before indent, k.isRequired = false ∧ k.line = c.line := by
  intro k hk
  cases mayStartKey with
  | false => cases hk
  | true =>
      rw [List.mem_singleton.mp hk]
      exact ⟨beq_eq_false_iff_ne.mpr (Int.ne_of_lt h), rfl⟩

/-- What comes behind the last token of a line. -/
theorem comes_line {indent : Int} {before k : Nat} {c₀ : Cursor} {next : List Char} {m : Bool}
    (hrest : c.rest = '\n' :: (List.replicate k ' ' ++ next)) (hnext : StartsToken next)
    (hcolumn : indent < c₀.column) (hline : c₀.line ≤ c.line) :
    (c.advance (k + 1)).rest = next ∧ (c.advance (k + 1)).column = k ∧
      Comes (state c ts indent outer mayStartKey (noted m c₀ before indent))
        ((state (c.advance (k + 1)) ts indent outer true []).unwind k) := by
  have hcursor := advance_newLine hrest
  refine ⟨by rw [hcursor], by rw [hcursor], .of_settle (settle_line hrest hnext ?_)⟩
  intro p hp
  obtain ⟨hrequired, hpline⟩ := isRequired_noted hcolumn p hp
  exact ⟨hrequired, hpline ▸ hline⟩

theorem takesLine_quoted {indent : Nat} {quote : Char} {w : List Char} {t : Text}
    (hquote : IsQuote quote) (hw : w = quote :: w.tail)
    (hread : ∀ c more, c.rest = w ++ '\n' :: more →
      Scalar.quoted quote c = .ok (t, c.advance w.length)) :
    TakesLine indent w [.scalar t false] := by
  intro c ts outer mayStartKey k next hrest hnext hk hcolumn
  have hstart : c.rest = quote :: (w.tail ++ '\n' :: (List.replicate k ' ' ++ next)) := by
    rw [hrest]
    conv_lhs => rw [hw]
    rfl
  have hbehind := rest_advance_append hrest
  obtain ⟨hrest', hcolumn', hcomes⟩ := comes_line hbehind hnext (Int.ofNat_lt.mpr hcolumn)
    (line_le_advance _ _)
  refine ⟨_, hrest', hcolumn', .of_dispatch (dispatch_quoted hquote hstart (hread c _ hrest))
    (by simp [GoesOn]) ?_ hcomes⟩
  rw [cursor_state, hbehind, cursor_state, hrest, hw]
  simp only [List.cons_append, List.length_append, List.length_cons]
  omega

theorem takesLine_plain {indent : Nat} {w : List Char} {t : Text}
    (h : ReadsPlain ((indent : Int) + 1) w t) (hstart : StartsPlain w) :
    TakesLine indent w [.scalar t true] := by
  intro c ts outer mayStartKey k next hrest hnext hk hcolumn
  have hbehind := rest_advance_append hrest
  have hline := line_le_advance w.length c
  have hgap : ∀ ch ∈ next.head?, isGap ch = false := fun ch hch => (hnext ch hch).1
  have hleast : (k : Int) < (indent : Int) + 1 := by omega
  obtain ⟨hstops, hbreaks, hcursor⟩ := stops_at_line hbehind hgap hleast
  have hmarker : NoMarker c := fun hzero => by omega
  have hplace := advance_newLine hbehind
  have hrest' : ((c.advance w.length).advance (k + 1)).rest = next := by rw [hplace]
  have hcolumn' : ((c.advance w.length).advance (k + 1)).column = k := by rw [hplace]
  have hline' : ((c.advance w.length).advance (k + 1)).line = (c.advance w.length).line + 1 := by
    rw [hplace]
  refine ⟨_, hrest', hcolumn',
    .of_dispatch (dispatch_plain h hstart hrest hmarker (by omega) hstops) (by simp [GoesOn]) ?_ ?_⟩
  · rw [cursor_state, hcursor, hrest', cursor_state, hrest]
    simp
    omega
  · -- The line break has been passed with the scalar.
    have hleft : AreLeft (noted mayStartKey c ts.length indent)
        ((c.advance w.length).advance (k + 1)) := by
      intro p hp
      obtain ⟨hrequired, hpline⟩ := isRequired_noted (Int.ofNat_lt.mpr hcolumn) p hp
      rw [hpline, hline']
      exact ⟨hrequired, by omega⟩
    rw [hcursor, hbreaks, ← congrArg Nat.cast hcolumn']
    exact .of_settle (settle_here (by rwa [hrest']) hleft)

theorem takesLine_brackets {indent : Nat} {opening closing : Char} {t t' : Token}
    (hopening : ∀ s : Scanner, s.fetchAt opening = s.fetchOpening t)
    (hclosing : ∀ s : Scanner, s.fetchAt closing = s.fetchClosing t')
    (hinline : IsInline opening) (hstarts : isGap closing = false ∧ closing ≠ '#' ∧ closing ≠ '\uFEFF')
    (ht : t ≠ .streamEnd) (ht' : t' ≠ .streamEnd) :
    TakesLine indent [opening, closing] [t, t'] := by
  intro c ts outer mayStartKey k next hrest hnext hk hcolumn
  have hbehind : (c.advance 2).rest = '\n' :: (List.replicate k ' ' ++ next) :=
    rest_advance_append hrest
  obtain ⟨hrest', hcolumn', hcomes⟩ := comes_line hbehind hnext (Int.ofNat_lt.mpr hcolumn)
    (line_le_advance _ _)
  exact ⟨_, hrest', hcolumn', goes_brackets (hrest.trans rfl) hopening hclosing hinline
    (fun ch hch => Option.some.inj hch ▸ hstarts) ht ht' hcomes⟩

theorem takesLine_emptyList {indent : Nat} :
    TakesLine indent ['[', ']'] [.flowSequenceStart, .flowSequenceEnd] :=
  takesLine_brackets (fun s => by simp [fetchAt]) (fun s => by simp [fetchAt]) (by decide) (by decide)
    nofun nofun

theorem takesLine_emptyMapping {indent : Nat} :
    TakesLine indent ['\x7b', '\x7d'] [.flowMappingStart, .flowMappingEnd] :=
  takesLine_brackets (fun s => by simp [fetchAt]) (fun s => by simp [fetchAt]) (by decide) (by decide)
    nofun nofun

/-! ## Keys -/

/-- The characters are a key on one line: a colon behind them makes a key of the token. -/
def TakesKey (w : List Char) (t : Token) : Prop :=
  ∀ (c : Cursor) (ts : List Token) (indent : Int) (outer : List Int) (more : List Char)
    (u : Scanner), c.rest = w ++ ':' :: more → endOr isGap more.head? = true → indent ≤ c.column →
    Comes (state (c.advance (w.length + 1))
      (.value :: t :: .key :: (opened .blockMappingStart c.column indent ts outer).1) c.column
      (opened .blockMappingStart c.column indent ts outer).2 false []) u →
    Goes (state c ts indent outer true []) u

/-- A key within reach that has been taken as a scalar. -/
theorem takesKey_of_dispatch {w : List Char} {t : Token} (hinline : ∀ ch ∈ w, IsInline ch)
    (hne : w ≠ []) (hshort : w.length ≤ keyReach) (ht : t ≠ .streamEnd)
    (hdispatch : ∀ (c : Cursor) (ts : List Token) (indent : Int) (outer : List Int)
      (more : List Char), c.rest = w ++ ':' :: more → endOr isGap more.head? = true →
      indent ≤ c.column → ∃ mayStartKey, (state c ts indent outer true []).dispatch =
        .ok (state (c.advance w.length) (t :: ts) indent outer mayStartKey
          (noted true c ts.length indent))) : TakesKey w t := by
  intro c ts indent outer more u hrest hmore hcolumn hcomes
  obtain ⟨mayStartKey, hdispatch⟩ := hdispatch c ts indent outer more hrest hmore hcolumn
  have hlength := List.length_pos_iff.mpr hne
  have hplace : c.advance w.length = ⟨':' :: more, c.index + w.length, c.line, c.column + w.length⟩ :=
    advance_inline hrest hinline
  have hbehind : (c.advance w.length).rest = ':' :: more := rest_advance_append hrest
  have hstarts : StartsToken (':' :: more) := fun ch hch => Option.some.inj hch ▸ by decide
  -- The key is still within reach at its colon.
  have hfresh : ∀ k ∈ noted true c ts.length indent, isStale (c.advance w.length) k = false := by
    intro k hk
    rw [List.mem_singleton.mp hk, hplace]
    simp [isStale]
    omega
  have hnext : (state (c.advance w.length) (t :: ts) indent outer mayStartKey
      (noted true c ts.length indent)).toNextToken = state (c.advance w.length) (t :: ts) indent outer
        mayStartKey (noted true c ts.length indent) :=
    toNextToken_spaces (n := 0) hbehind hstarts
  have hdrop : (state (c.advance w.length) (t :: ts) indent outer mayStartKey
      (noted true c ts.length indent)).dropStale = .ok (state (c.advance w.length) (t :: ts) indent
        outer mayStartKey (noted true c ts.length indent)) := by
    simp [dropStale, state, noted] at hfresh ⊢
    simp [hfresh]
  have hsettle : (state (c.advance w.length) (t :: ts) indent outer mayStartKey
      (noted true c ts.length indent)).settle = .ok (state (c.advance w.length) (t :: ts) indent
        outer mayStartKey (noted true c ts.length indent)) := by
    have hunwind : indent ≤ (c.advance w.length).column := by
      rw [hplace]
      dsimp only
      omega
    rw [settle, hnext, hdrop]
    simp only [bind, Except.bind, pure, Except.pure, cursor_state, unwind_of_le hunwind]
  have hcolon : (state (c.advance w.length) (t :: ts) indent outer mayStartKey
      (noted true c ts.length indent)).dispatch = .ok (state (c.advance w.length).step
        (.value :: t :: .key :: (opened .blockMappingStart c.column indent ts outer).1) c.column
        (opened .blockMappingStart c.column indent ts outer).2 false []) :=
    dispatch_keyColon hbehind hmore rfl rfl hcolumn
  rw [advance_add, advance_one] at hcomes
  refine .step hdispatch (by simp [GoesOn, ht]) ?_ hsettle
    (.of_dispatch hcolon (by simp [GoesOn]) ?_ hcomes)
  · rw [cursor_state, hbehind, cursor_state, hrest]
    simp
    omega
  · rw [cursor_state, rest_step, cursor_state, hbehind]
    simp

end LanguageClient.Yaml.Scanner
