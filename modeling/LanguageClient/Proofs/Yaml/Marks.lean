import LanguageClient.Proofs.Yaml.Layout
import LanguageClient.Proofs.Yaml.Plain

/-!
# One token after another

What the scanner does at each of the marks that a printed document has: a dash or a question mark
opens a collection where its column is a new one, a colon makes a key of what stands before it or goes
with a question mark, and brackets come in empty pairs only.
-/

namespace LanguageClient.Yaml.Scanner

open Cursor

variable {c : Cursor} {ts : List Token} {indent : Int} {outer : List Int} {mayStartKey : Bool}
  {possible : List PossibleKey} {more : List Char}

/-! ## Collections that are opened -/

/-- The tokens and the columns around, where a collection is opened if its column is a new one. -/
def opened (t : Token) (column indent : Int) (ts : List Token) (outer : List Int) :
    List Token × List Int :=
  if indent < column then (t :: ts, indent :: outer) else (ts, outer)

theorem opened_of_lt {t : Token} {column : Int} (h : indent < column) :
    opened t column indent ts outer = (t :: ts, indent :: outer) := if_pos h

theorem opened_self {t : Token} : opened t indent indent ts outer = (ts, outer) :=
  if_neg (Int.lt_irrefl _)

theorem openHere_state {t : Token} (h : indent ≤ c.column) :
    (state c ts indent outer mayStartKey possible).openHere t =
      state c (opened t c.column indent ts outer).1 c.column (opened t c.column indent ts outer).2
        mayStartKey possible := by
  rcases Int.lt_or_eq_of_le h with hlt | heq
  · rw [opened_of_lt hlt]
    simp [openHere, openAt, state, hlt, push]
  · subst heq
    rw [opened_self]
    simp [openHere, openAt, state]

theorem dropPossible_state :
    (state c ts indent outer mayStartKey []).dropPossible =
      .ok (state c ts indent outer mayStartKey []) := rfl

/-- The place where a token stands, if it may be a key. -/
def noted (mayStartKey : Bool) (c : Cursor) (before : Nat) (indent : Int) : List PossibleKey :=
  if mayStartKey then [⟨0, before, indent == c.column, c.index, c.line, c.column⟩] else []

theorem notePossible_state :
    (state c ts indent outer mayStartKey []).notePossible =
      .ok (state c ts indent outer mayStartKey (noted mayStartKey c ts.length indent)) := by
  cases mayStartKey <;> rfl

/-! ## Marks -/

theorem atMarker_eq_false {mark ch : Char} (hrest : c.rest = ch :: more)
    (hmore : endOr isGap more.head? = true) (hmark : isGap mark = false) :
    c.atMarker mark = false := by
  have htake : (c.rest.take 3 == [mark, mark, mark]) = false := by
    rw [hrest]
    cases more with
    | nil => simp
    | cons d more =>
        have hne : d ≠ mark := by
          rintro rfl
          exact absurd hmore (by simp [endOr, hmark])
        simp [hne]
  rw [atMarker, htake, Bool.false_and]

theorem peekAt_one {ch : Char} (hrest : c.rest = ch :: more) : c.peekAt 1 = more.head? := by
  rw [peekAt, hrest]
  cases more <;> rfl

/-- The dash of an item. -/
theorem dispatch_dash (hrest : c.rest = '-' :: more) (hmore : endOr isGap more.head? = true)
    (hcolumn : indent ≤ c.column) :
    (state c ts indent outer true []).dispatch =
      .ok (state c.step (.blockEntry :: (opened .blockSequenceStart c.column indent ts outer).1)
        c.column (opened .blockSequenceStart c.column indent ts outer).2 true []) := by
  have hmarker : c.atMarker '-' = false := atMarker_eq_false hrest hmore rfl
  have hfetch : (state c ts indent outer true []).fetchAt '-' =
      (state c ts indent outer true []).fetchBlockEntry := by
    simp [fetchAt, hmarker, peekAt_one hrest, hmore]
  rw [dispatch, cursor_state, peek_eq hrest]
  dsimp only
  rw [hfetch, fetchBlockEntry]
  simp only [show (state c ts indent outer true []).depth = 0 from rfl,
    show (state c ts indent outer true []).mayStartKey = true from rfl, openHere_state hcolumn]
  rfl

/-- The question mark of a key that stands alone. -/
theorem dispatch_question (hrest : c.rest = '?' :: more) (hmore : endOr isGap more.head? = true)
    (hcolumn : indent ≤ c.column) :
    (state c ts indent outer true []).dispatch =
      .ok (state c.step (.key :: (opened .blockMappingStart c.column indent ts outer).1)
        c.column (opened .blockMappingStart c.column indent ts outer).2 true []) := by
  have hfetch : (state c ts indent outer true []).fetchAt '?' =
      (state c ts indent outer true []).fetchKey := by
    simp [fetchAt, peekAt_one hrest, hmore]
  rw [dispatch, cursor_state, peek_eq hrest]
  dsimp only
  rw [hfetch, fetchKey]
  simp only [show (state c ts indent outer true []).depth = 0 from rfl,
    show (state c ts indent outer true []).mayStartKey = true from rfl, openHere_state hcolumn]
  rfl

/-- The colon that goes with a question mark. -/
theorem dispatch_colon (hrest : c.rest = ':' :: more) (hmore : endOr isGap more.head? = true) :
    (state c ts c.column outer true []).dispatch =
      .ok (state c.step (.value :: ts) c.column outer true []) := by
  have hfetch : (state c ts c.column outer true []).fetchAt ':' =
      (state c ts c.column outer true []).fetchValue := by
    simp [fetchAt, peekAt_one hrest, hmore]
  rw [dispatch, cursor_state, peek_eq hrest]
  dsimp only
  rw [hfetch, fetchValue]
  simp only [show (state c ts c.column outer true []).depth = 0 from rfl,
    show (state c ts c.column outer true []).mayStartKey = true from rfl,
    openHere_state (Int.le_refl _), opened_self]
  rfl

/-- The colon behind a key: the key has been noted on this line, and the tokens that make it one are
inserted before it. -/
theorem dispatch_keyColon {t : Token} {k : PossibleKey} (hrest : c.rest = ':' :: more)
    (hmore : endOr isGap more.head? = true) (hdepth : k.depth = 0)
    (hbefore : k.tokensBefore = ts.length) (hcolumn : indent ≤ k.column) :
    (state c (t :: ts) indent outer mayStartKey [k]).dispatch =
      .ok (state c.step
        (.value :: t :: .key :: (opened .blockMappingStart k.column indent ts outer).1)
        k.column (opened .blockMappingStart k.column indent ts outer).2 false []) := by
  have hfetch : (state c (t :: ts) indent outer mayStartKey [k]).fetchAt ':' =
      (state c (t :: ts) indent outer mayStartKey [k]).fetchValue := by
    simp [fetchAt, peekAt_one hrest, hmore]
  have hfind : (state c (t :: ts) indent outer mayStartKey [k]).possible.find?
      (·.depth == (state c (t :: ts) indent outer mayStartKey [k]).depth) = some k := by
    simp [state, hdepth]
  rw [dispatch, cursor_state, peek_eq hrest]
  dsimp only
  rw [hfetch, fetchValue, hfind]
  have htwo : ts.length + 1 + 1 - ts.length = 2 := by omega
  rcases Int.lt_or_eq_of_le hcolumn with hlt | heq
  · rw [opened_of_lt hlt]
    simp [makeKey, insertAt, openAt, state, hdepth, hbefore, hlt, pass, push, advance_one, pure,
      Except.pure, htwo]
  · subst heq
    rw [opened_self]
    simp [makeKey, insertAt, openAt, state, hdepth, hbefore, pass, push, advance_one, pure,
      Except.pure]

/-! ## Brackets -/

/-- Brackets with nothing between them. -/
theorem goes_brackets {opening closing : Char} {t t' : Token} {u : Scanner}
    (hrest : c.rest = opening :: closing :: more)
    (hopening : ∀ s : Scanner, s.fetchAt opening = s.fetchOpening t)
    (hclosing : ∀ s : Scanner, s.fetchAt closing = s.fetchClosing t')
    (hinline : IsInline opening) (hstarts : StartsToken (closing :: more)) (ht : t ≠ .streamEnd)
    (ht' : t' ≠ .streamEnd)
    (h : Comes (state (c.advance 2) (t' :: t :: ts) indent outer false
      (noted mayStartKey c ts.length indent)) u) :
    Goes (state c ts indent outer mayStartKey []) u := by
  have hstep : c.step = ⟨closing :: more, c.index + 1, c.line, c.column + 1⟩ :=
    step_inline hrest hinline
  -- The scanner between the brackets; the place before them is still known there.
  obtain ⟨inside, hinside⟩ : ∃ inside : Scanner, inside = ⟨c.step, t :: ts, ts.length + 1, 1, indent,
    outer, true, noted mayStartKey c ts.length indent⟩ := ⟨_, rfl⟩
  have hopened : (state c ts indent outer mayStartKey []).dispatch = .ok inside := by
    rw [dispatch, cursor_state, peek_eq hrest]
    dsimp only
    rw [hopening, fetchOpening, notePossible_state, hinside]
    rfl
  have hsettle : inside.settle = .ok inside := by
    have hnext : inside.toNextToken = inside := by
      have hplace : inside.cursor.rest = List.replicate 0 ' ' ++ (closing :: more) := by
        rw [hinside, hstep]
        rfl
      exact toNextToken_spaces hplace hstarts
    have hfresh : ∀ k ∈ inside.possible, isStale inside.cursor k = false := by
      rw [hinside, hstep]
      intro k hk
      cases mayStartKey with
      | false => cases hk
      | true =>
          rw [List.mem_singleton.mp hk]
          simp [isStale, keyReach]
    have hdrop : inside.dropStale = .ok inside := by
      have hrequired : (inside.possible.any fun k => isStale inside.cursor k && k.isRequired) =
          false := by
        rw [List.any_eq_false]
        intro k hk
        simp [hfresh k hk]
      have hkept : (inside.possible.filter fun k => !isStale inside.cursor k) = inside.possible := by
        rw [List.filter_eq_self]
        intro k hk
        simp [hfresh k hk]
      rw [dropStale, hrequired, hkept]
      rfl
    have hunwind (column : Int) : inside.unwind column = inside := by
      rw [unwind, if_pos (by simp [hinside])]
    rw [settle, hnext, hdrop]
    simp only [bind, Except.bind, pure, Except.pure, hunwind]
  have hclosed : inside.dispatch = .ok (state (c.advance 2) (t' :: t :: ts) indent outer false
      (noted mayStartKey c ts.length indent)) := by
    have hpeek : inside.cursor.peek = some closing := by
      rw [hinside, hstep]
      rfl
    rw [dispatch, hpeek]
    dsimp only
    rw [hclosing, fetchClosing, hinside]
    cases mayStartKey <;> rfl
  have hlength : inside.cursor.rest.length < c.rest.length := by
    rw [hinside, hstep, hrest]
    simp
  refine .step hopened (fun ts' h' => ht ?_) hlength hsettle (.of_dispatch hclosed (fun ts' h' => ht' ?_)
    ?_ h)
  · rw [hinside] at h'
    exact (List.cons.inj h').1
  · exact (List.cons.inj h').1
  · rw [cursor_state, rest_advance, hinside, hstep, hrest]
    simp

end LanguageClient.Yaml.Scanner
