import LanguageClient.Proofs.Yaml.Cursor
import LanguageClient.Yaml.Token

/-!
# How the scanner comes from one token to the next

Before every token the scanner passes what stands in between, gives up the keys that it has left
behind and closes the collections that the line is not indented for: it *settles*.  What it does next
depends on where it has settled alone (`fetch_eq`), so that two ways to come to the same place need not
be told apart.  `Goes` is a run from one such place to another, and `Comes` is one that starts behind a
token; `run_of_comes` says what they tell about the tokens of a text.

A line that is indented by less than a collection closes it with a token (`unwind_deeper`); that token
is made when the line is reached, and so it does not matter how many collections end there.
-/

namespace LanguageClient.Yaml.Scanner

open Cursor

/-! ## Settling -/

/-- The scanner before its next token. -/
def settle (s : Scanner) : Except Error Scanner := do
  let s ← s.toNextToken.dropStale
  return s.unwind s.cursor.column

/-- One token from there on. -/
def dispatch (s : Scanner) : Except Error Scanner :=
  match s.cursor.peek with
  | none => s.fetchStreamEnd
  | some ch => s.fetchAt ch

theorem fetch_eq (s : Scanner) : s.fetch = s.settle >>= dispatch := by
  unfold fetch settle
  cases s.toNextToken.dropStale <;> rfl

theorem fetch_of_settle {s t : Scanner} (h : s.settle = .ok t) : s.fetch = t.dispatch := by
  rw [fetch_eq, h]
  rfl

/-! ### No step goes back -/

theorem exists_advance_skip (p : Char → Bool) (c : Cursor) : ∃ n, c.skip p = c.advance n :=
  ⟨_, rfl⟩

theorem cursor_skipToToken (fuel : Nat) (s : Scanner) :
    ∃ n, (skipToToken fuel s).cursor = s.cursor.advance n := by
  induction fuel generalizing s with
  | zero => exact ⟨0, rfl⟩
  | succ fuel ih =>
      obtain ⟨m, hm⟩ : ∃ m, (if s.cursor.skipSpaces.peek == some '#'
          then s.cursor.skipSpaces.skip (!isBreak ·) else s.cursor.skipSpaces) =
            s.cursor.advance m := by
        obtain ⟨i, hi⟩ := exists_advance_skip (· == ' ') s.cursor
        split
        · obtain ⟨j, hj⟩ := exists_advance_skip (!isBreak ·) s.cursor.skipSpaces
          refine ⟨i + j, ?_⟩
          rw [hj, skipSpaces, hi, advance_add]
        · exact ⟨i, hi⟩
      unfold skipToToken
      dsimp only
      rw [hm]
      split
      next => exact ⟨m, rfl⟩
      next c hbreak =>
        obtain rfl : (s.cursor.advance m).step = c := by
          unfold takeBreak? at hbreak
          split at hbreak
          · split at hbreak
            · exact (Prod.mk.inj (Option.some.inj hbreak)).2
            · cases hbreak
          · cases hbreak
        obtain ⟨n, hn⟩ := ih _
        refine ⟨m + 1 + n, ?_⟩
        rw [hn, advance_add, advance_add, advance_one]

theorem cursor_toNextToken (s : Scanner) : ∃ n, s.toNextToken.cursor = s.cursor.advance n := by
  unfold toNextToken
  dsimp only
  split
  · obtain ⟨n, hn⟩ := cursor_skipToToken (s.cursor.step.rest.length + 1)
      { s with cursor := s.cursor.step }
    exact ⟨n + 1, hn⟩
  · exact cursor_skipToToken _ _

theorem cursor_unwindFrom (column : Int) (s : Scanner) (outer : List Int) :
    (s.unwindFrom column outer).cursor = s.cursor := by
  induction outer generalizing s with
  | nil => rfl
  | cons indent outer ih =>
      unfold unwindFrom
      split
      · rfl
      · rw [ih]
        rfl

theorem cursor_unwind (column : Int) (s : Scanner) : (s.unwind column).cursor = s.cursor := by
  unfold unwind
  split
  · rfl
  · exact cursor_unwindFrom _ _ _

theorem length_rest_settle {s t : Scanner} (h : s.settle = .ok t) :
    t.cursor.rest.length ≤ s.cursor.rest.length := by
  obtain ⟨n, hn⟩ := cursor_toNextToken s
  unfold settle dropStale at h
  split at h
  · cases h
  · obtain rfl := Except.ok.inj h
    rw [cursor_unwind]
    dsimp only
    rw [hn, rest_advance, List.length_drop]
    omega

/-! ## Runs -/

/-- The scanner has not come to the end of the text. -/
def GoesOn (s : Scanner) : Prop := ∀ ts, s.tokens ≠ .streamEnd :: ts

/-- A run from where the scanner has settled to where it settles again. -/
inductive Goes : Scanner → Scanner → Prop where
  | refl (s : Scanner) : Goes s s
  | step {s s' t u : Scanner} (hdispatch : s.dispatch = .ok s') (hon : s'.GoesOn)
      (hlt : s'.cursor.rest.length < s.cursor.rest.length) (hsettle : s'.settle = .ok t) :
      Goes t u → Goes s u

/-- A run that starts behind a token. -/
def Comes (s u : Scanner) : Prop := ∃ t, s.settle = .ok t ∧ Goes t u

theorem Goes.trans {s t u : Scanner} (h : Goes s t) (h' : Goes t u) : Goes s u := by
  induction h with
  | refl => exact h'
  | step hdispatch hon hlt hsettle _ ih => exact .step hdispatch hon hlt hsettle (ih h')

theorem Comes.trans {s t u : Scanner} (h : Comes s t) (h' : Goes t u) : Comes s u := by
  obtain ⟨s', hsettle, hgoes⟩ := h
  exact ⟨s', hsettle, hgoes.trans h'⟩

theorem Comes.of_settle {s t : Scanner} (h : s.settle = .ok t) : Comes s t := ⟨t, h, .refl t⟩

/-- One token, and what comes behind it. -/
theorem Goes.of_dispatch {s s' u : Scanner} (hdispatch : s.dispatch = .ok s') (hon : s'.GoesOn)
    (hlt : s'.cursor.rest.length < s.cursor.rest.length) (h : Comes s' u) : Goes s u := by
  obtain ⟨t, hsettle, hgoes⟩ := h
  exact .step hdispatch hon hlt hsettle hgoes

/-- **A run gives no other tokens than those it comes by.** -/
theorem run_of_comes {s u : Scanner} (h : Comes s u) {fuel : Nat}
    (hfuel : s.cursor.rest.length < fuel) :
    ∃ s' fuel', s'.settle = .ok u ∧ s'.cursor.rest.length < fuel' ∧ run fuel s = run fuel' s' := by
  obtain ⟨t, hsettle, hgoes⟩ := h
  induction hgoes generalizing s fuel with
  | refl => exact ⟨s, fuel, hsettle, hfuel, rfl⟩
  | @step t s' t' u hdispatch hon hlt hsettle' _ ih =>
      have hlength := length_rest_settle hsettle
      obtain ⟨fuel, rfl⟩ := Nat.exists_eq_add_one_of_ne_zero (Nat.ne_zero_of_lt hfuel)
      have hrun : run (fuel + 1) s = run fuel s' := by
        rw [run, fetch_of_settle hsettle, hdispatch]
        dsimp only
        split
        next ts htokens => exact absurd htokens (hon ts)
        next => rfl
      have hshorter : s'.cursor.rest.length < fuel := by omega
      obtain ⟨s'', fuel', hend, hfuel', heq⟩ := ih hshorter hsettle'
      exact ⟨s'', fuel', hend, hfuel', hrun.trans heq⟩

/-! ## States outside of brackets -/

/-- The scanner outside of brackets. -/
def state (c : Cursor) (ts : List Token) (indent : Int) (outer : List Int) (mayStartKey : Bool)
    (possible : List PossibleKey) : Scanner :=
  ⟨c, ts, ts.length, 0, indent, outer, mayStartKey, possible⟩

variable {c : Cursor} {ts : List Token} {indent column : Int} {outer : List Int}
  {mayStartKey : Bool} {possible : List PossibleKey}

@[simp] theorem cursor_state : (state c ts indent outer mayStartKey possible).cursor = c := rfl

@[simp] theorem tokens_state : (state c ts indent outer mayStartKey possible).tokens = ts := rfl

/-- A line that is indented by enough closes nothing. -/
theorem unwind_of_le (h : indent ≤ column) :
    (state c ts indent outer mayStartKey possible).unwind column =
      state c ts indent outer mayStartKey possible := by
  unfold unwind
  rw [if_neg (by simp [state])]
  cases outer with
  | nil => rfl
  | cons i outer => rw [state, unwindFrom, if_pos h]

/-- A line that is indented by less closes the collection. -/
theorem unwind_deeper {deeper : Int} (h : column < deeper) :
    (state c ts deeper (indent :: outer) mayStartKey possible).unwind column =
      (state c (.blockEnd :: ts) indent outer mayStartKey possible).unwind column := by
  unfold unwind
  rw [if_neg (by simp [state]), if_neg (by simp [state])]
  rw [state, unwindFrom, if_neg (by simpa using h)]
  rfl

/-! ## What stands between two tokens -/

/-- Something that may start a token. -/
def StartsToken (next : List Char) : Prop :=
  ∀ ch ∈ next.head?, isGap ch = false ∧ ch ≠ '#' ∧ ch ≠ '\uFEFF'

theorem beq_space_eq_false {ch : Char} (h : isGap ch = false) : (ch == ' ') = false := by
  rw [beq_eq_false_iff_ne]
  rintro rfl
  revert h
  decide

theorem skipToToken_spaces {n fuel : Nat} {next : List Char} {s : Scanner}
    (hrest : s.cursor.rest = List.replicate n ' ' ++ next) (hnext : StartsToken next) :
    skipToToken (fuel + 1) s = { s with cursor := s.cursor.advance n } := by
  have hskip : s.cursor.skipSpaces = s.cursor.advance n := by
    rw [skipSpaces, skip, span_replicate hrest rfl fun ch hch => beq_space_eq_false (hnext ch hch).1]
  have hbehind : (s.cursor.advance n).rest = next := rest_advance_replicate hrest
  have hcomment : ((s.cursor.advance n).peek == some '#') = false := by
    rw [peek, hbehind, beq_eq_false_iff_ne]
    exact fun h => (hnext '#' h).2.1 rfl
  have hbreak : (s.cursor.advance n).takeBreak? = none := by
    apply takeBreak?_of_not
    rw [hbehind]
    intro ch hch
    have := (hnext ch hch).1
    simp only [isGap, Bool.or_eq_false_iff] at this
    exact this.2
  rw [skipToToken]
  simp only [hskip, hcomment, Bool.false_eq_true, if_false, hbreak]

theorem skipToToken_line {k fuel : Nat} {next : List Char} {s : Scanner} (hdepth : s.depth = 0)
    (hrest : s.cursor.rest = '\n' :: (List.replicate k ' ' ++ next)) (hnext : StartsToken next) :
    skipToToken (fuel + 2) s =
      { s with cursor := s.cursor.advance (k + 1), mayStartKey := true } := by
  have hskip : s.cursor.skipSpaces = s.cursor := by
    rw [skipSpaces, skip, span_of_not]
    rw [hrest]
    exact fun ch hch => Option.some.inj hch ▸ rfl
  have hcomment : (s.cursor.peek == some '#') = false := by
    rw [peek_eq hrest]
    rfl
  have hline : s.cursor.step.rest = List.replicate k ' ' ++ next := by
    rw [rest_step, hrest]
    rfl
  rw [skipToToken]
  simp only [hskip, hcomment, Bool.false_eq_true, if_false,
    takeBreak?_eq hrest (by decide : isBreak '\n' = true)]
  rw [skipToToken_spaces hline hnext, hdepth]
  simp [advance_succ]

/-- Nothing that the scanner passes here is a byte order mark. -/
theorem toNextToken_eq {s : Scanner} (h : s.cursor.peek ≠ some '\uFEFF') :
    s.toNextToken = skipToToken (s.cursor.rest.length + 1) s := by
  have : (s.cursor.peek == some '\uFEFF') = false := beq_eq_false_iff_ne.mpr h
  simp [toNextToken, this]

theorem toNextToken_spaces {n : Nat} {next : List Char} {s : Scanner}
    (hrest : s.cursor.rest = List.replicate n ' ' ++ next) (hnext : StartsToken next) :
    s.toNextToken = { s with cursor := s.cursor.advance n } := by
  rw [toNextToken_eq, skipToToken_spaces hrest hnext]
  rw [peek, hrest]
  cases n with
  | zero => exact fun h => (hnext _ h).2.2 rfl
  | succ n => simp [List.replicate_succ]

theorem toNextToken_line {k : Nat} {next : List Char} {s : Scanner} (hdepth : s.depth = 0)
    (hrest : s.cursor.rest = '\n' :: (List.replicate k ' ' ++ next)) (hnext : StartsToken next) :
    s.toNextToken = { s with cursor := s.cursor.advance (k + 1), mayStartKey := true } := by
  have hlength : s.cursor.rest.length + 1 = (s.cursor.rest.length - 1) + 2 := by
    rw [hrest, List.length_cons]
    omega
  rw [toNextToken_eq, hlength, skipToToken_line hdepth hrest hnext]
  rw [peek, hrest]
  simp

/-! ## Where the scanner settles -/

/-- The possible keys may be given up: none of them has to be a key. -/
def AreLeft (possible : List PossibleKey) (c : Cursor) : Prop :=
  ∀ k ∈ possible, k.isRequired = false ∧ k.line < c.line

theorem dropStale_of_left {s : Scanner} (h : AreLeft s.possible s.cursor) :
    s.dropStale = .ok { s with possible := [] } := by
  have hrequired : (s.possible.any fun k => isStale s.cursor k && k.isRequired) = false := by
    rw [List.any_eq_false]
    intro k hk
    simp [(h k hk).1]
  have hstale : (s.possible.filter fun k => !isStale s.cursor k) = [] := by
    rw [List.filter_eq_nil_iff]
    intro k hk
    simp [isStale, (h k hk).2.ne]
  rw [dropStale, hrequired, hstale]
  rfl

/-- On the next line. -/
theorem settle_line {k : Nat} {next : List Char}
    (hrest : c.rest = '\n' :: (List.replicate k ' ' ++ next)) (hnext : StartsToken next)
    (hleft : ∀ p ∈ possible, p.isRequired = false ∧ p.line ≤ c.line) :
    (state c ts indent outer mayStartKey possible).settle =
      .ok ((state (c.advance (k + 1)) ts indent outer true []).unwind k) := by
  have hcursor := advance_newLine hrest
  have hnextToken : (state c ts indent outer mayStartKey possible).toNextToken =
      state (c.advance (k + 1)) ts indent outer true possible := toNextToken_line rfl hrest hnext
  have hleft' : AreLeft possible (c.advance (k + 1)) := by
    intro p hp
    rw [hcursor]
    exact ⟨(hleft p hp).1, Nat.lt_succ_of_le (hleft p hp).2⟩
  have hdrop : (state (c.advance (k + 1)) ts indent outer true possible).dropStale =
      .ok (state (c.advance (k + 1)) ts indent outer true []) := dropStale_of_left hleft'
  have hcolumn : (c.advance (k + 1)).column = k := by rw [hcursor]
  rw [settle, hnextToken, hdrop]
  simp only [bind, Except.bind, pure, Except.pure, cursor_state, hcolumn]

/-- Further on in the line, or where the cursor stands already. -/
theorem settle_spaces {n : Nat} {next : List Char} (hrest : c.rest = List.replicate n ' ' ++ next)
    (hnext : StartsToken next) (hleft : AreLeft possible (c.advance n)) :
    (state c ts indent outer mayStartKey possible).settle =
      .ok ((state (c.advance n) ts indent outer mayStartKey []).unwind (c.advance n).column) := by
  have hnextToken : (state c ts indent outer mayStartKey possible).toNextToken =
      state (c.advance n) ts indent outer mayStartKey possible := toNextToken_spaces hrest hnext
  have hdrop : (state (c.advance n) ts indent outer mayStartKey possible).dropStale =
      .ok (state (c.advance n) ts indent outer mayStartKey []) := dropStale_of_left hleft
  rw [settle, hnextToken, hdrop]
  rfl

/-- Where the cursor stands already. -/
theorem settle_here (hnext : StartsToken c.rest) (hleft : AreLeft possible c) :
    (state c ts indent outer mayStartKey possible).settle =
      .ok ((state c ts indent outer mayStartKey []).unwind c.column) := by
  have hrest : c.rest = List.replicate 0 ' ' ++ c.rest := rfl
  exact settle_spaces hrest hnext hleft

end LanguageClient.Yaml.Scanner
