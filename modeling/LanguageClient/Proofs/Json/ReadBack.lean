import LanguageClient.Proofs.Json.TextReadBack
import Mathlib.Data.List.Nodup

/-!
# Printed documents are read back

A document is `Plain` when its printed form spells it and nothing else: it holds no doubles, its
integers have no more digits than are read, its texts have no surrogates that reading would join,
and no object has a name twice.  Main statement: `parse_render`, the printed form of a plain
document parses to the document, with its members in their order.

## Strategy

A value is followed by the end, a comma or a closing bracket (`Closes`), so that a number cannot
go on.  The fuel of the parser is measured by the length of what was printed: a value of `n`
characters needs at most `2 * n`, and a list of values one more for its first step.
-/

namespace LanguageClient.Json

/-! ## Plain documents -/

/-- The printed form of the document spells the document. -/
inductive Plain : Json → Prop where
  | null : Plain null
  | bool (b : Bool) : Plain (bool b)
  | int {n : Int} (hdigits : Reading.IsShort n.natAbs) : Plain (int n)
  | str {t : Text} (htext : t.Unpaired) : Plain (str t)
  | arr {items : List Json} (hitems : ∀ item ∈ items, Plain item) : Plain (arr items)
  | obj {members : Members} (hdistinct : (members.map Prod.fst).Nodup)
      (hnames : ∀ m ∈ members, Text.Unpaired m.1) (hvalues : ∀ m ∈ members, Plain m.2) :
      Plain (obj members)

/-- What may follow a value inside a document: nothing, a comma, or a closing bracket. -/
def Closes (rest : List Char) : Prop := ∀ c ∈ rest.head?, c = ',' ∨ c = ']' ∨ c = '\x7d'

theorem closes_nil : Closes [] := by simp [Closes]

theorem closes_cons {c : Char} (h : c = ',' ∨ c = ']' ∨ c = '\x7d') (rest : List Char) :
    Closes (c :: rest) := by simpa [Closes] using h

/-! ## Integers -/

theorem takeWhile_isDigit_append {digits : List Char} (hdigits : ∀ c ∈ digits, c.isDigit)
    {rest : List Char} (hrest : Closes rest) :
    (digits ++ rest).takeWhile Char.isDigit = digits ∧
      (digits ++ rest).dropWhile Char.isDigit = rest := by
  rw [List.takeWhile_append_of_pos hdigits, List.dropWhile_append_of_pos hdigits]
  cases rest with
  | nil => simp
  | cons c rest =>
      have hc : c.isDigit = false := by
        rcases hrest c rfl with rfl | rfl | rfl <;> rfl
      simp [hc]

/-- Only zero is written with a zero in front. -/
theorem toDigits_eq_cons {n : Nat} (hn : 0 < n) :
    ∃ d ds, Nat.toDigits 10 n = d :: ds ∧ d ≠ '0' := by
  induction n using Nat.strongRecOn with
  | _ n ih =>
      rcases Nat.lt_or_ge n 10 with h | h
      · refine ⟨_, [], Nat.toDigits_of_lt_base h, ?_⟩
        have hall : ∀ d < 10, 0 < d → Nat.digitChar d ≠ '0' := by decide
        exact hall n h hn
      · obtain ⟨d, ds, hds, hd⟩ := ih (n / 10) (by omega) (by omega)
        refine ⟨d, ds ++ [Nat.digitChar (n % 10)], ?_, hd⟩
        rw [Nat.toDigits_of_base_le (by omega) h, hds]
        rfl

theorem whole?_toDigits (n : Nat) {rest : List Char} (hrest : Closes rest) :
    Parser.whole? (Nat.toDigits 10 n ++ rest) = some (Nat.toDigits 10 n, rest) := by
  rcases Nat.eq_zero_or_pos n with rfl | hn
  · rfl
  · obtain ⟨d, ds, hds, hd⟩ := toDigits_eq_cons hn
    have hall : ∀ c ∈ Nat.toDigits 10 n, c.isDigit := fun c hc => isDigit_of_mem_toDigits hc
    rw [hds] at hall ⊢
    have htail : ∀ c ∈ ds, c.isDigit := fun c hc => hall c (List.mem_cons_of_mem _ hc)
    obtain ⟨htake, hdrop⟩ := takeWhile_isDigit_append htail hrest
    simp [Parser.whole?, hd, hall d (List.mem_cons_self ..), htake, hdrop]

theorem fraction?_closes {rest : List Char} (hrest : Closes rest) :
    Parser.fraction? rest = none := by
  unfold Parser.fraction?
  split
  · have := hrest '.' rfl
    simp at this
  · rfl

theorem exponent?_closes {rest : List Char} (hrest : Closes rest) :
    Parser.exponent? rest = none := by
  cases rest with
  | nil => rfl
  | cons c rest => rcases hrest c rfl with rfl | rfl | rfl <;> rfl

theorem toDigits_ne_minus (n : Nat) : ∀ cs, Nat.toDigits 10 n ≠ '-' :: cs := by
  intro cs h
  have hmem : '-' ∈ Nat.toDigits 10 n := by
    rw [h]
    exact List.mem_cons_self ..
  exact absurd (isDigit_of_mem_toDigits hmem) (by decide)

/-- An integer is read back, unless it has too many digits. -/
theorem number_renderInt (n : Int) {rest : List Char} (hrest : Closes rest) :
    Parser.number (renderInt n ++ rest) =
      if Reading.digitLimit < (Nat.toDigits 10 n.natAbs).length then
        .error (.tooManyDigits (Nat.toDigits 10 n.natAbs).length)
      else .ok (int n, rest) := by
  cases n with
  | ofNat n =>
      have hwhole := whole?_toDigits n hrest
      have hvalue := Reading.natOfDigits_toDigits n
      obtain ⟨d, ds, hds⟩ := List.exists_cons_of_ne_nil (Nat.toDigits_ne_nil (n := n) (b := 10))
      have hd : d ≠ '-' := by
        rintro rfl
        exact toDigits_ne_minus n ds hds
      rw [hds] at hwhole hvalue
      rw [List.cons_append] at hwhole
      simp [renderInt, Parser.number, hds, hd, hwhole, fraction?_closes hrest,
        exponent?_closes hrest, hvalue]
  | negSucc n =>
      simp only [renderInt, Parser.number, List.cons_append, whole?_toDigits _ hrest,
        fraction?_closes hrest, exponent?_closes hrest, Option.elim_none,
        Reading.natOfDigits_toDigits]
      rfl

theorem renderInt_eq_cons (n : Int) :
    ∃ c cs, renderInt n = c :: cs ∧ (c = '-' ∨ c.isDigit) := by
  cases n with
  | ofNat n =>
      obtain ⟨d, ds, hds⟩ := List.exists_cons_of_ne_nil (Nat.toDigits_ne_nil (n := n) (b := 10))
      have hmem : d ∈ Nat.toDigits 10 n := by
        rw [hds]
        exact List.mem_cons_self ..
      exact ⟨d, ds, hds, Or.inr (isDigit_of_mem_toDigits hmem)⟩
  | negSucc n => exact ⟨_, _, rfl, Or.inl rfl⟩

theorem ne_of_minus_or_isDigit {c d : Char} (hc : c = '-' ∨ c.isDigit) (hminus : '-' ≠ d)
    (hdigit : d.isDigit = false) : c ≠ d := by
  rintro rfl
  rcases hc with rfl | hc
  · exact hminus rfl
  · simp [hdigit] at hc

/-- No word is read in the place of an integer. -/
theorem scalar_renderInt (n : Int) {rest : List Char} :
    Parser.scalar (renderInt n ++ rest) = Parser.number (renderInt n ++ rest) := by
  have hwords : (Parser.words.findSome? fun w =>
      (Cut.after? w.1 (renderInt n ++ rest)).map (w.2, ·)) = none := by
    cases n with
    | ofNat n =>
        -- no word starts with a digit
        obtain ⟨c, cs, hcs, hc⟩ := renderInt_eq_cons (.ofNat n)
        have hne {d : Char} (hdigit : d.isDigit = false) (hminus : '-' ≠ d) : d ≠ c :=
          (ne_of_minus_or_isDigit hc hminus hdigit).symm
        have hminus : '-' ≠ c := by
          rintro rfl
          exact toDigits_ne_minus n cs hcs
        rw [hcs]
        simp [Parser.words, Cut.after?, hne, hminus]
    | negSucc n =>
        -- one word starts with a minus, and goes on with a letter
        obtain ⟨c, cs, hcs, hc⟩ := renderInt_eq_cons (n + 1 : Nat)
        have hne : 'I' ≠ c := (ne_of_minus_or_isDigit hc (by decide) (by decide)).symm
        have hrender : renderInt (.negSucc n) = '-' :: c :: cs := congrArg _ hcs
        rw [hrender]
        simp [Parser.words, Cut.after?, hne]
  rw [Parser.scalar, hwords]

/-! ## Documents -/

/-- The first character of a document: no blank, and no bracket that closes an array. -/
theorem render_eq_cons {v : Json} (hv : v.Plain) :
    ∃ c cs, v.render = c :: cs ∧ Parser.isSpace c = false ∧ c ≠ ']' := by
  cases hv with
  | null => exact ⟨_, _, rfl, rfl, by decide⟩
  | bool b => cases b <;> exact ⟨_, _, rfl, rfl, by decide⟩
  | @int n _ =>
      obtain ⟨c, cs, hcs, hc⟩ := renderInt_eq_cons n
      have hne {d : Char} (hminus : '-' ≠ d) (hdigit : d.isDigit = false) : c ≠ d :=
        ne_of_minus_or_isDigit hc hminus hdigit
      refine ⟨c, cs, hcs, ?_, hne (by decide) (by decide)⟩
      simp [Parser.isSpace, hne]
  | str _ => exact ⟨_, _, rfl, rfl, by decide⟩
  | arr _ => exact ⟨_, _, rfl, rfl, by decide⟩
  | obj _ _ _ => exact ⟨_, _, rfl, rfl, by decide⟩

theorem skip_of_not_isSpace {c : Char} (h : Parser.isSpace c = false) (cs : List Char) :
    Parser.skip (c :: cs) = c :: cs := by
  simp [Parser.skip, h]

theorem skip_render_append {v : Json} (hv : v.Plain) (rest : List Char) :
    Parser.skip (v.render ++ rest) = v.render ++ rest := by
  obtain ⟨c, cs, hcs, hspace, -⟩ := render_eq_cons hv
  rw [hcs]
  exact skip_of_not_isSpace hspace _

theorem skip_renderItems_append {item : Json} (hitem : item.Plain) (items : List Json)
    (rest : List Char) : Parser.skip (renderItems (item :: items) ++ rest) =
      renderItems (item :: items) ++ rest := by
  cases items with
  | nil => exact skip_render_append hitem rest
  | cons next items =>
      rw [renderItems, List.append_assoc]
      exact skip_render_append hitem _

theorem renderItems_eq_cons {item : Json} (hitem : item.Plain) (items : List Json) :
    ∃ c cs, renderItems (item :: items) = c :: cs ∧ c ≠ ']' := by
  obtain ⟨c, cs, hcs, -, hclose⟩ := render_eq_cons hitem
  cases items with
  | nil => exact ⟨c, cs, hcs, hclose⟩
  | cons next items =>
      exact ⟨c, cs ++ ',' :: ' ' :: renderItems (next :: items), by simp [renderItems, hcs],
        hclose⟩

theorem renderMembers_eq_cons (member : Text × Json) (members : Members) :
    ∃ cs, renderMembers (member :: members) = '"' :: cs := by
  obtain ⟨name, v⟩ := member
  cases members with
  | nil => exact ⟨_, rfl⟩
  | cons next members => exact ⟨_, rfl⟩

theorem scalar_word {v : Json} (word : List Char) (h : (word, v) ∈ Parser.words)
    (rest : List Char) : Parser.scalar (word ++ rest) = .ok (v, rest) := by
  simp only [Parser.words, List.mem_cons, Prod.mk.injEq, List.not_mem_nil, or_false] at h
  rcases h with ⟨rfl, rfl⟩ | ⟨rfl, rfl⟩ | ⟨rfl, rfl⟩ | ⟨rfl, rfl⟩ | ⟨rfl, rfl⟩ | ⟨rfl, rfl⟩ <;> rfl

theorem value_of_scalar {c : Char} (hquote : c ≠ '"') (harray : c ≠ '[') (hobject : c ≠ '\x7b')
    (fuel : Nat) (cs : List Char) : Parser.value (fuel + 1) (c :: cs) = Parser.scalar (c :: cs) := by
  simp [Parser.value, hquote, harray, hobject]

theorem value_renderInt (n : Int) (fuel : Nat) (rest : List Char) :
    Parser.value (fuel + 1) (renderInt n ++ rest) = Parser.number (renderInt n ++ rest) := by
  obtain ⟨c, cs, hcs, hc⟩ := renderInt_eq_cons n
  rw [← scalar_renderInt, hcs, List.cons_append]
  refine value_of_scalar ?_ ?_ ?_ fuel _
  all_goals exact ne_of_minus_or_isDigit hc (by decide) (by decide)

/-- The last item stands in front of the bracket. -/
theorem items_last {item : Json} {fuel : Nat} {cs rest : List Char}
    (hvalue : Parser.value fuel cs = .ok (item, ']' :: rest)) (done : List Json) :
    Parser.items (fuel + 1) done cs = .ok (arr (item :: done).reverse, rest) := by
  simp [Parser.items, hvalue, bind, Except.bind, Parser.skip, Parser.isSpace]

theorem items_more {item : Json} {fuel : Nat} {cs rest : List Char}
    (hvalue : Parser.value fuel cs = .ok (item, ',' :: ' ' :: rest)) (done : List Json) :
    Parser.items (fuel + 1) done cs = Parser.items fuel (item :: done) (Parser.skip rest) := by
  simp [Parser.items, hvalue, bind, Except.bind, Parser.skip, Parser.isSpace]

theorem put_of_not_mem {members : Members} {name : Text} (h : name ∉ members.map Prod.fst)
    (v : Json) : members.put name v = members ++ [(name, v)] := by
  have hhas : members.has name = false := by
    simp only [Members.has, List.any_eq_false, decide_eq_true_eq]
    rintro m hm rfl
    exact h (List.mem_map_of_mem hm)
  rw [Members.put, hhas]
  rfl

theorem not_mem_of_nodup {done members : Members} {name : Text} {v : Json}
    (h : ((done ++ (name, v) :: members).map Prod.fst).Nodup) : name ∉ done.map Prod.fst := by
  rw [List.map_append, List.nodup_append] at h
  exact fun hmem => h.2.2 name hmem name (by simp) rfl

/-- The last member stands in front of the brace. -/
theorem members_last {name : Text} (hname : name.Unpaired) {v : Json} {fuel : Nat}
    {cs rest : List Char} (hskip : Parser.skip cs = cs)
    (hvalue : Parser.value fuel cs = .ok (v, '\x7d' :: rest)) (done : Members) :
    Parser.members (fuel + 1) done (renderText name ++ ':' :: ' ' :: cs) =
      .ok (obj (done.put name v), rest) := by
  have hread := string_renderText hname (':' :: ' ' :: cs)
  have hblank : Parser.skip (' ' :: cs) = cs := hskip
  rw [renderText, List.cons_append, List.cons_append] at hread ⊢
  simp only [Parser.members, hread, bind, Except.bind]
  simp [skip_of_not_isSpace, Parser.isSpace, hblank, hvalue]

theorem members_more {name : Text} (hname : name.Unpaired) {v : Json} {fuel : Nat}
    {cs rest : List Char} (hskip : Parser.skip cs = cs)
    (hvalue : Parser.value fuel cs = .ok (v, ',' :: ' ' :: rest)) (done : Members) :
    Parser.members (fuel + 1) done (renderText name ++ ':' :: ' ' :: cs) =
      Parser.members fuel (done.put name v) (Parser.skip rest) := by
  have hread := string_renderText hname (':' :: ' ' :: cs)
  have hblank : Parser.skip (' ' :: cs) = cs := hskip
  have hblank' : Parser.skip (' ' :: rest) = Parser.skip rest := rfl
  rw [renderText, List.cons_append, List.cons_append] at hread ⊢
  simp only [Parser.members, hread, bind, Except.bind]
  simp [skip_of_not_isSpace, Parser.isSpace, hblank, hblank', hvalue]

mutual

theorem value_render : (v : Json) → v.Plain → ∀ (fuel : Nat) (rest : List Char),
    2 * v.render.length ≤ fuel + 1 → Closes rest →
      Parser.value (fuel + 1) (v.render ++ rest) = .ok (v, rest)
  | null, _, fuel, rest, _, _ =>
      (value_of_scalar (by decide) (by decide) (by decide) fuel _).trans
        (scalar_word "null".toList (by simp [Parser.words]) rest)
  | bool true, _, fuel, rest, _, _ =>
      (value_of_scalar (by decide) (by decide) (by decide) fuel _).trans
        (scalar_word "true".toList (by simp [Parser.words]) rest)
  | bool false, _, fuel, rest, _, _ =>
      (value_of_scalar (by decide) (by decide) (by decide) fuel _).trans
        (scalar_word "false".toList (by simp [Parser.words]) rest)
  | int n, hplain, fuel, rest, _, hrest => by
      cases hplain with
      | int hdigits =>
          rw [render, value_renderInt, number_renderInt n hrest, if_neg (Nat.not_lt.mpr hdigits)]
  | float x, hplain, _, _, _, _ => nomatch hplain
  | str t, hplain, fuel, rest, _, _ => by
      cases hplain with
      | str htext =>
          have hread := string_renderText htext rest
          rw [renderText, List.cons_append, List.cons_append] at hread
          simp only [render, renderText, List.cons_append, Parser.value, if_true, hread, bind,
            Except.bind]
  | arr [], _, fuel, rest, _, _ => by
      simp [render, renderItems, Parser.value, Parser.skip, Parser.isSpace]
  | arr (item :: items), hplain, fuel, rest, hfuel, _ => by
      cases hplain with
      | arr hitems =>
          simp only [render, List.length_cons, List.length_append, List.length_nil] at hfuel
          obtain ⟨fuel, rfl⟩ : ∃ f, fuel = f + 2 := ⟨fuel - 2, by omega⟩
          -- the two brackets pay for the step into the list
          have hread := items_renderItems (item :: items) (by simp) hitems fuel [] rest (by omega)
          have hskip := skip_renderItems_append (hitems item (List.mem_cons_self ..)) items
            (']' :: rest)
          obtain ⟨c, cs, hcs, hclose⟩ := renderItems_eq_cons
            (hitems item (List.mem_cons_self ..)) items
          rw [hcs, List.cons_append] at hread hskip
          simp [render, hcs, Parser.value, hskip, hclose, hread]
  | obj [], _, fuel, rest, _, _ => by
      simp [render, renderMembers, Parser.value, Parser.skip, Parser.isSpace]
  | obj (member :: members), hplain, fuel, rest, hfuel, _ => by
      cases hplain with
      | obj hdistinct hnames hvalues =>
          simp only [render, List.length_cons, List.length_append, List.length_nil] at hfuel
          obtain ⟨fuel, rfl⟩ : ∃ f, fuel = f + 2 := ⟨fuel - 2, by omega⟩
          -- the two braces pay for the step into the members
          have hread := members_renderMembers (member :: members) (by simp) hnames hvalues fuel []
            rest hdistinct (by omega)
          obtain ⟨cs, hcs⟩ := renderMembers_eq_cons member members
          rw [hcs, List.cons_append] at hread
          simp [render, hcs, Parser.value, skip_of_not_isSpace, Parser.isSpace, hread]

theorem items_renderItems : (items : List Json) → items ≠ [] → (∀ item ∈ items, item.Plain) →
    ∀ (fuel : Nat) (done : List Json) (rest : List Char),
      2 * (renderItems items).length ≤ fuel + 1 →
        Parser.items (fuel + 2) done (renderItems items ++ ']' :: rest) =
          .ok (arr (done.reverse ++ items), rest)
  | [], hne, _, _, _, _, _ => absurd rfl hne
  | [item], _, hitems, fuel, done, rest, hfuel => by
      have hitem := value_render item (hitems item (List.mem_cons_self ..)) fuel (']' :: rest)
        hfuel (closes_cons (by simp) rest)
      rw [renderItems, items_last hitem]
      simp
  | item :: next :: items, _, hitems, fuel, done, rest, hfuel => by
      simp only [renderItems, List.length_append, List.length_cons] at hfuel
      have hitem := value_render item (hitems item (List.mem_cons_self ..)) fuel
        (',' :: ' ' :: (renderItems (next :: items) ++ ']' :: rest)) (by omega)
        (closes_cons (by simp) _)
      obtain ⟨fuel, rfl⟩ : ∃ f, fuel = f + 1 := ⟨fuel - 1, by omega⟩
      have hitems' : ∀ item ∈ next :: items, item.Plain :=
        fun i hi => hitems i (List.mem_cons_of_mem _ hi)
      have hskip : Parser.skip (renderItems (next :: items) ++ ']' :: rest) =
          renderItems (next :: items) ++ ']' :: rest :=
        skip_renderItems_append (hitems' next (List.mem_cons_self ..)) items _
      have hrest := items_renderItems (next :: items) (by simp) hitems' fuel (item :: done) rest
        (by omega)
      rw [renderItems, List.append_assoc, List.cons_append, List.cons_append, items_more hitem,
        hskip, hrest]
      simp

theorem members_renderMembers : (members : Members) → members ≠ [] →
    (∀ m ∈ members, Text.Unpaired m.1) → (∀ m ∈ members, m.2.Plain) →
    ∀ (fuel : Nat) (done : Members) (rest : List Char),
      ((done ++ members).map Prod.fst).Nodup → 2 * (renderMembers members).length ≤ fuel + 1 →
        Parser.members (fuel + 2) done (renderMembers members ++ '\x7d' :: rest) =
          .ok (obj (done ++ members), rest)
  | [], hne, _, _, _, _, _, _, _ => absurd rfl hne
  | [(name, v)], _, hnames, hvalues, fuel, done, rest, hdistinct, hfuel => by
      have hplain : v.Plain := hvalues _ (List.mem_cons_self ..)
      simp only [renderMembers, List.length_append, List.length_cons] at hfuel
      have hvalue := value_render v hplain fuel ('\x7d' :: rest) (by omega)
        (closes_cons (by simp) rest)
      have hnew : name ∉ done.map Prod.fst := not_mem_of_nodup hdistinct
      rw [renderMembers, List.append_assoc, List.cons_append, List.cons_append,
        members_last (hnames _ (List.mem_cons_self ..)) (skip_render_append hplain _) hvalue,
        put_of_not_mem hnew]
  | (name, v) :: next :: members, _, hnames, hvalues, fuel, done, rest, hdistinct, hfuel => by
      have hplain : v.Plain := hvalues _ (List.mem_cons_self ..)
      simp only [renderMembers, List.length_append, List.length_cons] at hfuel
      have hvalue := value_render v hplain fuel
        (',' :: ' ' :: (renderMembers (next :: members) ++ '\x7d' :: rest)) (by omega)
        (closes_cons (by simp) _)
      obtain ⟨fuel, rfl⟩ : ∃ f, fuel = f + 1 := ⟨fuel - 1, by omega⟩
      have hnew : name ∉ done.map Prod.fst := not_mem_of_nodup hdistinct
      have hnames' : ∀ m ∈ next :: members, Text.Unpaired m.1 :=
        fun m hm => hnames m (List.mem_cons_of_mem _ hm)
      have hvalues' : ∀ m ∈ next :: members, m.2.Plain :=
        fun m hm => hvalues m (List.mem_cons_of_mem _ hm)
      have hrest := members_renderMembers (next :: members) (by simp) hnames' hvalues' fuel
        (done ++ [(name, v)]) rest (by simpa using hdistinct) (by omega)
      obtain ⟨cs, hcs⟩ := renderMembers_eq_cons next members
      have hskip : Parser.skip (renderMembers (next :: members) ++ '\x7d' :: rest) =
          renderMembers (next :: members) ++ '\x7d' :: rest := by
        rw [hcs]
        exact skip_of_not_isSpace rfl _
      have hshape : renderMembers ((name, v) :: next :: members) ++ '\x7d' :: rest =
          renderText name ++ ':' :: ' ' ::
            (v.render ++ ',' :: ' ' :: (renderMembers (next :: members) ++ '\x7d' :: rest)) := by
        simp [renderMembers]
      rw [hshape, members_more (hnames _ (List.mem_cons_self ..)) (skip_render_append hplain _)
        hvalue, put_of_not_mem hnew, hskip, hrest]
      simp

end

/-- A printed document is read from its first character on. -/
theorem document_of_value {cs : List Char} {c : Char} {rest : List Char} (hcs : cs = c :: rest)
    (hascii : IsPrintedAscii c) (hspace : Parser.isSpace c = false) :
    Parser.document cs =
      Parser.value (2 * cs.length + 2) cs >>= fun read =>
        match Parser.skip read.2 with
        | [] => .ok read.1
        | rest => .error (.here .extraData rest) := by
  have hskip : Parser.skip cs = cs := by
    rw [hcs]
    exact skip_of_not_isSpace hspace rest
  unfold Parser.document
  split
  · obtain ⟨rfl, -⟩ := List.cons_eq_cons.mp hcs
    exact absurd hascii (by decide)
  · exact congrArg (· >>= _) (congrArg (Parser.value _) hskip)

/-- **The printed form of a plain document parses to the document.** -/
theorem parse_render {v : Json} (hv : v.Plain) : parse v.render = .ok v := by
  obtain ⟨c, cs, hcs, hspace, -⟩ := render_eq_cons hv
  have hascii : IsPrintedAscii c :=
    onOneLine_render v c (hcs ▸ List.mem_cons_self ..)
  have hvalue : Parser.value (2 * v.render.length + 2) v.render = .ok (v, []) := by
    simpa using value_render v hv (2 * v.render.length + 1) [] (by omega) closes_nil
  rw [parse, document_of_value hcs hascii hspace, hvalue]
  rfl

/-- An integer with too many digits is refused, in another way than what is no document. -/
theorem parse_render_of_long {n : Int}
    (hn : ¬ Reading.IsShort n.natAbs) :
    parse (int n).render = .error (.tooManyDigits (Nat.toDigits 10 n.natAbs).length) := by
  obtain ⟨c, cs, hcs, hc⟩ := renderInt_eq_cons n
  have hascii : IsPrintedAscii c :=
    onOneLine_render (int n) c (hcs ▸ List.mem_cons_self .. : c ∈ renderInt n)
  have hspace : Parser.isSpace c = false := by
    have hne {d : Char} (hminus : '-' ≠ d) (hdigit : d.isDigit = false) : c ≠ d :=
      ne_of_minus_or_isDigit hc hminus hdigit
    simp [Parser.isSpace, hne]
  have hvalue := value_renderInt n (2 * (renderInt n).length + 1) []
  rw [number_renderInt n closes_nil, if_pos (Nat.not_le.mp hn), List.append_nil] at hvalue
  rw [render, parse, document_of_value hcs hascii hspace, hvalue]
  rfl

end LanguageClient.Json
