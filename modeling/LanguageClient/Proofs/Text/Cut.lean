import LanguageClient.Text.CodePoint
import Mathlib.Data.List.Infix
import Mathlib.Data.List.TakeWhile
import Mathlib.Tactic.Common

/-!
# Cutting at a mark

The functions of `Cut` carry what they have passed in reverse.  Here each of them is described
by the lists alone: `first?` finds the first occurrence of the mark and nothing else, what it
finds stays where it is when the list grows at its end, and `split` is `first?` repeated on
what is left.
-/

namespace LanguageClient.Cut

variable {α : Type} [DecidableEq α] {mark list more before rest : List α}

/-! ## A start -/

theorem after?_nil (list : List α) : after? [] list = some list := rfl

theorem after?_cons_nil (m : α) (mark : List α) : after? (m :: mark) [] = none := rfl

theorem after?_cons_cons (m a : α) (mark list : List α) :
    after? (m :: mark) (a :: list) = if m = a then after? mark list else none := rfl

theorem after?_eq_some_iff : after? mark list = some rest ↔ list = mark ++ rest := by
  induction mark generalizing list with
  | nil => simp [after?_nil]
  | cons m mark ih =>
      cases list with
      | nil => simp [after?_cons_nil]
      | cons a list =>
          by_cases h : m = a
          · subst h
            simp [after?_cons_cons, ih]
          · simp [after?_cons_cons, h, Ne.symm h]

@[simp] theorem after?_append : after? mark (mark ++ rest) = some rest :=
  after?_eq_some_iff.2 rfl

theorem after?_eq_none_iff : after? mark list = none ↔ ¬ mark <+: list := by
  constructor
  · rintro h ⟨rest, rfl⟩
    simp at h
  · intro h
    cases hafter : after? mark list with
    | none => rfl
    | some rest => exact absurd ⟨rest, (after?_eq_some_iff.1 hafter).symm⟩ h

/-! ## The first occurrence -/

theorem firstFrom_nil (mark passed : List α) :
    firstFrom mark passed [] = if mark.isEmpty then some (passed.reverse, []) else none := rfl

theorem firstFrom_cons (mark passed : List α) (a : α) (list : List α) :
    firstFrom mark passed (a :: list) =
      match after? mark (a :: list) with
      | some rest => some (passed.reverse, rest)
      | none => firstFrom mark (a :: passed) list := rfl

theorem firstFrom_eq (passed : List α) :
    firstFrom mark passed list =
      (first? mark list).map fun found => (passed.reverse ++ found.1, found.2) := by
  unfold first?
  induction list generalizing passed with
  | nil => by_cases h : mark.isEmpty <;> simp [firstFrom_nil, h]
  | cons a list ih =>
      rw [firstFrom_cons, firstFrom_cons]
      cases after? mark (a :: list) with
      | some rest => simp
      | none =>
          rw [ih (a :: passed), ih [a]]
          simp [Function.comp_def]

@[simp] theorem first?_nil (hmark : mark ≠ []) : first? mark [] = none := by
  simp [first?, firstFrom_nil, hmark]

theorem first?_cons (a : α) (list : List α) :
    first? mark (a :: list) =
      match after? mark (a :: list) with
      | some rest => some ([], rest)
      | none => (first? mark list).map fun found => (a :: found.1, found.2) := by
  rw [first?, firstFrom_cons]
  cases after? mark (a :: list) with
  | some rest => rfl
  | none => simp [firstFrom_eq]

theorem first?_mark_append (hmark : mark ≠ []) (rest : List α) :
    first? mark (mark ++ rest) = some ([], rest) := by
  obtain ⟨m, mark, rfl⟩ := List.exists_cons_of_ne_nil hmark
  have hafter : after? (m :: mark) (m :: mark ++ rest) = some rest := after?_append
  rw [List.cons_append] at hafter ⊢
  rw [first?_cons, hafter]

/-- What is found is an occurrence of the mark. -/
theorem eq_of_first? (hmark : mark ≠ []) (h : first? mark list = some (before, rest)) :
    list = before ++ mark ++ rest := by
  induction list generalizing before with
  | nil => simp [hmark] at h
  | cons a list ih =>
      rw [first?_cons] at h
      cases hafter : after? mark (a :: list) with
      | some found =>
          rw [hafter] at h
          obtain ⟨rfl, rfl⟩ : [] = before ∧ found = rest := by simpa using h
          simpa using after?_eq_some_iff.1 hafter
      | none =>
          rw [hafter] at h
          obtain ⟨⟨found, left⟩, hfound, heq⟩ := Option.map_eq_some_iff.mp h
          obtain ⟨rfl, rfl⟩ : a :: found = before ∧ left = rest := by simpa using heq
          simp [ih hfound]

theorem first?_ne_none (x y : List α) : first? mark (x ++ mark ++ y) ≠ none := by
  induction x with
  | nil =>
      cases mark with
      | nil => cases y <;> simp [first?, firstFrom_nil, firstFrom_cons, after?_nil]
      | cons m mark =>
          have hafter : after? (m :: mark) (m :: mark ++ y) = some y := after?_append
          rw [List.cons_append] at hafter
          simp [first?_cons, hafter]
  | cons a x ih =>
      rw [List.cons_append, List.cons_append, first?_cons]
      cases after? mark (a :: (x ++ mark ++ y)) with
      | some rest => simp
      | none => simpa using ih

theorem first?_eq_none_iff (hmark : mark ≠ []) : first? mark list = none ↔ ¬ mark <:+: list := by
  constructor
  · rintro h ⟨x, y, rfl⟩
    exact first?_ne_none x y h
  · intro h
    cases hfirst : first? mark list with
    | none => rfl
    | some found =>
        exact absurd ⟨found.1, found.2, (eq_of_first? hmark hfirst).symm⟩ h

/-- What is found is found again when the list grows. -/
theorem first?_append (hmark : mark ≠ []) (h : first? mark list = some (before, rest))
    (more : List α) : first? mark (list ++ more) = some (before, rest ++ more) := by
  induction list generalizing before with
  | nil => simp [hmark] at h
  | cons a list ih =>
      rw [first?_cons] at h
      rw [List.cons_append, first?_cons]
      cases hafter : after? mark (a :: list) with
      | some found =>
          rw [hafter] at h
          obtain ⟨rfl, rfl⟩ : [] = before ∧ found = rest := by simpa using h
          have hgrown : after? mark (a :: (list ++ more)) = some (found ++ more) := by
            rw [after?_eq_some_iff, ← List.cons_append, after?_eq_some_iff.1 hafter,
              List.append_assoc]
          simp [hgrown]
      | none =>
          rw [hafter] at h
          obtain ⟨⟨found, left⟩, hfound, heq⟩ := Option.map_eq_some_iff.mp h
          obtain ⟨rfl, rfl⟩ : a :: found = before ∧ left = rest := by simpa using heq
          -- the list is long enough to hold a mark that starts at `a`
          have hlength : mark.length ≤ (a :: list).length := by
            rw [eq_of_first? hmark hfound]
            simp only [List.length_cons, List.length_append]
            omega
          have hgrown : after? mark (a :: (list ++ more)) = none := by
            rw [after?_eq_none_iff] at hafter ⊢
            intro hprefix
            exact hafter (List.prefix_of_prefix_length_le hprefix
              (List.prefix_append (a :: list) more) hlength)
          simp [hgrown, ih hfound]

/-- An element that is not in the mark parts a list: the mark lies before or behind it. -/
theorem first?_append_cons (hmark : mark ≠ []) {c : α} (hc : c ∉ mark) (hfree : ¬ mark <:+: list)
    (more : List α) :
    first? mark (list ++ c :: more) =
      (first? mark more).map fun found => (list ++ c :: found.1, found.2) := by
  induction list with
  | nil =>
      have hafter : after? mark (c :: more) = none := by
        rw [after?_eq_none_iff]
        rintro ⟨rest, hrest⟩
        obtain ⟨m, mark, rfl⟩ := List.exists_cons_of_ne_nil hmark
        obtain ⟨rfl, -⟩ := List.cons_eq_cons.mp hrest
        exact hc (List.mem_cons_self ..)
      simp [first?_cons, hafter]
  | cons a list ih =>
      have hafter : after? mark (a :: (list ++ c :: more)) = none := by
        rw [after?_eq_none_iff]
        intro hprefix
        by_cases hlength : mark.length ≤ (a :: list).length
        · exact hfree (List.prefix_of_prefix_length_le hprefix
            (List.prefix_append (a :: list) (c :: more)) hlength).isInfix
        · -- the mark would have to reach beyond `c`
          have hsplit : a :: list ++ [c] <+: mark :=
            List.prefix_of_prefix_length_le ⟨more, by simp⟩ hprefix
              (by simp only [List.length_append, List.length_cons, List.length_nil] at hlength ⊢
                  omega)
          exact hc (hsplit.subset (by simp))
      have hfree' : ¬ mark <:+: list := fun h => hfree (h.trans (List.suffix_cons a list).isInfix)
      rw [List.cons_append, first?_cons, hafter, ih hfree']
      simp [Function.comp_def]

/-- Nothing is found among elements that are not in the mark. -/
theorem first?_append_of_disjoint (hmark : mark ≠ []) (hlist : ∀ c ∈ list, c ∉ mark)
    (more : List α) :
    first? mark (list ++ more) =
      (first? mark more).map fun found => (list ++ found.1, found.2) := by
  induction list with
  | nil => simp
  | cons a list ih =>
      have ha : a ∉ mark := hlist a (List.mem_cons_self ..)
      have hempty : ¬ mark <:+: [] := by simpa using hmark
      rw [List.cons_append, ← List.nil_append (a :: (list ++ more)),
        first?_append_cons hmark ha hempty, ih fun c hc => hlist c (List.mem_cons_of_mem _ hc)]
      simp [Function.comp_def]

theorem first?_of_disjoint (hmark : mark ≠ []) (hlist : ∀ c ∈ list, c ∉ mark) :
    first? mark list = none := by
  simpa [hmark] using first?_append_of_disjoint hmark hlist []

/-! ## A single element -/

@[simp] theorem at?_append_cons {a : α} (h : a ∉ before) (rest : List α) :
    at? a (before ++ a :: rest) = some (before, rest) := by
  have hdisjoint : ∀ c ∈ before, c ∉ [a] := by
    rintro c hc hca
    exact h (List.mem_singleton.mp hca ▸ hc)
  rw [at?, first?_append_of_disjoint (by simp) hdisjoint]
  simp [first?_cons, after?_cons_cons, after?_nil]

theorem at?_of_not_mem {a : α} (h : a ∉ list) : at? a list = none := by
  refine first?_of_disjoint (by simp) fun c hc hca => ?_
  exact h (List.mem_singleton.mp hca ▸ hc)

/-- What stands around the element where it is met first. -/
theorem at?_getD (a : α) (list : List α) :
    (at? a list).getD (list, []) =
      (list.takeWhile (fun b => b != a), (list.dropWhile (fun b => b != a)).tail) := by
  by_cases h : a ∈ list
  · obtain ⟨before, rest, rfl, hnot⟩ := List.eq_append_cons_of_mem h
    have hbefore : ∀ b ∈ before, (b != a) = true := by
      rintro b hb
      exact bne_iff_ne.mpr fun heq => hnot (heq ▸ hb)
    rw [at?_append_cons hnot, List.takeWhile_append_of_pos hbefore,
      List.dropWhile_append_of_pos hbefore]
    simp
  · have hlist : ∀ b ∈ list, (b != a) = true := fun b hb => bne_iff_ne.mpr fun heq => h (heq ▸ hb)
    rw [at?_of_not_mem h, List.takeWhile_eq_self_iff.mpr hlist, List.dropWhile_eq_nil_iff.mpr hlist]
    rfl

/-! ## The ends -/

omit [DecidableEq α] in
theorem trim_append_left {p : α → Bool} (h : ∀ a ∈ list, p a) (more : List α) :
    trim p (list ++ more) = trim p more := by
  rw [trim, trim, List.dropWhile_append_of_pos h]

omit [DecidableEq α] in
theorem trim_append_right {p : α → Bool} (h : ∀ a ∈ more, p a) (list : List α) :
    trim p (list ++ more) = trim p list := by
  have hback : ∀ a ∈ more.reverse, p a := fun a ha => h a (List.mem_reverse.mp ha)
  rw [trim, trim, List.dropWhile_append]
  split
  · rename_i hempty
    rw [List.isEmpty_iff.mp hempty, List.dropWhile_eq_nil_iff.mpr h]
  · rw [dropTrailing, List.reverse_append, List.dropWhile_append_of_pos hback, dropTrailing]

omit [DecidableEq α] in
/-- What is taken away at the ends satisfies the predicate. -/
theorem exists_eq_trim (p : α → Bool) (list : List α) :
    ∃ front back, list = front ++ trim p list ++ back ∧ (∀ a ∈ front, p a) ∧ ∀ a ∈ back, p a := by
  refine ⟨list.takeWhile p, ((list.dropWhile p).reverse.takeWhile p).reverse, ?_,
    fun a ha => List.mem_takeWhile_imp ha,
    fun a ha => List.mem_takeWhile_imp (List.mem_reverse.mp ha)⟩
  rw [trim, dropTrailing, List.append_assoc, ← List.reverse_append, List.takeWhile_append_dropWhile,
    List.reverse_reverse, List.takeWhile_append_dropWhile]

omit [DecidableEq α] in
/-- A first element that does not satisfy the predicate stays. -/
theorem trim_cons {p : α → Bool} {a : α} (ha : ¬ p a) (list : List α) :
    ∃ kept, trim p (a :: list) = a :: kept := by
  rw [trim, List.dropWhile_cons_of_neg ha, dropTrailing, List.reverse_cons, List.dropWhile_append]
  split
  · exact ⟨[], by simp [ha]⟩
  · exact ⟨(list.reverse.dropWhile p).reverse, by simp⟩

omit [DecidableEq α] in
/-- A first and a last element that do not satisfy the predicate keep everything in place. -/
theorem trim_of_not {p : α → Bool} {a : α} (ha : ¬ p a) (more : List α)
    (hlast : ¬ p ((a :: more).getLast (by simp))) : trim p (a :: more) = a :: more := by
  obtain ⟨b, back, hback⟩ := List.exists_cons_of_ne_nil
    (show (a :: more).reverse ≠ [] by simp)
  have hb : ¬ p b := by
    have hhead : (a :: more).reverse.head (by simp) = b := by simp [hback]
    rwa [← hhead, List.head_reverse]
  rw [trim, List.dropWhile_cons_of_neg ha, dropTrailing, hback, List.dropWhile_cons_of_neg hb,
    ← hback, List.reverse_reverse]

omit [DecidableEq α] in
theorem trim_of_forall_not {p : α → Bool} (h : ∀ a ∈ list, ¬ p a) : trim p list = list := by
  cases list with
  | nil => rfl
  | cons a more => exact trim_of_not (h a (by simp)) more (h _ (List.getLast_mem _))

/-! ## All pieces -/

theorem splitFrom_nil (mark current : List α) (done : List (List α)) (skip : Nat) :
    splitFrom mark current done skip [] = (current.reverse :: done).reverse := rfl

theorem splitFrom_cons_zero (mark current : List α) (done : List (List α)) (a : α) (list : List α) :
    splitFrom mark current done 0 (a :: list) =
      if (after? mark (a :: list)).isSome then
        splitFrom mark [] (current.reverse :: done) (mark.length - 1) list
      else splitFrom mark (a :: current) done 0 list := rfl

theorem splitFrom_cons_succ (mark current : List α) (done : List (List α)) (skip : Nat) (a : α)
    (list : List α) :
    splitFrom mark current done (skip + 1) (a :: list) = splitFrom mark current done skip list := rfl

theorem splitFrom_done (current : List α) (done : List (List α)) (skip : Nat) (list : List α) :
    splitFrom mark current done skip list = done.reverse ++ splitFrom mark current [] skip list := by
  induction list generalizing current done skip with
  | nil => simp [splitFrom_nil]
  | cons a list ih =>
      cases skip with
      | succ skip => exact ih current done skip
      | zero =>
          rw [splitFrom_cons_zero, splitFrom_cons_zero]
          split
          · rw [ih [] (current.reverse :: done), ih [] [current.reverse]]
            simp
          · exact ih (a :: current) done 0

theorem splitFrom_skip (current : List α) (skip : Nat) (list : List α) :
    splitFrom mark current [] skip list = splitFrom mark current [] 0 (list.drop skip) := by
  induction list generalizing skip with
  | nil => rw [List.drop_nil, splitFrom_nil, splitFrom_nil]
  | cons a list ih =>
      cases skip with
      | zero => rfl
      | succ skip => rw [splitFrom_cons_succ, List.drop_succ_cons, ih]

theorem splitFrom_zero (hmark : mark ≠ []) (current list : List α) :
    splitFrom mark current [] 0 list =
      match first? mark list with
      | none => [current.reverse ++ list]
      | some (before, rest) => (current.reverse ++ before) :: split mark rest := by
  induction list generalizing current with
  | nil => simp [splitFrom_nil, hmark]
  | cons a list ih =>
      rw [splitFrom_cons_zero, first?_cons]
      cases hafter : after? mark (a :: list) with
      | some rest =>
          have hdrop : list.drop (mark.length - 1) = rest := by
            obtain ⟨m, mark, rfl⟩ := List.exists_cons_of_ne_nil hmark
            obtain ⟨-, rfl⟩ := List.cons_eq_cons.mp (after?_eq_some_iff.1 hafter)
            simp
          rw [Option.isSome_some, if_pos rfl, splitFrom_done, splitFrom_skip, hdrop]
          simp [split]
      | none =>
          rw [Option.isSome_none, if_neg (by simp), ih (a :: current)]
          cases first? mark list <;> simp

/-- Splitting is cutting at the first occurrence, and splitting what follows it. -/
theorem split_eq (hmark : mark ≠ []) (list : List α) :
    split mark list =
      match first? mark list with
      | none => [list]
      | some (before, rest) => before :: split mark rest := by
  rw [split, splitFrom_zero hmark]
  rfl

/-- The pieces that are joined by the mark are found again. -/
theorem split_intercalate (hmark : mark ≠ []) {pieces : List (List α)} (hne : pieces ≠ [])
    (hpieces : ∀ piece ∈ pieces, ∀ c ∈ piece, c ∉ mark) :
    split mark (List.intercalate mark pieces) = pieces := by
  induction pieces with
  | nil => exact absurd rfl hne
  | cons piece pieces ih =>
      have hpiece := hpieces piece (List.mem_cons_self ..)
      cases pieces with
      | nil => rw [List.intercalate_singleton, split_eq hmark, first?_of_disjoint hmark hpiece]
      | cons next pieces =>
          rw [List.intercalate_cons_cons, List.append_assoc, split_eq hmark,
            first?_append_of_disjoint hmark hpiece, first?_mark_append hmark]
          simp [ih (List.cons_ne_nil _ _) fun p hp => hpieces p (List.mem_cons_of_mem _ hp)]

theorem split_ne_nil (hmark : mark ≠ []) (list : List α) : split mark list ≠ [] := by
  rw [split_eq hmark]
  split <;> simp

/-- Every piece is a part of the list. -/
theorem isInfix_of_mem_split (hmark : mark ≠ []) {piece : List α} (h : piece ∈ split mark list) :
    piece <:+: list := by
  induction hlength : list.length using Nat.strong_induction_on generalizing list with
  | _ n ih =>
      rw [split_eq hmark] at h
      cases hfirst : first? mark list with
      | none =>
          rw [hfirst] at h
          obtain rfl : piece = list := by simpa using h
          exact List.infix_rfl
      | some found =>
          rw [hfirst] at h
          have heq : list = found.1 ++ mark ++ found.2 := eq_of_first? hmark hfirst
          rcases List.mem_cons.mp h with rfl | h
          · exact ⟨[], mark ++ found.2, by rw [heq]; simp⟩
          · have hlt : found.2.length < n := by
              have := List.length_pos_iff.mpr hmark
              rw [← hlength, heq]
              simp only [List.length_append]
              omega
            exact (ih _ hlt h rfl).trans ⟨found.1 ++ mark, [], by rw [heq]; simp⟩

/-- Elements that are not in the mark belong to the last piece. -/
theorem split_append (hmark : mark ≠ []) (hmore : ∀ c ∈ more, c ∉ mark) (list : List α) :
    split mark (list ++ more) =
      (split mark list).dropLast ++ [(split mark list).getLast (split_ne_nil hmark list) ++ more] := by
  induction hlength : list.length using Nat.strong_induction_on generalizing list with
  | _ n ih =>
      cases hfirst : first? mark list with
      | none =>
          have hwhole : split mark list = [list] := by rw [split_eq hmark, hfirst]
          -- nothing new is found where the two lists meet
          have hnone : first? mark (list ++ more) = none := by
            cases more with
            | nil => simpa using hfirst
            | cons c more =>
                rw [first?_append_cons hmark (hmore c (List.mem_cons_self ..))
                  ((first?_eq_none_iff hmark).1 hfirst),
                  first?_of_disjoint hmark fun d hd => hmore d (List.mem_cons_of_mem _ hd)]
                rfl
          rw [split_eq hmark, hnone]
          simp [hwhole]
      | some found =>
          obtain ⟨before, rest⟩ := found
          have hcut : split mark list = before :: split mark rest := by
            rw [split_eq hmark, hfirst]
          have hlt : rest.length < n := by
            have := List.length_pos_iff.mpr hmark
            rw [← hlength, eq_of_first? hmark hfirst]
            simp only [List.length_append]
            omega
          rw [split_eq hmark, first?_append hmark hfirst]
          simp [hcut, ih _ hlt rest rfl, List.dropLast_cons_of_ne_nil (split_ne_nil hmark rest),
            List.getLast_cons (split_ne_nil hmark rest)]

end LanguageClient.Cut
