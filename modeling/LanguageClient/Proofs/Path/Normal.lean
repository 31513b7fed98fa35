import LanguageClient.Path
import LanguageClient.Proofs.Text.Cut
import LanguageClient.Proofs.Text.Name

/-!
# Normalized paths

A path is normalized to its root and the components that are left when `..` has been resolved.
Normalizing again changes nothing (`normalize_normalize`): none of these components is empty or a dot,
none has a slash, and none is taken back by a `..` behind it.  A path that is spelled by bytes stays
one: components are cut out at slashes, which are ASCII bytes.

## Strategy

A list is taken apart at its marks from left to right (`Cut.marks`).  With that, what a path is made
of is one list of components, and both joining and resolving are statements about such lists.  What
has been resolved is a list to which every component was added without taking one back (`Settled`), so
resolving it again goes the same way.
-/

namespace LanguageClient

/-! ## Pieces between marks -/

namespace Cut

variable {α : Type} [DecidableEq α] {mark : α}

/-- A list is taken apart at its marks. -/
theorem marks (mark : α) {P : List α → Prop} (last : ∀ list, mark ∉ list → P list)
    (cut : ∀ front rest, mark ∉ front → P rest → P (front ++ mark :: rest)) : ∀ list, P list := by
  suffices ∀ n list, list.length ≤ n → P list from fun list => this _ list (Nat.le_refl _)
  intro n
  induction n with
  | zero =>
      intro list h
      rw [List.eq_nil_of_length_eq_zero (Nat.le_zero.mp h)]
      exact last [] List.not_mem_nil
  | succ n ih =>
      intro list hlength
      by_cases hmem : mark ∈ list
      · obtain ⟨front, rest, rfl, hfront⟩ := List.eq_append_cons_of_mem hmem
        simp only [List.length_append, List.length_cons] at hlength
        exact cut front rest hfront (ih rest (by omega))
      · exact last list hmem

/-- One element more: it closes a piece or belongs to it. -/
def piece (mark : α) (state : List α × List (List α)) (a : α) : List α × List (List α) :=
  if a = mark then ([], state.1.reverse :: state.2) else (a :: state.1, state.2)

theorem pieces_eq (list : List α) :
    pieces mark list = ((list.foldl (piece mark) ([], [])).1.reverse ::
      (list.foldl (piece mark) ([], [])).2).reverse := rfl

theorem foldl_piece_of_not_mem {list : List α} (h : mark ∉ list) (state : List α × List (List α)) :
    list.foldl (piece mark) state = (list.reverse ++ state.1, state.2) := by
  induction list generalizing state with
  | nil => rfl
  | cons a list ih =>
      obtain ⟨ha, hlist⟩ := List.ne_and_not_mem_of_not_mem_cons h
      rw [List.foldl_cons, ih hlist, piece, if_neg (Ne.symm ha)]
      simp

theorem foldl_piece_done (list current : List α) (done : List (List α)) :
    list.foldl (piece mark) (current, done) =
      ((list.foldl (piece mark) (current, [])).1,
        (list.foldl (piece mark) (current, [])).2 ++ done) := by
  induction list generalizing current done with
  | nil => rfl
  | cons a list ih =>
      rw [List.foldl_cons, List.foldl_cons, piece, piece]
      split
      · rw [ih, ih [] [current.reverse]]
        simp
      · exact ih (a :: current) done

theorem pieces_of_not_mem {list : List α} (h : mark ∉ list) : pieces mark list = [list] := by
  rw [pieces_eq, foldl_piece_of_not_mem h]
  simp

theorem pieces_append_cons {front : List α} (h : mark ∉ front) (rest : List α) :
    pieces mark (front ++ mark :: rest) = front :: pieces mark rest := by
  have hstart : (front ++ mark :: rest).foldl (piece mark) ([], []) =
      rest.foldl (piece mark) ([], [front]) := by
    rw [List.foldl_append, foldl_piece_of_not_mem h, List.foldl_cons, piece, if_pos rfl]
    simp
  rw [pieces_eq, pieces_eq, hstart, foldl_piece_done]
  simp

theorem not_mem_of_mem_pieces {list piece : List α} (h : piece ∈ pieces mark list) :
    mark ∉ piece := by
  induction list using marks mark with
  | last list hlist =>
      rw [pieces_of_not_mem hlist, List.mem_singleton] at h
      exact h ▸ hlist
  | cut front rest hfront ih =>
      rw [pieces_append_cons hfront] at h
      rcases List.mem_cons.mp h with rfl | h
      · exact hfront
      · exact ih h

end Cut

/-! ## Paths that bytes spell -/

namespace Path

open Utf8

/-- The text is what some bytes spell as a file name. -/
def IsName (t : Text) : Prop := ∃ bytes, decodeName bytes = t

theorem isName_nil : IsName [] := ⟨[], rfl⟩

theorem isName_dot : IsName [dot] := ⟨[0x2E], rfl⟩

theorem IsName.append_slash {front back : Text} (hfront : IsName front) (hback : IsName back) :
    IsName (front ++ slash :: back) := by
  obtain ⟨a, rfl⟩ := hfront
  obtain ⟨b, rfl⟩ := hback
  exact ⟨a ++ 0x2F :: b, decodeName_append_cons (by decide) a b⟩

theorem IsName.cons_slash {back : Text} (h : IsName back) : IsName (slash :: back) :=
  isName_nil.append_slash h

/-- Bytes that spell a slash are cut at the first one where their text is. -/
theorem isName_cut {front back : Text} (hfront : slash ∉ front)
    (h : IsName (front ++ slash :: back)) : IsName front ∧ IsName back := by
  obtain ⟨bytes, hbytes⟩ := h
  have hmem : slash ∈ decodeName bytes := by
    rw [hbytes]
    exact List.mem_append_right _ List.mem_cons_self
  have hmem' : (0x2F : UInt8) ∈ bytes := mem_of_mem_decodeName (by decide) hmem
  obtain ⟨a, b, rfl, ha⟩ := List.eq_append_cons_of_mem hmem'
  have ha' : slash ∉ decodeName a := fun h => ha (mem_of_mem_decodeName (by decide) h)
  have hcut := Cut.at?_append_cons ha' (decodeName b)
  have hread : decodeName (a ++ 0x2F :: b) = decodeName a ++ slash :: decodeName b :=
    decodeName_append_cons (by decide) a b
  rw [← hread, hbytes, Cut.at?_append_cons hfront] at hcut
  obtain ⟨rfl, rfl⟩ := Prod.mk.inj (Option.some.inj hcut)
  exact ⟨⟨a, rfl⟩, ⟨b, rfl⟩⟩

theorem isName_append_slash {front back : Text} :
    IsName (front ++ slash :: back) ↔ IsName front ∧ IsName back := by
  refine ⟨fun h => ?_, fun ⟨hfront, hback⟩ => hfront.append_slash hback⟩
  induction front using Cut.marks slash with
  | last front hfront => exact isName_cut hfront h
  | cut first rest hfirst ih =>
      rw [List.append_assoc, List.cons_append] at h
      obtain ⟨hname, hrest⟩ := isName_cut hfirst h
      obtain ⟨hrest, hback⟩ := ih hrest
      exact ⟨hname.append_slash hrest, hback⟩

/-- The pieces of a name are names. -/
theorem IsName.of_mem_pieces {t piece : Text} (h : IsName t) (hmem : piece ∈ Cut.pieces slash t) :
    IsName piece := by
  induction t using Cut.marks slash with
  | last t ht =>
      rw [Cut.pieces_of_not_mem ht, List.mem_singleton] at hmem
      exact hmem ▸ h
  | cut first rest hfirst ih =>
      obtain ⟨hname, hrest⟩ := isName_append_slash.mp h
      rw [Cut.pieces_append_cons hfirst] at hmem
      rcases List.mem_cons.mp hmem with rfl | hmem
      · exact hname
      · exact ih hrest hmem

/-! ## Components -/

/-- What can stand between slashes of a normalized path. -/
structure IsComponent (c : Text) : Prop where
  ne_nil : c ≠ []
  ne_dot : c ≠ [dot]
  slash_not_mem : slash ∉ c

theorem mem_components {path c : Text} (h : c ∈ components path) :
    c ∈ Cut.pieces slash path ∧ IsComponent c := by
  obtain ⟨hmem, hkept⟩ := List.mem_filter.mp h
  simp only [Bool.and_eq_true, Bool.not_eq_true', List.isEmpty_eq_false_iff, bne_iff_ne,
    ne_eq] at hkept
  exact ⟨hmem, hkept.1, hkept.2, Cut.not_mem_of_mem_pieces hmem⟩

/-- A component stays. -/
theorem components_append_slash {c : Text} (h : IsComponent c) (rest : Text) :
    components (c ++ slash :: rest) = c :: components rest := by
  have hkept : (!c.isEmpty && c != [dot]) = true := by
    simp [h.ne_nil, h.ne_dot]
  rw [components, Cut.pieces_append_cons h.slash_not_mem, List.filter_cons, if_pos hkept]
  rfl

theorem components_singleton {c : Text} (h : IsComponent c) : components c = [c] := by
  have hkept : (!c.isEmpty && c != [dot]) = true := by
    simp [h.ne_nil, h.ne_dot]
  rw [components, Cut.pieces_of_not_mem h.slash_not_mem, List.filter_cons, if_pos hkept]
  rfl

/-- A slash in front is no part of a component. -/
theorem components_slash (rest : Text) : components (slash :: rest) = components rest := by
  have hpieces : Cut.pieces slash (slash :: rest) = [] :: Cut.pieces slash rest :=
    Cut.pieces_append_cons List.not_mem_nil rest
  rw [components, hpieces]
  rfl

theorem join_cons_cons (separator first second : Text) (rest : List Text) :
    Text.join separator (first :: second :: rest) =
      first ++ (separator ++ Text.join separator (second :: rest)) := by
  simp [Text.join]

theorem components_join {parts : List Text} (h : ∀ c ∈ parts, IsComponent c) :
    components (Text.join [slash] parts) = parts := by
  induction parts with
  | nil => rfl
  | cons first parts ih =>
      have hfirst := h first List.mem_cons_self
      cases parts with
      | nil =>
          rw [Text.join, List.flatMap_nil, List.append_nil]
          exact components_singleton hfirst
      | cons second parts =>
          rw [join_cons_cons, List.singleton_append, components_append_slash hfirst,
            ih fun c hc => h c (List.mem_cons_of_mem _ hc)]

theorem isName_join {parts : List Text} (h : ∀ c ∈ parts, IsName c) :
    IsName (Text.join [slash] parts) := by
  induction parts with
  | nil => exact isName_nil
  | cons first parts ih =>
      have hfirst := h first List.mem_cons_self
      cases parts with
      | nil =>
          rw [Text.join, List.flatMap_nil, List.append_nil]
          exact hfirst
      | cons second parts =>
          rw [join_cons_cons, List.singleton_append]
          exact hfirst.append_slash (ih fun c hc => h c (List.mem_cons_of_mem _ hc))

/-- Joined components do not begin with a slash. -/
theorem head?_join {parts : List Text} (h : ∀ c ∈ parts, IsComponent c) :
    (Text.join [slash] parts).head? ≠ some slash := by
  cases parts with
  | nil => exact nofun
  | cons first parts =>
      obtain ⟨hne, -, hfree⟩ := h first List.mem_cons_self
      obtain ⟨a, front, rfl⟩ := List.exists_cons_of_ne_nil hne
      rw [Text.join, List.cons_append, List.head?_cons]
      intro ha
      exact hfree (Option.some.inj ha ▸ List.mem_cons_self)

/-! ## Roots -/

/-- The slashes in front, however many. -/
theorem takeWhile_slash (path : Text) :
    ∃ n, path.takeWhile (· == slash) = List.replicate n slash :=
  ⟨_, List.eq_replicate_of_mem fun c hc => by
    simpa using List.all_eq_true.mp List.all_takeWhile c hc⟩

/-- The root of an absolute path is one slash or two. -/
theorem root_cases {path : Text} (h : isAbsolute path = true) :
    root path = [slash] ∨ root path = [slash, slash] := by
  obtain ⟨n, hn⟩ := takeWhile_slash path
  have hpos : n ≠ 0 := by
    rintro rfl
    cases path with
    | nil => cases h
    | cons c path =>
        have hc : c = slash := by simpa [isAbsolute] using h
        simp [hc] at hn
  unfold root
  rw [hn]
  by_cases htwo : n = 2
  · exact Or.inr (by rw [htwo]; rfl)
  · refine Or.inl ?_
    dsimp only
    rw [List.length_replicate, if_neg htwo]
    obtain ⟨m, rfl⟩ := Nat.exists_eq_succ_of_ne_zero hpos
    rfl

/-- A relative path has none. -/
theorem root_of_relative {path : Text} (h : isAbsolute path = false) : root path = [] := by
  have hnone : path.takeWhile (· == slash) = [] := by
    cases path with
    | nil => rfl
    | cons c path =>
        have hc : (c == slash) = false := by simpa [isAbsolute] using h
        simp [hc]
  unfold root
  simp [hnone]

/-- What can stand in front of the components. -/
inductive IsRoot : Text → Prop where
  | none : IsRoot []
  | one : IsRoot [slash]
  | two : IsRoot [slash, slash]

theorem isRoot_root (path : Text) : IsRoot (root path) := by
  cases h : isAbsolute path with
  | false => rw [root_of_relative h]; exact .none
  | true => rcases root_cases h with hroot | hroot <;> rw [hroot] <;> constructor

theorem isAbsolute_root (path : Text) : isAbsolute (root path) = isAbsolute path := by
  cases h : isAbsolute path with
  | false => rw [root_of_relative h]; rfl
  | true => rcases root_cases h with hroot | hroot <;> rw [hroot] <;> rfl

/-- What does not begin with a slash does not change the root in front of it. -/
theorem root_append {front rest : Text} (hfront : IsRoot front) (hrest : rest.head? ≠ some slash) :
    root (front ++ rest) = front := by
  have hnone : rest.takeWhile (· == slash) = [] := by
    cases rest with
    | nil => rfl
    | cons c rest =>
        have hc : (c == slash) = false := by simpa using hrest
        simp [hc]
  unfold root
  cases hfront <;> simp [hnone]

/-! ## Assembling -/

section

variable {front : Text} {parts : List Text}

/-- A path from its root and its components is these two, but for the empty one. -/
theorem assemble_cases (front : Text) (parts : List Text) :
    front = [] ∧ Text.join [slash] parts = [] ∧ assemble front parts = [dot] ∨
      assemble front parts = front ++ Text.join [slash] parts := by
  unfold assemble
  split
  · rename_i hempty
    obtain ⟨hfront, hjoin⟩ := List.append_eq_nil_iff.mp hempty
    exact Or.inl ⟨hfront, hjoin, rfl⟩
  · exact Or.inr rfl

variable (hfront : IsRoot front) (hparts : ∀ c ∈ parts, IsComponent c)

include hfront hparts

theorem root_assemble : root (assemble front parts) = front := by
  rcases assemble_cases front parts with ⟨rfl, -, hdot⟩ | hwhole
  · rw [hdot]
    rfl
  · rw [hwhole]
    exact root_append hfront (head?_join hparts)

theorem components_assemble : components (assemble front parts) = parts := by
  have hjoin := components_join hparts
  rcases assemble_cases front parts with ⟨rfl, hempty, hdot⟩ | hwhole
  · rw [hempty] at hjoin
    rw [hdot, ← hjoin]
    rfl
  · rw [hwhole]
    cases hfront with
    | none => exact hjoin
    | one => rw [List.singleton_append, components_slash, hjoin]
    | two => rw [List.cons_append, List.singleton_append, components_slash, components_slash, hjoin]

end

/-! ## Resolving -/

section

variable {absolute : Bool} {done parts : List Text}

/-- What is left of some components when `..` is resolved. -/
def resolved (absolute : Bool) (parts : List Text) : List Text :=
  (parts.foldl (resolve absolute) []).reverse

/-- A component is put behind the others, or takes the last of them back. -/
theorem resolve_cases (absolute : Bool) (done : List Text) (part : Text) :
    resolve absolute done part = part :: done ∨ resolve absolute done part = done.tail := by
  unfold resolve
  by_cases hpart : part = [dot, dot]
  · rw [if_pos hpart]
    cases done with
    | nil =>
        cases absolute with
        | false => exact Or.inl rfl
        | true => exact Or.inr rfl
    | cons last before =>
        by_cases hlast : last = [dot, dot]
        · exact Or.inl (if_pos hlast)
        · exact Or.inr (if_neg hlast)
  · exact Or.inl (if_neg hpart)

/-- What is left was there before. -/
theorem mem_foldl_resolve {c : Text} (h : c ∈ parts.foldl (resolve absolute) done) :
    c ∈ parts ∨ c ∈ done := by
  induction parts generalizing done with
  | nil => exact Or.inr h
  | cons part parts ih =>
      rcases ih h with hmem | hmem
      · exact Or.inl (List.mem_cons_of_mem _ hmem)
      · rcases resolve_cases absolute done part with hkept | htaken
        · rw [hkept] at hmem
          rcases List.mem_cons.mp hmem with rfl | hmem
          · exact Or.inl List.mem_cons_self
          · exact Or.inr hmem
        · rw [htaken] at hmem
          exact Or.inr (List.mem_of_mem_tail hmem)

theorem mem_resolved {c : Text} (h : c ∈ resolved absolute parts) : c ∈ parts :=
  (mem_foldl_resolve (List.mem_reverse.mp h)).resolve_right List.not_mem_nil

/-- Each of the components, which are in reverse, stays behind those before it. -/
inductive Settled (absolute : Bool) : List Text → Prop where
  | nil : Settled absolute []
  | cons {part : Text} {done : List Text} (hstays : resolve absolute done part = part :: done)
      (h : Settled absolute done) : Settled absolute (part :: done)

theorem Settled.resolve (h : Settled absolute done) (part : Text) :
    Settled absolute (resolve absolute done part) := by
  rcases resolve_cases absolute done part with hkept | htaken
  · rw [hkept]
    exact .cons hkept h
  · rw [htaken]
    cases h with
    | nil => exact .nil
    | cons _ h => exact h

theorem Settled.foldl (h : Settled absolute done) (parts : List Text) :
    Settled absolute (parts.foldl (Path.resolve absolute) done) := by
  induction parts generalizing done with
  | nil => exact h
  | cons part parts ih => exact ih (h.resolve part)

theorem Settled.foldl_reverse (h : Settled absolute done) :
    done.reverse.foldl (Path.resolve absolute) [] = done := by
  induction h with
  | nil => rfl
  | cons hstays _ ih => rw [List.reverse_cons, List.foldl_append, ih, List.foldl_cons, hstays]; rfl

/-- **What has been resolved stays as it is.** -/
theorem resolved_resolved (absolute : Bool) (parts : List Text) :
    resolved absolute (resolved absolute parts) = resolved absolute parts := by
  have hsettled : Settled absolute (parts.foldl (resolve absolute) []) := Settled.nil.foldl parts
  rw [resolved, resolved, hsettled.foldl_reverse]

end

/-! ## Normalizing -/

theorem normalize_eq (path : Text) :
    normalize path = assemble (root path) (resolved (isAbsolute path) (components path)) := rfl

section

variable (path : Text)

theorem isComponent_of_mem_resolved {absolute : Bool} {c : Text}
    (h : c ∈ resolved absolute (components path)) : IsComponent c :=
  (mem_components (mem_resolved h)).2

theorem root_normalize : root (normalize path) = root path :=
  root_assemble (isRoot_root path) fun _ hc => isComponent_of_mem_resolved path hc

theorem components_normalize :
    components (normalize path) = resolved (isAbsolute path) (components path) :=
  components_assemble (isRoot_root path) fun _ hc => isComponent_of_mem_resolved path hc

/-- A path stays absolute, or relative. -/
theorem isAbsolute_normalize : isAbsolute (normalize path) = isAbsolute path := by
  rw [← isAbsolute_root, root_normalize, isAbsolute_root]

/-- **A normalized path is normal.** -/
theorem normalize_normalize : normalize (normalize path) = normalize path := by
  rw [normalize_eq (normalize path), root_normalize, isAbsolute_normalize, components_normalize,
    resolved_resolved, ← normalize_eq]

variable {path}

/-- A name stays one when it is normalized. -/
theorem isName_normalize (hname : IsName path) : IsName (normalize path) := by
  have hjoin : IsName (Text.join [slash] (resolved (isAbsolute path) (components path))) :=
    isName_join fun c hc => hname.of_mem_pieces (mem_components (mem_resolved hc)).1
  rw [normalize_eq]
  rcases assemble_cases (root path) (resolved (isAbsolute path) (components path)) with
    ⟨-, -, hdot⟩ | hwhole
  · rw [hdot]
    exact isName_dot
  · rw [hwhole]
    have hroot := isRoot_root path
    generalize root path = front at hroot
    cases hroot with
    | none => exact hjoin
    | one => exact hjoin.cons_slash
    | two => exact hjoin.cons_slash.cons_slash

end

/-! ## Paths seen from a directory -/

section

variable {cwd path : Text}

theorem isAbsolute_join (h : isAbsolute cwd = true) : isAbsolute (join cwd path) = true := by
  have hfront : ∀ rest, isAbsolute (cwd ++ rest) = true := by
    cases cwd with
    | nil => cases h
    | cons c cwd => exact fun rest => h
  unfold join
  split
  · assumption
  · split
    · exact hfront path
    · rw [List.append_assoc]
      exact hfront _

theorem isName_join_path (hcwd : IsName cwd) (hpath : IsName path) : IsName (join cwd path) := by
  unfold join
  split
  · exact hpath
  · split
    · rename_i hend
      rcases Bool.or_eq_true_iff.mp hend with hempty | hlast
      · rw [List.isEmpty_iff.mp hempty]
        exact hpath
      · -- the directory brings its own slash
        obtain ⟨front, rfl⟩ := List.getLast?_eq_some_iff.mp (by simpa using hlast)
        rw [List.append_assoc]
        exact (isName_append_slash.mp hcwd).1.append_slash hpath
    · rw [List.append_assoc]
      exact hcwd.append_slash hpath

/-- **The normalized absolute path of a name** is an absolute path, normal, and a name. -/
theorem absolute_spec (h : isAbsolute cwd = true) (hcwd : IsName cwd) (hpath : IsName path) :
    isAbsolute (absolute cwd path) = true ∧ IsName (absolute cwd path) ∧
      normalize (absolute cwd path) = absolute cwd path :=
  ⟨(isAbsolute_normalize _).trans (isAbsolute_join h),
    isName_normalize (isName_join_path hcwd hpath), normalize_normalize _⟩

end

end Path

end LanguageClient
