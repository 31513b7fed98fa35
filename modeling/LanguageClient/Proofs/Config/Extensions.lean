import LanguageClient.Config.Basic
import LanguageClient.Proofs.Path.Normal

/-!
# Languages by extension

A path has an extension when its last component is a stem, a dot and the extension.  So a path can
have several extensions, `gz` and `tar.gz`; the one that counts is the one behind the last dot.  Main
statement: `languageFor?_exact`.

## Strategy

The extension that is looked up is characterised once (`extension_eq_iff`): it is the only extension
of the path that has no dot in it.  Then a language is found for a path if and only if it lists such
an extension, and the order of the languages is that of `List.find?`.
-/

namespace LanguageClient

namespace Cut

variable {α : Type} [DecidableEq α] {mark : α} {list before after : List α}

theorem last?_eq_some_iff :
    last? mark list = some (before, after) ↔ list = before ++ mark :: after ∧ mark ∉ after := by
  unfold last?
  constructor
  · intro h
    by_cases hmem : mark ∈ list.reverse
    · obtain ⟨back, front, hback, hnot⟩ := List.eq_append_cons_of_mem hmem
      rw [hback, at?_append_cons hnot] at h
      obtain ⟨rfl, rfl⟩ := Prod.mk.inj (Option.some.inj h)
      refine ⟨?_, by simpa using hnot⟩
      have hlist := congrArg List.reverse hback
      simpa using hlist
    · rw [at?_of_not_mem hmem] at h
      cases h
  · rintro ⟨rfl, hnot⟩
    have hback : (before ++ mark :: after).reverse = after.reverse ++ mark :: before.reverse := by
      simp
    rw [hback, at?_append_cons (by simpa using hnot)]
    simp

theorem last?_eq_none_iff : last? mark list = none ↔ mark ∉ list := by
  constructor
  · intro h hmem
    obtain ⟨after, before, hlist, hnot⟩ := List.eq_append_cons_of_mem (List.mem_reverse.mpr hmem)
    have hsplit : list = before.reverse ++ mark :: after.reverse := by
      simpa using congrArg List.reverse hlist
    cases h.symm.trans (last?_eq_some_iff.mpr ⟨hsplit, by simpa using hnot⟩)
  · intro h
    rw [last?, at?_of_not_mem (by simpa using h)]

end Cut

namespace Path

/-- The last component of the path is a stem, a dot and the extension, and neither of the two is
empty. -/
def HasExtension (path e : Text) : Prop := e ≠ [] ∧ ∃ stem ≠ [], fileName path = stem ++ dot :: e

/-- **The extension that counts is the one without a dot in it.** -/
theorem extension_eq_iff {path e : Text} (he : e ≠ []) :
    extension path = e ↔ HasExtension path e ∧ dot ∉ e := by
  unfold extension suffix
  constructor
  · intro h
    split at h
    · rename_i stem last hlast
      obtain ⟨hname, hdot⟩ := Cut.last?_eq_some_iff.mp hlast
      split at h
      · exact absurd h.symm he
      · rename_i hparts
        simp only [Bool.or_eq_true, List.isEmpty_iff, not_or] at hparts
        have hhead : last.dropWhile (· == dot) = last := by
          cases last with
          | nil => rfl
          | cons c rest =>
              have hc : c ≠ dot := fun hc => hdot (hc ▸ List.mem_cons_self ..)
              simp [hc]
        rw [List.dropWhile_cons_of_pos (by simp), hhead] at h
        subst h
        exact ⟨⟨hparts.2, stem, hparts.1, hname⟩, hdot⟩
    · exact absurd h.symm he
  · rintro ⟨⟨-, stem, hstem, hname⟩, hdot⟩
    rw [Cut.last?_eq_some_iff.mpr ⟨hname, hdot⟩]
    dsimp only
    obtain ⟨c, rest, rfl⟩ := List.exists_cons_of_ne_nil he
    have hc : c ≠ dot := fun hc => hdot (hc ▸ List.mem_cons_self ..)
    simp [hstem, hc]

/-- A component has no slash in it. -/
theorem slash_not_mem_fileName (path : Text) : slash ∉ fileName path := by
  unfold fileName
  rcases List.eq_nil_or_concat (components path) with h | ⟨front, last, h⟩
  · simp [h]
  · have hlast : last ∈ components path := by simp [h]
    rw [h, List.concat_eq_append, List.getLastD_concat]
    exact Cut.not_mem_of_mem_pieces (List.mem_of_mem_filter hlast)

/-- An extension that is empty or has a slash or a dot in it is the one that counts of no path; any
other one is that of the path made of a stem of one letter and the extension. -/
theorem exists_extension_eq_iff {e : Text} (he : e ≠ []) :
    (∃ path, extension path = e) ↔ slash ∉ e ∧ dot ∉ e := by
  constructor
  · rintro ⟨path, hpath⟩
    obtain ⟨⟨-, stem, -, hname⟩, hdot⟩ := (extension_eq_iff he).mp hpath
    refine ⟨fun hslash => slash_not_mem_fileName path ?_, hdot⟩
    rw [hname]
    exact List.mem_append_right _ (List.mem_cons_of_mem _ hslash)
  · rintro ⟨hslash, hdot⟩
    let stem : Text := [CodePoint.ofChar 'x']
    refine ⟨stem ++ dot :: e, (extension_eq_iff he).mpr ⟨⟨he, stem, by simp [stem], ?_⟩, hdot⟩⟩
    have hfree : slash ∉ stem ++ dot :: e := by
      simp only [stem, List.singleton_append, List.mem_cons, not_or]
      exact ⟨by decide, by decide, hslash⟩
    have hcomponent : components (stem ++ dot :: e) = [stem ++ dot :: e] := by
      rw [components, Cut.pieces_of_not_mem hfree]
      simp [stem]
    rw [fileName, hcomponent]
    rfl

end Path

namespace Config

variable {ι : Type}

/-- The language lists an extension of the path that has no dot in it. -/
def Serves (server : LanguageServer) (path : Text) : Prop :=
  ∃ e ∈ server.extensions, Path.HasExtension path e ∧ Path.dot ∉ e

/-- The server is for the files that have the path's extension. -/
theorem contains_extension_iff {server : LanguageServer} {path : Text}
    (hpath : Path.extension path ≠ []) :
    server.extensions.contains (Path.extension path) = true ↔ Serves server path := by
  rw [List.contains_iff_mem]
  constructor
  · intro h
    exact ⟨_, h, (Path.extension_eq_iff hpath).mp rfl⟩
  · rintro ⟨e, he, hextension⟩
    rwa [(Path.extension_eq_iff hextension.1.1).mpr hextension]

theorem not_serves_of_extension_eq_nil {path : Text} (hpath : Path.extension path = [])
    (server : LanguageServer) : ¬ Serves server path := by
  rintro ⟨e, -, hextension⟩
  have he := (Path.extension_eq_iff hextension.1.1).mpr hextension
  exact hextension.1.1 (he.symm.trans hpath)

theorem languageFor?_eq_some_iff {c : Config ι} {path : Text} {id : ι} :
    c.languageFor? path = some id ↔ ∃ before server after,
      c.languages = before ++ (id, server) :: after ∧ Serves server path ∧
        ∀ l ∈ before, ¬ Serves l.2 path := by
  unfold languageFor?
  dsimp only
  split
  · rename_i hpath
    rw [List.isEmpty_iff] at hpath
    refine iff_of_false (by simp) ?_
    rintro ⟨before, server, after, -, hserves, -⟩
    exact not_serves_of_extension_eq_nil hpath server hserves
  · rename_i hpath
    rw [List.isEmpty_iff] at hpath
    simp only [Option.map_eq_some_iff, List.find?_eq_some_iff_append,
      contains_extension_iff hpath]
    constructor
    · rintro ⟨⟨_, server⟩, ⟨hserves, before, after, hsplit, hbefore⟩, rfl⟩
      refine ⟨before, server, after, hsplit, hserves, fun l hl hserves => ?_⟩
      have hnot := hbefore l hl
      rw [(contains_extension_iff hpath).mpr hserves] at hnot
      cases hnot
    · rintro ⟨before, server, after, hsplit, hserves, hbefore⟩
      refine ⟨(id, server), ⟨hserves, before, after, hsplit, fun l hl => ?_⟩, rfl⟩
      have hnot := hbefore l hl
      rwa [← contains_extension_iff hpath, Bool.not_eq_true, ← Bool.not_eq_true'] at hnot

theorem languageFor?_eq_none_iff {c : Config ι} {path : Text} :
    c.languageFor? path = none ↔ ∀ l ∈ c.languages, ¬ Serves l.2 path := by
  unfold languageFor?
  dsimp only
  split
  · rename_i hpath
    rw [List.isEmpty_iff] at hpath
    exact iff_of_true rfl fun l _ => not_serves_of_extension_eq_nil hpath l.2
  · rename_i hpath
    rw [List.isEmpty_iff] at hpath
    simp only [Option.map_eq_none_iff, List.find?_eq_none, contains_extension_iff hpath]

/-- The configuration with a language of its own in the place of all languages. -/
def withOnly (c : Config ι) (id : ι) (server : LanguageServer) : Config ι :=
  { c with languages := [(id, server)] }

theorem languageFor?_withOnly {c : Config ι} {id : ι} {command path e : Text} :
    (c.withOnly id ⟨command, [e]⟩).languageFor? path = some id ↔
      Path.HasExtension path e ∧ Path.dot ∉ e := by
  rw [languageFor?_eq_some_iff]
  constructor
  · rintro ⟨before, server, after, hsplit, ⟨e', he', hextension⟩, -⟩
    have hmem : (id, server) ∈ (c.withOnly id ⟨command, [e]⟩).languages := by simp [hsplit]
    obtain ⟨-, rfl⟩ := Prod.mk.inj (List.mem_singleton.mp hmem)
    rwa [List.mem_singleton.mp he'] at hextension
  · intro hextension
    exact ⟨[], ⟨command, [e]⟩, [], rfl, ⟨e, by simp, hextension⟩, by simp⟩

/-- **What is looked up for a path.**  The answer is the first language that lists an extension of the
path without a dot in it, and there is none only if no language does.  So an extension is found, if
its language is the only one, exactly when it is not empty and has neither a slash nor a dot in it. -/
theorem languageFor?_exact (c : Config ι) :
    (∀ path id, c.languageFor? path = some id ↔ ∃ before server after,
      c.languages = before ++ (id, server) :: after ∧ Serves server path ∧
        ∀ l ∈ before, ¬ Serves l.2 path) ∧
      (∀ path, c.languageFor? path = none ↔ ∀ l ∈ c.languages, ¬ Serves l.2 path) ∧
      ∀ id command e, (∃ path, (c.withOnly id ⟨command, [e]⟩).languageFor? path = some id) ↔
        e ≠ [] ∧ Path.slash ∉ e ∧ Path.dot ∉ e := by
  refine ⟨fun path id => languageFor?_eq_some_iff, fun path => languageFor?_eq_none_iff,
    fun id command e => ?_⟩
  simp only [languageFor?_withOnly]
  constructor
  · rintro ⟨path, hextension⟩
    have he := hextension.1.1
    exact ⟨he, (Path.exists_extension_eq_iff he).mp
      ⟨path, (Path.extension_eq_iff he).mpr hextension⟩⟩
  · rintro ⟨he, hfree⟩
    obtain ⟨path, hpath⟩ := (Path.exists_extension_eq_iff he).mpr hfree
    exact ⟨path, (Path.extension_eq_iff he).mp hpath⟩

end Config

end LanguageClient
