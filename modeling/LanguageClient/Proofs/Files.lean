import LanguageClient.Files
import Mathlib.Tactic.Common

/-!
# A file grows by what is appended

A path that leads to a file, or to a free place, still leads there when the file has been written
(`follow_put`): nothing on the way is a file, so nothing on the way has changed.  So what a file holds
after it has been appended to is what it held before and what was appended (`Holds.append`), from the
first time on (`holds_of_append`).
-/

namespace LanguageClient.Files

variable {files files' : Files} {place : List Text} {node : FileNode} {cwd path : Text}
  {bytes more : Bytes}

/-! ## Places -/

/-- Writing at a place changes that place, and no other one. -/
theorem at?_put {place' : List Text} (h : place' ≠ []) :
    (files.put place node).at? place' = if place' = place then some node else files.at? place' := by
  have hfound (files : Files) :
      files.at? place' = (files.nodes.find? (·.1 = place')).map (·.2) := by
    rw [at?, if_neg (by simpa using h)]
  rw [hfound, hfound, put]
  split
  next hany =>
    have hsame : ((fun n : List Text × FileNode => decide (n.1 = place')) ∘
        fun n => if n.1 = place then (place, node) else n) = fun n => decide (n.1 = place') := by
      funext n
      by_cases hn : n.1 = place <;> simp [hn]
    dsimp only
    rw [List.find?_map, hsame]
    cases hfind : files.nodes.find? fun n => decide (n.1 = place') with
    | none =>
        rw [if_neg]
        · rfl
        · rintro rfl
          rw [List.find?_eq_none] at hfind
          obtain ⟨n, hn, hplace⟩ := List.any_eq_true.mp hany
          exact hfind n hn hplace
    | some n =>
        have hn : n.1 = place' := by simpa using List.find?_some hfind
        by_cases hplace : place' = place <;> simp [hn, hplace]
  next hnone =>
    dsimp only
    rw [List.find?_append]
    by_cases hplace : place' = place
    · subst hplace
      have hfree : files.nodes.find? (fun n => decide (n.1 = place')) = none := by
        rw [List.find?_eq_none]
        intro n hn hthere
        exact hnone (List.any_eq_true.mpr ⟨n, hn, hthere⟩)
      simp [hfree]
    · simp [hplace, Ne.symm hplace]

/-! ## Following a path -/

/-- The path leads to the place, at which there is a file or nothing. -/
def LeadsTo (place : List Text) : Target → Prop
  | .found p (.file _) => p = place
  | .found _ .directory => False
  | .free p => p = place

/-- The steps of a path: back, on to something, or to a free place at its end. -/
theorem follow_cases {above : List Text} {start : FileNode} {name : Text} {rest : List Text}
    {target : Target} (h : files.follow above start (name :: rest) = .ok target) :
    start = .directory ∧
      ((name = [Path.dot, Path.dot] ∧ files.follow above.dropLast .directory rest = .ok target) ∨
        (name ≠ [Path.dot, Path.dot] ∧ ¬ nameLimit < byteCount name ∧
          ((∃ node, files.at? (above ++ [name]) = some node ∧
              files.follow (above ++ [name]) node rest = .ok target) ∨
            (files.at? (above ++ [name]) = none ∧ rest = [] ∧ target = .free (above ++ [name]))))) := by
  unfold follow at h
  split at h
  · cases h
  next hstart =>
    refine ⟨not_not.mp hstart, ?_⟩
    split at h
    next hname => exact Or.inl ⟨hname, h⟩
    next hname =>
      split at h
      · cases h
      next hshort =>
        refine Or.inr ⟨hname, hshort, ?_⟩
        split at h
        next node hnode => exact Or.inl ⟨node, hnode, h⟩
        next hfree =>
          split at h
          next hlast => exact Or.inr ⟨hfree, List.isEmpty_iff.mp hlast, (Except.ok.inj h).symm⟩
          next => cases h

/-- A place to which a path leads in this way is no directory. -/
theorem at?_of_follow {above : List Text} {start : FileNode} {parts : List Text} {target : Target}
    (hstart : above = place → start = .directory)
    (hfollow : files.follow above start parts = .ok target) (htarget : LeadsTo place target) :
    files.at? place ≠ some .directory := by
  induction parts generalizing above start with
  | nil =>
      obtain rfl : .found above start = target := Except.ok.inj hfollow
      cases start with
      | directory => exact htarget.elim
      | file b => exact absurd (hstart htarget) (by simp)
  | cons name rest ih =>
      obtain ⟨-, ⟨-, hrest⟩ | ⟨-, -, ⟨node, hnode, hrest⟩ | ⟨hfree, -, rfl⟩⟩⟩ := follow_cases hfollow
      · exact ih (fun _ => rfl) hrest
      · by_cases hplace : above ++ [name] = place
        · intro hdirectory
          rw [hplace, hdirectory] at hnode
          exact ih (fun _ => (Option.some.inj hnode).symm) hrest hdirectory
        · exact ih (fun h => absurd h hplace) hrest
      · rw [← show above ++ [name] = place from htarget, hfree]
        nofun

/-- **A path that has led to a file or a free place leads to what has been written there.** -/
theorem follow_put {above : List Text} {start : FileNode} {parts : List Text} {target : Target}
    (hstart : above = place → start = .directory)
    (hfollow : files.follow above start parts = .ok target) (htarget : LeadsTo place target)
    (hplace : files.at? place ≠ some .directory) :
    (files.put place (.file bytes)).follow above start parts = .ok (.found place (.file bytes)) := by
  induction parts generalizing above start with
  | nil =>
      obtain rfl : .found above start = target := Except.ok.inj hfollow
      cases start with
      | directory => exact htarget.elim
      | file b => exact absurd (hstart htarget) (by simp)
  | cons name rest ih =>
      have hput : (files.put place (.file bytes)).at? (above ++ [name]) = _ := at?_put (by simp)
      obtain ⟨rfl, ⟨rfl, hrest⟩ | ⟨hname, hshort, hnext⟩⟩ := follow_cases hfollow
      · rw [follow, if_neg (by simp), if_pos rfl]
        exact ih (fun _ => rfl) hrest
      · rw [follow, if_neg (by simp), if_neg hname, if_neg hshort, hput]
        rcases hnext with ⟨node, hnode, hrest⟩ | ⟨hfree, rfl, rfl⟩
        · by_cases heq : above ++ [name] = place
          · subst heq
            cases node with
            | directory => exact absurd hnode hplace
            | file b =>
                -- A path does not go on behind a file.
                obtain rfl : rest = [] := by
                  cases rest with
                  | nil => rfl
                  | cons next rest => cases (follow_cases hrest).1
                rw [if_pos rfl]
                rfl
          · rw [if_neg heq, hnode]
            exact ih (fun h => absurd h heq) hrest
        · obtain rfl : above ++ [name] = place := htarget
          rw [if_pos rfl]
          rfl

/-! ## What a file holds -/

/-- The path leads to a file with these bytes. -/
def Holds (files : Files) (cwd path : Text) (bytes : Bytes) : Prop :=
  ∃ place, files.locate cwd path = .ok (.found place (.file bytes))

theorem Holds.exists? (h : files.Holds cwd path bytes) : files.exists? cwd path = .ok true := by
  obtain ⟨place, hplace⟩ := h
  rw [Files.exists?, hplace]

theorem Holds.read (h : files.Holds cwd path bytes) : files.read cwd path = .ok bytes := by
  obtain ⟨place, hplace⟩ := h
  rw [Files.read, hplace]
  rfl

/-- The place to which a path leads, and what is there when something has been written. -/
theorem locate_put {target : Target} (h : files.locate cwd path = .ok target)
    (htarget : LeadsTo place target) :
    (files.put place (.file bytes)).locate cwd path = .ok (.found place (.file bytes)) := by
  unfold locate at h ⊢
  split at h
  · cases h
  · split at h
    · cases h
    next hlength =>
      split at h
      · cases h
      next hempty =>
        split at h
        next reached hfollow =>
          obtain rfl := Except.ok.inj h
          have hplace := at?_of_follow (fun _ => rfl) hfollow htarget
          rw [if_neg hlength, if_neg hempty, follow_put (fun _ => rfl) hfollow htarget hplace]
        · cases h

/-- **What is appended to a file stands behind what it held.** -/
theorem Holds.append (h : files.Holds cwd path bytes)
    (happend : files.append cwd path more = .ok files') : files'.Holds cwd path (bytes ++ more) := by
  obtain ⟨place, hplace⟩ := h
  rw [Files.append, hplace] at happend
  obtain rfl : files.put place (.file (bytes ++ more)) = files' := Except.ok.inj happend
  exact ⟨place, locate_put hplace rfl⟩

/-- What is appended where nothing has been makes a file. -/
theorem holds_of_append (hnew : files.exists? cwd path = .ok false)
    (happend : files.append cwd path more = .ok files') : files'.Holds cwd path more := by
  unfold Files.exists? at hnew
  rw [Files.append] at happend
  cases hlocate : files.locate cwd path with
  | error e =>
      rw [hlocate] at happend
      cases happend
  | ok target =>
      rw [hlocate] at hnew happend
      cases target with
      | found place node => cases hnew
      | free place =>
          obtain rfl : files.put place (.file more) = files' := Except.ok.inj happend
          exact ⟨place, locate_put hlocate rfl⟩

end LanguageClient.Files
