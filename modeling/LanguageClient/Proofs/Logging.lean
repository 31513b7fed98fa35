import LanguageClient.Logging
import LanguageClient.Proofs.Protocol.Records

/-!
# Setting up the log

The environment names a level, and may ask for the console.  Whatever outlets the log had, it gets the
outlets that are asked for and no other, from the named level on.  What the name belongs to decides:

```text
a level              the log is set up at this level
nothing              the log is set up at the standard level
a switch             the log is set up, and its level is a truth value
anything else        the log is not set up, and has lost its outlets
```

Main statement: `setUp_asked_iff`.  The log is set up as it should be if and only if one of the first two
lines applies.
-/

namespace LanguageClient.Log

/-! ## Names -/

/-- The name that the environment gives for a level. -/
def levelName (s : Surroundings) : Text := (s.lookup? "LOG_LEVEL").getD "INFO"

/-- The name is that of a level. -/
def NamesLevel (name : Text) (number : Nat) : Prop :=
  ∃ label, (label, number) ∈ levels ∧ Text.ofString label = name

/-- The name is one of these. -/
def IsAmong (labels : List String) (name : Text) : Prop :=
  ∃ label ∈ labels, Text.ofString label = name

/-- The names that belong to something that is no number at all. -/
def refused : List String := texts.map (·.1) ++ particulars ++ reserved

/-- What a name is taken for. -/
inductive Takes (name : Text) : Except LevelError Threshold → Prop
  | level {number : Nat} (h : NamesLevel name number) : Takes name (.ok (.level number))
  | switch (h : IsAmong switches name) : Takes name (.ok .switch)
  | refused {e : LevelError} (h : IsAmong refused name) : Takes name (.error e)
  | unused (hlevel : ∀ number, ¬ NamesLevel name number)
      (hother : ¬ IsAmong (switches ++ Log.refused) name) : Takes name (.ok (.level informative))

theorem isAmong_iff_any {labels : List String} {name : Text} :
    IsAmong labels name ↔ labels.any (fun label => decide (Text.ofString label = name)) = true := by
  simp only [IsAmong, List.any_eq_true, decide_eq_true_eq]

theorem isAmong_append {labels labels' : List String} {name : Text} :
    IsAmong (labels ++ labels') name ↔ IsAmong labels name ∨ IsAmong labels' name := by
  simp only [IsAmong, List.mem_append, or_and_right, exists_or]

theorem isAmong_refused {name : Text} :
    IsAmong refused name ↔
      IsAmong (texts.map (·.1)) name ∨ IsAmong particulars name ∨ IsAmong reserved name := by
  rw [refused, isAmong_append, isAmong_append, or_assoc]

theorem takes_thresholdOf (name : Text) : Takes name (thresholdOf name) := by
  unfold thresholdOf
  dsimp only
  split
  · rename_i label number hlevel
    exact .level ⟨label, List.mem_of_find?_eq_some hlevel, by simpa using List.find?_some hlevel⟩
  · rename_i hlevel
    have hlevel : ∀ number, ¬ NamesLevel name number := by
      rintro number ⟨label, hmem, hname⟩
      exact List.find?_eq_none.mp hlevel _ hmem (decide_eq_true hname)
    by_cases hswitch : IsAmong switches name
    · rw [if_pos (isAmong_iff_any.mp hswitch)]
      exact .switch hswitch
    rw [if_neg (mt isAmong_iff_any.mpr hswitch)]
    split
    · rename_i label text htext
      exact .refused (isAmong_refused.mpr (.inl ⟨label,
        List.mem_map_of_mem (List.mem_of_find?_eq_some htext), by simpa using List.find?_some htext⟩))
    · rename_i htext
      have htext : ¬ IsAmong (texts.map (·.1)) name := by
        rintro ⟨label, hmem, hname⟩
        obtain ⟨text, htexts, rfl⟩ := List.mem_map.mp hmem
        exact List.find?_eq_none.mp htext _ htexts (decide_eq_true hname)
      by_cases hparticular : IsAmong particulars name
      · rw [if_pos (isAmong_iff_any.mp hparticular)]
        exact .refused (isAmong_refused.mpr (.inr (.inl hparticular)))
      rw [if_neg (mt isAmong_iff_any.mpr hparticular)]
      by_cases hreserved : IsAmong reserved name
      · rw [if_pos (isAmong_iff_any.mp hreserved)]
        exact .refused (isAmong_refused.mpr (.inr (.inr hreserved)))
      rw [if_neg (mt isAmong_iff_any.mpr hreserved)]
      refine .unused hlevel ?_
      rw [isAmong_append, isAmong_refused]
      rintro (h | h | h | h)
      · exact hswitch h
      · exact htext h
      · exact hparticular h
      · exact hreserved h

/-! ## No name is used twice -/

theorem number_unique {name : Text} {n m : Nat} (hn : NamesLevel name n) (hm : NamesLevel name m) :
    n = m := by
  obtain ⟨label, hlabel, rfl⟩ := hn
  obtain ⟨label', hlabel', hname⟩ := hm
  obtain rfl := Text.ofString_inj.mp hname
  have hunique : ∀ a ∈ levels, ∀ b ∈ levels, a.1 = b.1 → a.2 = b.2 := by simp [levels]
  exact hunique _ hlabel _ hlabel' rfl

theorem not_isAmong_of_namesLevel {name : Text} {number : Nat} (h : NamesLevel name number) :
    ¬ IsAmong (switches ++ refused) name := by
  obtain ⟨label, hlabel, rfl⟩ := h
  rintro ⟨other, hother, hname⟩
  obtain rfl := Text.ofString_inj.mp hname
  have hdisjoint : ∀ level ∈ levels, level.1 ∉ switches ++ refused := by
    simp [levels, switches, refused, texts, particulars, reserved]
  exact hdisjoint _ hlabel hother

theorem not_refused_of_switch {name : Text} (h : IsAmong switches name) : ¬ IsAmong refused name := by
  obtain ⟨label, hlabel, rfl⟩ := h
  rintro ⟨other, hother, hname⟩
  obtain rfl := Text.ofString_inj.mp hname
  have hdisjoint : ∀ label ∈ switches, label ∉ refused := by
    simp [switches, refused, texts, particulars, reserved]
  exact hdisjoint _ hlabel hother

/-! ## The log -/

/-- The log keeps remarks from a threshold on in one file, and alarming ones in another, and shows them
on the console if and only if that is asked for. -/
structure Keeps (s : Surroundings) (threshold : Threshold) (log : Log) : Prop where
  threshold_eq : log.threshold = threshold
  nodup : log.outlets.Nodup
  mem_outlets_iff : ∀ outlet, outlet ∈ log.outlets ↔
    outlet = ⟨.file "stdout.log", threshold, format⟩ ∨
      outlet = ⟨.file "stderr.log", .level alarming, format⟩ ∨
      outlet = ⟨.console, threshold, format⟩ ∧ s.lookup? "LOG_TO_CONSOLE" = some "1"

/-- The log is set up at the level that the environment names, or at the standard one if the name is that
of no level. -/
def IsAsked (s : Surroundings) (outcome : Except LevelError Unit × Log) : Prop :=
  outcome.1 = .ok () ∧ ∃ number, Keeps s (.level number) outcome.2 ∧
    (NamesLevel (levelName s) number ∨
      (∀ n, ¬ NamesLevel (levelName s) n) ∧ number = informative)

variable {s : Surroundings}

theorem setUp_of_error {e : LevelError} (h : thresholdOf (levelName s) = .error e) (old : Log) :
    setUp s old = (.error e, { old with outlets := [] }) := by
  unfold levelName at h
  rw [setUp, h]

theorem setUp_of_ok {threshold : Threshold} (h : thresholdOf (levelName s) = .ok threshold) :
    ∃ log, (∀ old, setUp s old = (.ok (), log)) ∧ Keeps s threshold log := by
  unfold levelName at h
  have hfiles : Text.ofString "stdout.log" ≠ Text.ofString "stderr.log" := by decide +kernel
  simp only [setUp, h]
  refine ⟨_, fun _ => rfl, rfl, ?_, fun outlet => ?_⟩
  · split <;> simp [hfiles]
  · split <;> simp_all

/-- A log that is set up keeps nothing from a truth value on if the environment asks for a level. -/
theorem not_isAsked_of_switch {log : Log} (h : Keeps s .switch log) : ¬ IsAsked s (.ok (), log) := by
  rintro ⟨-, number, hkeeps, -⟩
  exact Threshold.noConfusion (h.threshold_eq.symm.trans hkeeps.threshold_eq)

/-- **When the log is set up as the environment asks.**  It is so, whatever it was before, if and only if
the name of the level belongs to nothing else of the log.  A switch is a truth value for a level; with any
other such name the log is not set up, and has no outlets any more.  To set up the log again changes
nothing. -/
theorem setUp_asked_iff (s : Surroundings) (old : Log) :
    (IsAsked s (setUp s old) ↔ ¬ IsAmong (switches ++ refused) (levelName s)) ∧
      (IsAmong switches (levelName s) → (setUp s old).1 = .ok () ∧ Keeps s .switch (setUp s old).2) ∧
      (IsAmong refused (levelName s) ↔ ∃ e, setUp s old = (.error e, { old with outlets := [] })) ∧
      setUp s (setUp s old).2 = setUp s old := by
  have htakes : Takes (levelName s) (thresholdOf (levelName s)) := takes_thresholdOf _
  cases htaken : thresholdOf (levelName s) with
  | error e =>
      rw [htaken] at htakes
      have hrefused : IsAmong refused (levelName s) := by
        cases htakes with
        | refused h => exact h
      have herror := setUp_of_error htaken
      refine ⟨⟨?_, fun h => (h (isAmong_append.mpr (.inr hrefused))).elim⟩, fun hswitch =>
        (not_refused_of_switch hswitch hrefused).elim, ⟨fun _ => ⟨e, herror old⟩, fun _ => hrefused⟩, ?_⟩
      · rintro ⟨hok, -⟩
        rw [herror old] at hok
        cases hok
      · rw [herror, herror]
  | ok threshold =>
      rw [htaken] at htakes
      obtain ⟨log, hlog, hkeeps⟩ := setUp_of_ok htaken
      have hnot : ¬ ∃ e, ((.ok (), log) : Except LevelError Unit × Log) =
          (.error e, { old with outlets := [] }) := by
        rintro ⟨e, he⟩
        cases congrArg Prod.fst he
      rw [hlog, hlog]
      cases htakes with
      | level hnames =>
          have hother := not_isAmong_of_namesLevel hnames
          refine ⟨⟨fun _ => hother, fun _ => ⟨rfl, _, hkeeps, .inl hnames⟩⟩, fun hswitch =>
            (hother (isAmong_append.mpr (.inl hswitch))).elim, ⟨fun hrefused =>
            (hother (isAmong_append.mpr (.inr hrefused))).elim, fun h => (hnot h).elim⟩, rfl⟩
      | switch hswitch =>
          refine ⟨⟨fun h => (not_isAsked_of_switch hkeeps h).elim, fun h =>
            (h (isAmong_append.mpr (.inl hswitch))).elim⟩, fun _ => ⟨rfl, hkeeps⟩, ⟨fun hrefused =>
            (not_refused_of_switch hswitch hrefused).elim, fun h => (hnot h).elim⟩, rfl⟩
      | unused hlevel hother =>
          refine ⟨⟨fun _ => hother, fun _ => ⟨rfl, _, hkeeps, .inr ⟨hlevel, rfl⟩⟩⟩, fun hswitch =>
            (hother (isAmong_append.mpr (.inl hswitch))).elim, ⟨fun hrefused =>
            (hother (isAmong_append.mpr (.inr hrefused))).elim, fun h => (hnot h).elim⟩, rfl⟩

end LanguageClient.Log
