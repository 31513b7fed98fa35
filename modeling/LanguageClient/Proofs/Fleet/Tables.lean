import LanguageClient.Proofs.Fleet.History

/-!
# The tables of a fleet

A fleet has two tables: the open sessions, and the failures that it remembers.  What an action does to
them is said for one language at a time.  Main statements: `Found.other`, for the languages that were
not asked for; `Found.at_language`, for the one that was; `Found.of_running` and `Found.of_failure`, for
what it is answered.
-/

namespace LanguageClient

/-- The failure of a start, or of the first exchange with a server. -/
def FleetError.isLasting : FleetError → Bool
  | launch _ | client _ => true
  | _ => false

namespace Fleet

open Site

variable {η σ : Type}

/-! ## Looking up tables -/

section Lookup

variable (fleet : Fleet η σ) (language l : Text) (session : Session σ) (e : FleetError)

/-- What stands in a table under a key, once an entry has been added at its end. -/
theorem find?_added {β : Type} (table : List (Text × β)) (language l : Text) (b : β) :
    ((table ++ [(language, b)]).find? (·.1 = l)).map (·.2) =
      ((table.find? (·.1 = l)).map (·.2)).or (if language = l then some b else none) := by
  rw [List.find?_append, Option.map_or]
  by_cases h : language = l
  · rw [List.find?_cons_of_pos (by simpa using h), if_pos h]
    rfl
  · rw [List.find?_cons_of_neg (by simpa using h), if_neg h]
    rfl

theorem session?_adopt :
    (fleet.adopt language session).session? l =
      (fleet.session? l).or (if language = l then some session else none) :=
  find?_added fleet.sessions language l session

theorem failure?_remember :
    (fleet.remember language e).failure? l =
      (fleet.failure? l).or (if language = l then some e else none) :=
  find?_added fleet.failures language l e

theorem session?_drop :
    (fleet.drop language).session? l = if language = l then none else fleet.session? l := by
  unfold session? drop
  rw [List.find?_filter]
  by_cases h : language = l
  · rw [if_pos h, Option.map_eq_none_iff, List.find?_eq_none]
    intro s _
    simp [h]
  · rw [if_neg h]
    congr 2
    funext s
    by_cases hs : s.1 = l
    · simp [hs, Ne.symm h]
    · simp [hs]

theorem session?_update :
    (fleet.update language session).session? l =
      if language = l then (fleet.session? l).map fun _ => session else fleet.session? l := by
  unfold session? update
  dsimp only
  have hkey : (fun s : Text × Session σ => decide (s.1 = l)) ∘
      (fun s => if s.1 = language then (language, session) else s) = fun s => decide (s.1 = l) := by
    funext s
    by_cases hs : s.1 = language
    · simp [hs]
    · simp [hs]
  rw [List.find?_map, hkey, Option.map_map]
  cases hfind : fleet.sessions.find? fun s => decide (s.1 = l) with
  | none => simp
  | some s =>
      obtain rfl : s.1 = l := by simpa using List.find?_some hfind
      by_cases h : language = s.1
      · simp [h]
      · simp [h, Ne.symm h]

/-- The tables of two fleets, and what their sessions are made by, are the same. -/
structure SameTables (fleet fleet' : Fleet η σ) : Prop where
  config_eq : fleet'.config = fleet.config
  sessions_eq : fleet'.sessions = fleet.sessions
  failures_eq : fleet'.failures = fleet.failures

variable {fleet language l} {fleet' : Fleet η σ}

theorem SameTables.session?_eq (h : SameTables fleet fleet') (l : Text) :
    fleet'.session? l = fleet.session? l := by
  rw [session?, h.sessions_eq]
  rfl

theorem SameTables.failure?_eq (h : SameTables fleet fleet') (l : Text) :
    fleet'.failure? l = fleet.failure? l := by
  rw [failure?, h.failures_eq]
  rfl

end Lookup

/-! ## What operations do to the tables -/

section Tables

variable [Peer σ] {s : Surroundings} {language command l : Text} {session : Session σ}
  {fleet fleet' : Fleet η σ} {result : Except (Stop FleetError) (Session σ)}

theorem Opens.tables (h : Opens s language session fleet result fleet') :
    SameTables fleet fleet' ∧ fleet'.site.host = fleet.site.host := by
  cases h with
  | unnamed => exact ⟨⟨rfl, rfl, rfl⟩, rfl⟩
  | opened hran | refused hran | broken hran => exact ⟨⟨rfl, rfl, rfl⟩, hran.host_eq⟩

theorem Launches.tables [Host η σ] (h : Launches s language command fleet result fleet') :
    SameTables fleet fleet' ∧ fleet'.site.host = fleet.site.hostAfter command := by
  cases h with
  | unlaunched hstarts =>
      obtain ⟨given, hleft⟩ := hstarts.left
      exact ⟨⟨rfl, rfl, rfl⟩, hleft.host_eq⟩
  | launched hstarts hopens =>
      obtain ⟨given, hleft⟩ := hstarts.left
      obtain ⟨⟨hconfig, hsessions, hfailures⟩, hhost⟩ := hopens.tables
      exact ⟨⟨hconfig, hsessions, hfailures⟩, hhost.trans hleft.host_eq⟩

/-- Retiring takes the session out of the table if its server has ended, and does nothing else. -/
theorem session?_retireEnded (language l : Text) (fleet : Fleet η σ) :
    (fleet.retireEnded language).session? l =
      if language = l then (fleet.session? l).filter Session.isRunning else fleet.session? l := by
  by_cases hl : language = l
  · subst hl
    rw [if_pos rfl]
    rcases retireEnded_cases language fleet with ⟨hsame, hrunning⟩ | ⟨ended, hsession, hended, text, h⟩
    · rw [hsame]
      cases hsession : fleet.session? language with
      | none => rfl
      | some session => rw [Option.filter_some, if_pos (hrunning session hsession)]
    · have hdrop : (fleet.retireEnded language).session? language =
          ((fleet.remark .warning text).drop language).session? language := by rw [h]; rfl
      rw [hdrop, session?_drop, if_pos rfl, hsession, Option.filter_some, hended]
      rfl
  · rw [if_neg hl]
    rcases retireEnded_cases language fleet with ⟨hsame, -⟩ | ⟨ended, -, -, text, h⟩
    · rw [hsame]
    · have hdrop : (fleet.retireEnded language).session? l =
          ((fleet.remark .warning text).drop language).session? l := by rw [h]; rfl
      rw [hdrop, session?_drop, if_neg hl]
      rfl

theorem failure?_retireEnded (language l : Text) (fleet : Fleet η σ) :
    (fleet.retireEnded language).failure? l = fleet.failure? l := by
  rcases retireEnded_cases language fleet with ⟨hsame, -⟩ | ⟨ended, -, -, text, h⟩
  · rw [hsame]
  · rw [h]
    rfl

/-- A language with a session that runs, or with none, is left as it is. -/
theorem retireEnded_of_running {language : Text} {fleet : Fleet η σ}
    (h : ∀ session, fleet.session? language = some session → session.isRunning = true) :
    fleet.retireEnded language = fleet := by
  rcases retireEnded_cases language fleet with ⟨hsame, -⟩ | ⟨ended, hsession, hended, -⟩
  · exact hsame
  · rw [h ended hsession] at hended
    cases hended

theorem retireEnded_tables (language : Text) (fleet : Fleet η σ) :
    (fleet.retireEnded language).config = fleet.config ∧
      (fleet.retireEnded language).failures = fleet.failures ∧
        (fleet.retireEnded language).site.host = fleet.site.host := by
  rcases retireEnded_cases language fleet with ⟨hsame, -⟩ | ⟨ended, -, -, text, h⟩
  · rw [hsame]
    exact ⟨rfl, rfl, rfl⟩
  · rw [h]
    exact ⟨rfl, rfl, rfl⟩

/-- Polling leaves every language that has a session with a session. -/
structure PolledTables (fleet fleet' : Fleet η σ) : Prop where
  config_eq : fleet'.config = fleet.config
  failures_eq : fleet'.failures = fleet.failures
  host_eq : fleet'.site.host = fleet.site.host
  isSome_eq : ∀ l, (fleet'.session? l).isSome = (fleet.session? l).isSome

theorem pollEach_tables (s : Surroundings) (languages : List Text) (fleet : Fleet η σ) :
    PolledTables fleet (pollEach s languages fleet).2 := by
  refine pollEach_induction (P := PolledTables fleet) ?_ s languages ⟨rfl, rfl, rfl, fun _ => rfl⟩
  intro fleet' language session result session' site' h hsession hran
  refine ⟨h.config_eq, h.failures_eq, hran.host_eq.trans h.host_eq, fun l => ?_⟩
  rw [← h.isSome_eq l, session?_update]
  by_cases hl : language = l
  · rw [if_pos hl, Option.isSome_map]
    rfl
  · rw [if_neg hl]
    rfl

/-- Closing sessions that are in hand leaves the tables alone. -/
theorem closeEach_tables (s : Surroundings) (hand : List (Text × Session σ)) (fleet : Fleet η σ) :
    SameTables fleet (closeEach s hand fleet).2 ∧
      (closeEach s hand fleet).2.site.host = fleet.site.host := by
  let P : List (Text × Session σ) → Fleet η σ → Prop := fun _ fleet' =>
    SameTables fleet fleet' ∧ fleet'.site.host = fleet.site.host
  have hP : P hand fleet := ⟨⟨rfl, rfl, rfl⟩, rfl⟩
  rcases closeEach_cases (P := P) (fun _ _ _ _ h => ⟨⟨h.1.1, h.1.2, h.1.3⟩, h.2⟩)
      (fun _ _ _ _ h => ⟨⟨h.1.1, h.1.2, h.1.3⟩, h.2⟩)
      (fun _ _ _ _ _ _ _ h hran => ⟨⟨h.1.1, h.1.2, h.1.3⟩, hran.host_eq.trans h.2⟩) s hand hP with
    ⟨fleet', hclose, h⟩ | ⟨f, language, session, session', site', rest, fleet', hclose, h, hran⟩
  · rw [hclose]
    exact h
  · rw [hclose, foldl_abandon]
    exact ⟨⟨h.1.1, h.1.2, h.1.3⟩, hran.host_eq.trans h.2⟩

end Tables

/-! ## Asking for a session -/

section Found

variable [Peer σ] [Host η σ] {s : Surroundings} {language l : Text} {fleet fleet' : Fleet η σ}
  {result : Except (Stop FleetError) (Session σ)}

omit [Peer σ] [Host η σ] in
theorem session?_concluded (language l : Text) (result : Except (Stop FleetError) (Session σ))
    (fleet : Fleet η σ) :
    (fleet.concluded language result).session? l =
      (fleet.session? l).or (if language = l then result.toOption else none) := by
  rcases result with (e | f) | session
  · show fleet.session? l = _
    simp [Except.toOption]
  · show fleet.session? l = _
    simp [Except.toOption]
  · exact session?_adopt fleet language l session

/-- The failure that is remembered of a start. -/
def failureOf {α : Type} : Except (Stop FleetError) α → Option FleetError
  | .error (.failed e) => some e
  | _ => none

omit [Peer σ] [Host η σ] in
theorem failure?_concluded (language l : Text) (result : Except (Stop FleetError) (Session σ))
    (fleet : Fleet η σ) :
    (fleet.concluded language result).failure? l =
      (fleet.failure? l).or (if language = l then failureOf result else none) := by
  rcases result with (e | f) | session
  · exact failure?_remember _ language l e
  · show fleet.failure? l = _
    simp [failureOf]
  · show fleet.failure? l = _
    simp [failureOf]

omit [Peer σ] [Host η σ] in
theorem concluded_config (language : Text) (result : Except (Stop FleetError) (Session σ))
    (fleet : Fleet η σ) : (fleet.concluded language result).config = fleet.config := by
  rcases result with (e | f) | session <;> rfl

omit [Peer σ] [Host η σ] in
theorem concluded_host (language : Text) (result : Except (Stop FleetError) (Session σ))
    (fleet : Fleet η σ) : (fleet.concluded language result).site.host = fleet.site.host := by
  rcases result with (e | f) | session <;> rfl

theorem Found.config_eq (h : Found s language fleet result fleet') :
    fleet'.config = fleet.config := by
  cases h with
  | disabled => rfl
  | cached | remembered | unconfigured => exact (retireEnded_tables language fleet).1
  | started _ _ _ _ hlaunches =>
      rw [concluded_config, hlaunches.tables.1.config_eq]
      exact (retireEnded_tables language fleet).1

/-- Asking for the session of one language does nothing to the others. -/
theorem Found.other (h : Found s language fleet result fleet') (hl : language ≠ l) :
    fleet'.session? l = fleet.session? l ∧ fleet'.failure? l = fleet.failure? l := by
  have hsession : (fleet.retireEnded language).session? l = fleet.session? l := by
    rw [session?_retireEnded, if_neg hl]
  have hfailure := failure?_retireEnded language l fleet
  cases h with
  | disabled => exact ⟨rfl, rfl⟩
  | cached | remembered | unconfigured => exact ⟨hsession, hfailure⟩
  | started _ _ _ _ hlaunches =>
      have htables := hlaunches.tables.1
      rw [session?_concluded, failure?_concluded, if_neg hl, if_neg hl, Option.or_none,
        Option.or_none, htables.session?_eq, htables.failure?_eq]
      exact ⟨hsession, hfailure⟩

/-- The session of a language was asked for, and nothing was started. -/
structure Consulted (language : Text) (fleet fleet' : Fleet η σ) : Prop where
  session?_eq : fleet'.session? language = (fleet.session? language).filter Session.isRunning ∨
    fleet.config.enable = false ∧ fleet' = fleet
  failure?_eq : fleet'.failure? language = fleet.failure? language
  host_eq : fleet'.site.host = fleet.site.host

/-- The session of a language was asked for, and a start was made, for want of a session and of a
failure. -/
structure Attempted (language : Text) (fleet : Fleet η σ)
    (result : Except (Stop FleetError) (Session σ)) (fleet' : Fleet η σ) : Prop where
  enabled : fleet.config.enable = true
  unknown : fleet.failure? language = none
  unserved : (fleet.session? language).filter Session.isRunning = none
  session?_eq : fleet'.session? language = result.toOption
  failure?_eq : fleet'.failure? language = failureOf result
  host_eq : ∃ command, fleet'.site.host = fleet.site.hostAfter command

theorem Found.at_language (h : Found s language fleet result fleet') :
    Consulted language fleet fleet' ∨ Attempted language fleet result fleet' := by
  have hsession := session?_retireEnded language language fleet
  have hfailure := failure?_retireEnded language language fleet
  have hhost := (retireEnded_tables language fleet).2.2
  rw [if_pos rfl] at hsession
  cases h with
  | disabled henable => exact Or.inl ⟨Or.inr ⟨henable, rfl⟩, rfl, rfl⟩
  | cached | remembered | unconfigured => exact Or.inl ⟨Or.inl hsession, hfailure, hhost⟩
  | @started server _ fleet₁ henable hnone hunknown _ hlaunches =>
      obtain ⟨htables, hlaunched⟩ := hlaunches.tables
      refine Or.inr ⟨henable, hfailure ▸ hunknown, hsession ▸ hnone, ?_, ?_, server.command, ?_⟩
      · rw [session?_concluded, htables.session?_eq, hnone, if_pos rfl, Option.none_or]
      · rw [failure?_concluded, htables.failure?_eq, hunknown, if_pos rfl, Option.none_or]
      · rw [concluded_host, hlaunched, hostAfter, hostAfter, hhost]

/-- **A session that runs is the answer to whoever asks for it.** -/
theorem Found.of_running {session : Session σ} (h : Found s language fleet result fleet')
    (henable : fleet.config.enable = true) (hsession : fleet.session? language = some session)
    (hrunning : session.isRunning = true) : result = .ok session ∧ fleet' = fleet := by
  have hsame : fleet.retireEnded language = fleet :=
    retireEnded_of_running fun other h => by
      rw [hsession] at h
      exact Option.some.inj h ▸ hrunning
  cases h with
  | disabled hdisabled => rw [henable] at hdisabled; cases hdisabled
  | cached _ hfound =>
      rw [hsame, hsession] at hfound
      exact ⟨congrArg _ (Option.some.inj hfound).symm, hsame⟩
  | remembered _ hnone | unconfigured _ hnone | started _ hnone =>
      rw [hsame, hsession] at hnone
      cases hnone

/-- **A failure is the answer to whoever asks again.** -/
theorem Found.of_failure {e : FleetError} (h : Found s language fleet result fleet')
    (henable : fleet.config.enable = true) (hsession : fleet.session? language = none)
    (hfailure : fleet.failure? language = some e) :
    result = .error (.failed e) ∧ fleet' = fleet := by
  have hsame : fleet.retireEnded language = fleet :=
    retireEnded_of_running fun other h => by
      rw [hsession] at h
      cases h
  cases h with
  | disabled hdisabled => rw [henable] at hdisabled; cases hdisabled
  | cached _ hfound => rw [hsame, hsession] at hfound; cases hfound
  | remembered _ _ hknown =>
      rw [hsame, hfailure] at hknown
      exact ⟨by rw [Option.some.inj hknown], hsame⟩
  | unconfigured _ _ hunknown | started _ _ hunknown =>
      rw [hsame, hfailure] at hunknown
      cases hunknown

/-- A start that failed is remembered. -/
theorem Found.remembers {e : FleetError} (h : Found s language fleet result fleet')
    (hresult : result = .error (.failed e)) (he : e.isLasting = true) :
    fleet.config.enable = true ∧ fleet'.failure? language = some e := by
  cases h with
  | disabled => cases hresult; cases he
  | cached => cases hresult
  | remembered henable _ hfailure =>
      cases hresult
      exact ⟨henable, hfailure⟩
  | unconfigured => cases hresult; cases he
  | started henable _ hunknown _ hlaunches =>
      rw [failure?_concluded, hlaunches.tables.1.failure?_eq, hunknown, if_pos rfl, Option.none_or,
        hresult]
      exact ⟨henable, rfl⟩

end Found

end Fleet

end LanguageClient
