import LanguageClient.Fleet
import LanguageClient.Proofs.Fleet.Start

/-!
# The operations of a fleet

What an operation of a fleet can do is said here once.  Asking for a session comes to one of the cases
of `Found`, whose last one goes on to `Launches` and `Opens`; polling works on one session of the
table after the other (`pollEach_induction`); closing everything takes sessions out of the table,
shuts them down and retires them one by one, and gives up what is left at a fault (`closeEach_cases`).
How a session works with its client is `Session.Ran`.

```text
the session of the language      what is known of it     what is done
runs                                                     it is the answer
has ended                                                it is retired, and then as below
there is none                    a failure               that is the answer
there is none                    no server               that is the answer
there is none                    a server                a start, whose session is adopted,
                                                         and whose failure is remembered
```
-/

namespace LanguageClient

variable {η σ : Type}

/-! ## Working with a client -/

/-- A session has run an operation of its client; the journal of the client is the site's now. -/
structure Session.Ran {α : Type} (action : Operation σ α) (session : Session σ) (site : Site η σ)
    (result : Except (Stop ClientError) α) (session' : Session σ) (site' : Site η σ) : Prop where
  result_eq : result = (action session.client).1
  client_eq : session'.client = (action session.client).2.takeJournal.2
  host_eq : site'.host = site.host
  abandoned_eq : site'.abandoned = site.abandoned

theorem Session.run_ran {α : Type} (s : Surroundings) (action : Operation σ α) (session : Session σ)
    (site : Site η σ) :
    session.Ran action site (session.run s action site).1 (session.run s action site).2.1
      (session.run s action site).2.2 := by
  unfold run settle
  cases session.trace with
  | none => exact ⟨rfl, rfl, rfl, rfl⟩
  | some trace => exact ⟨rfl, rfl, rfl, rfl⟩

/-- Why nothing can follow the first message of a session, if that is so. -/
def Session.obstacle? (session : Session σ) : Option Fault := session.trace.bind Trace.obstacle?

namespace Fleet

open Site

/-- The parameters of the first request. -/
def introduction (s : Surroundings) (fleet : Fleet η σ) : Except Utf8.EncodeError Payload :=
  handshakeParams s fleet.workspace
    { Introduction.standard s.processId with trace := .verbosity fleet.config.trace }

variable [Peer σ]

omit [Peer σ] in
theorem operate_apply {α : Type} (s : Surroundings) (session : Session σ) (action : Operation σ α)
    (fleet : Fleet η σ) :
    ∃ result session' site', session.Ran action fleet.site result session' site' ∧
      operate s session action fleet = (.ok (result, session'), { fleet with site := site' }) :=
  ⟨_, _, _, session.run_ran s action fleet.site, rfl⟩

/-! ## Opening a session -/

/-- All that opening a session can come to. -/
inductive Opens (s : Surroundings) (language : Text) (session : Session σ) (fleet : Fleet η σ) :
    Except (Stop FleetError) (Session σ) → Fleet η σ → Prop
  /-- The workspace cannot be named. -/
  | unnamed {e : Utf8.EncodeError} (hparams : fleet.introduction s = .error e) :
      Opens s language session fleet (.error (.faulted (.notEncodable e))) (fleet.abandon session)
  | opened {params : Payload} {session' : Session σ} {site' : Site η σ}
      (hran : session.Ran (introduce params session.obstacle?) fleet.site (.ok ()) session' site')
      (hparams : fleet.introduction s = .ok params) :
      Opens s language session fleet (.ok session') { fleet with site := site' }
  | refused {params : Payload} {e : ClientError} {session' : Session σ} {site' : Site η σ}
      (hran : session.Ran (introduce params session.obstacle?) fleet.site (.error (.failed e)) session'
        site')
      (hparams : fleet.introduction s = .ok params) :
      Opens s language session fleet (.error (.failed (.client e)))
        (retire language session' { fleet with site := site' })
  | broken {params : Payload} {f : Fault} {session' : Session σ} {site' : Site η σ}
      (hran : session.Ran (introduce params session.obstacle?) fleet.site (.error (.faulted f)) session'
        site')
      (hparams : fleet.introduction s = .ok params) :
      Opens s language session fleet (.error (.faulted f))
        (abandon session' { fleet with site := site' })

theorem openSession_opens (s : Surroundings) (language : Text) (session : Session σ)
    (fleet : Fleet η σ) :
    Opens s language session fleet (openSession s language session fleet).1
      (openSession s language session fleet).2 := by
  unfold openSession
  rw [Attempt.bind_of_ok (Attempt.get_apply fleet)]
  dsimp only
  cases hparams : fleet.introduction s with
  | error e =>
      unfold introduction at hparams
      rw [hparams]
      exact .unnamed hparams
  | ok params =>
      unfold introduction at hparams
      rw [hparams]
      obtain ⟨result, session', site', hran, hoperate⟩ :=
        operate_apply s session (introduce params session.obstacle?) fleet
      dsimp only
      unfold Session.obstacle? at hoperate
      rw [Attempt.bind_of_ok hoperate]
      rcases result with (e | f) | done
      · exact .refused hran hparams
      · exact .broken hran hparams
      · exact .opened hran hparams

/-! ## Starting a session -/

/-- The end of a start that has launched nothing, or nothing that can be used. -/
def launchStop : Stop LaunchError → Stop FleetError
  | .failed e => .failed (.launch e)
  | .faulted f => .faulted f

/-- All that starting a session can come to. -/
inductive Launches [Host η σ] (s : Surroundings) (language command : Text) (fleet : Fleet η σ) :
    Except (Stop FleetError) (Session σ) → Fleet η σ → Prop
  | unlaunched {stop : Stop LaunchError} {site' : Site η σ}
      (hstarts : Starts s fleet.config (some language) command fleet.site (.error stop) site') :
      Launches s language command fleet (.error (launchStop stop)) { fleet with site := site' }
  | launched {session : Session σ} {site' : Site η σ}
      {result : Except (Stop FleetError) (Session σ)} {fleet' : Fleet η σ}
      (hstarts : Starts s fleet.config (some language) command fleet.site (.ok session) site')
      (hopens : Opens s language session { fleet with site := site' } result fleet') :
      Launches s language command fleet result fleet'

theorem start_launches [Host η σ] (s : Surroundings) (language command : Text) (fleet : Fleet η σ) :
    Launches s language command fleet (start s language command fleet).1
      (start s language command fleet).2 := by
  have hstarts := start_starts s fleet.config (some language) command fleet.site
  unfold start
  rw [Attempt.bind_of_ok (Attempt.get_apply fleet)]
  rcases hstart : Site.start s fleet.config (some language) command fleet.site with
    ⟨(e | f) | session, site'⟩
  all_goals
    rw [hstart] at hstarts
    simp only [Attempt.bind_apply, Attempt.onPart, Attempt.mapError, hstart]
  · exact .unlaunched hstarts
  · exact .unlaunched hstarts
  · exact .launched hstarts (openSession_opens s language session { fleet with site := site' })

/-! ## Asking for a session -/

/-- What is remembered of a start that has come to an end. -/
def concluded (language : Text) (result : Except (Stop FleetError) (Session σ))
    (fleet : Fleet η σ) : Fleet η σ :=
  match result with
  | .ok session => fleet.adopt language session
  | .error (.failed e) =>
    remember language e
      (fleet.remark .error ("LSP unavailable for " ++ language ++ Text.ofString ": " ++ e.message))
  | .error (.faulted _) => fleet

/-- A session whose server has ended is retired. -/
theorem retireEnded_cases (language : Text) (fleet : Fleet η σ) :
    fleet.retireEnded language = fleet ∧
        (∀ session, fleet.session? language = some session → session.isRunning = true) ∨
      ∃ session, fleet.session? language = some session ∧ session.isRunning = false ∧
        ∃ text, fleet.retireEnded language =
          ((fleet.remark .warning text).drop language).retire language session := by
  unfold retireEnded
  cases hsession : fleet.session? language with
  | none => exact Or.inl ⟨rfl, fun session h => nomatch h⟩
  | some session =>
      dsimp only
      by_cases hrunning : session.isRunning = true
      · rw [if_pos hrunning]
        exact Or.inl ⟨rfl, fun _ h => Option.some.inj h ▸ hrunning⟩
      · rw [if_neg hrunning]
        exact Or.inr ⟨session, rfl, Bool.eq_false_iff.mpr hrunning, _, rfl⟩

/-- All that asking for a session can come to. -/
inductive Found [Host η σ] (s : Surroundings) (language : Text) (fleet : Fleet η σ) :
    Except (Stop FleetError) (Session σ) → Fleet η σ → Prop
  | disabled (henable : fleet.config.enable = false) :
      Found s language fleet (.error (.failed .disabled)) fleet
  | cached {session : Session σ} (henable : fleet.config.enable = true)
      (hsession : (fleet.retireEnded language).session? language = some session) :
      Found s language fleet (.ok session) (fleet.retireEnded language)
  | remembered {e : FleetError} (henable : fleet.config.enable = true)
      (hsession : (fleet.retireEnded language).session? language = none)
      (hfailure : (fleet.retireEnded language).failure? language = some e) :
      Found s language fleet (.error (.failed e)) (fleet.retireEnded language)
  | unconfigured (henable : fleet.config.enable = true)
      (hsession : (fleet.retireEnded language).session? language = none)
      (hfailure : (fleet.retireEnded language).failure? language = none)
      (hserver : (fleet.retireEnded language).server? language = none) :
      Found s language fleet (.error (.failed (.noServer language))) (fleet.retireEnded language)
  | started {server : LanguageServer} {result : Except (Stop FleetError) (Session σ)}
      {fleet' : Fleet η σ} (henable : fleet.config.enable = true)
      (hsession : (fleet.retireEnded language).session? language = none)
      (hfailure : (fleet.retireEnded language).failure? language = none)
      (hserver : (fleet.retireEnded language).server? language = some server)
      (hlaunches : Launches s language server.command (fleet.retireEnded language) result fleet') :
      Found s language fleet result (fleet'.concluded language result)

theorem sessionFor_found [Host η σ] (s : Surroundings) (language : Text) (fleet : Fleet η σ) :
    Found s language fleet (sessionFor s language fleet).1 (sessionFor s language fleet).2 := by
  unfold sessionFor
  rw [Attempt.bind_of_ok (Attempt.get_apply fleet)]
  cases henable : fleet.config.enable with
  | false => exact .disabled henable
  | true =>
      simp only [Bool.not_true, Bool.false_eq_true, if_false]
      rw [Attempt.bind_of_ok (Attempt.modify_apply fleet (retireEnded language)),
        Attempt.bind_of_ok (Attempt.get_apply (fleet.retireEnded language))]
      cases hsession : (fleet.retireEnded language).session? language with
      | some session => exact .cached henable hsession
      | none =>
          cases hfailure : (fleet.retireEnded language).failure? language with
          | some e => exact .remembered henable hsession hfailure
          | none =>
              cases hserver : (fleet.retireEnded language).server? language with
              | none => exact .unconfigured henable hsession hfailure hserver
              | some server =>
                  have hlaunches :=
                    start_launches s language server.command (fleet.retireEnded language)
                  rcases hstart : start s language server.command (fleet.retireEnded language) with
                    ⟨(e | f) | session, fleet'⟩
                  all_goals
                    rw [hstart] at hlaunches
                    have hfound := Found.started henable hsession hfailure hserver hlaunches
                  · simp only [Attempt.bind_of_ok (Attempt.outcome_of_failed hstart)]
                    exact hfound
                  · simp only [Attempt.bind_of_error (Attempt.outcome_of_faulted hstart)]
                    exact hfound
                  · simp only [Attempt.bind_of_ok (Attempt.outcome_of_ok hstart)]
                    exact hfound

/-! ## Polling -/

/-- The end of an operation of a client as that of an operation of a fleet. -/
def clientStop : Stop ClientError → Stop FleetError
  | .failed e => .failed (.client e)
  | .faulted f => .faulted f

omit [Peer σ] in
theorem perform_of_none {α : Type} (s : Surroundings) {language : Text} (action : Operation σ α)
    {fleet : Fleet η σ} (hsession : fleet.session? language = none) :
    perform s language action fleet = (.error (.failed (.noServer language)), fleet) := by
  unfold perform
  rw [Attempt.bind_of_ok (Attempt.get_apply fleet), hsession]
  rfl

omit [Peer σ] in
theorem perform_of_some {α : Type} (s : Surroundings) {language : Text} (action : Operation σ α)
    {fleet : Fleet η σ} {session : Session σ} (hsession : fleet.session? language = some session) :
    ∃ result session' site', session.Ran action fleet.site result session' site' ∧
      perform s language action fleet =
        (result.mapError clientStop, update language session' { fleet with site := site' }) := by
  obtain ⟨result, session', site', hran, hoperate⟩ := operate_apply s session action fleet
  refine ⟨result, session', site', hran, ?_⟩
  unfold perform
  rw [Attempt.bind_of_ok (Attempt.get_apply fleet), hsession]
  simp only [Attempt.bind_of_ok hoperate]
  rcases result with (e | f) | a <;> rfl

/-- What is reported of a poll. -/
def report (language : Text) :
    Except (Stop FleetError) (Option ServerEvent) → List (Text × Except FleetError ServerEvent)
  | .ok none => []
  | .ok (some event) => [(language, .ok event)]
  | .error (.failed e) => [(language, .error e)]
  | .error (.faulted _) => []

/-- The others are polled once the first has been, unless that meets a fault. -/
theorem pollEach_cases (s : Surroundings) (language : Text) (languages : List Text)
    (fleet : Fleet η σ) :
    let first := perform s language Client.poll fleet
    let others := pollEach s languages first.2
    (∃ f, pollEach s (language :: languages) fleet = (.error (.faulted f), first.2)) ∨
      pollEach s (language :: languages) fleet =
        (others.1.map (report language first.1 ++ ·), others.2) := by
  dsimp only
  rw [pollEach]
  rcases hfirst : perform s language Client.poll fleet with ⟨outcome, fleet₁⟩
  rcases hothers : pollEach s languages fleet₁ with ⟨stop | rest, fleet₂⟩
  · rcases outcome with (e | f) | found
    · rw [Attempt.bind_of_ok (Attempt.outcome_of_failed hfirst), Attempt.bind_of_error hothers]
      exact Or.inr rfl
    · rw [Attempt.bind_of_error (Attempt.outcome_of_faulted hfirst)]
      exact Or.inl ⟨f, rfl⟩
    · rw [Attempt.bind_of_ok (Attempt.outcome_of_ok hfirst), Attempt.bind_of_error hothers]
      exact Or.inr rfl
  · rcases outcome with (e | f) | (_ | event)
    · rw [Attempt.bind_of_ok (Attempt.outcome_of_failed hfirst), Attempt.bind_of_ok hothers]
      exact Or.inr rfl
    · rw [Attempt.bind_of_error (Attempt.outcome_of_faulted hfirst)]
      exact Or.inl ⟨f, rfl⟩
    · rw [Attempt.bind_of_ok (Attempt.outcome_of_ok hfirst), Attempt.bind_of_ok hothers]
      exact Or.inr rfl
    · rw [Attempt.bind_of_ok (Attempt.outcome_of_ok hfirst), Attempt.bind_of_ok hothers]
      exact Or.inr rfl

/-- **What one poll after the other keeps.** -/
theorem pollEach_induction {P : Fleet η σ → Prop}
    (hpoll : ∀ fleet language session result session' site', P fleet →
      fleet.session? language = some session →
        session.Ran Client.poll fleet.site result session' site' →
          P (update language session' { fleet with site := site' }))
    (s : Surroundings) (languages : List Text) {fleet : Fleet η σ} (h : P fleet) :
    P (pollEach s languages fleet).2 := by
  induction languages generalizing fleet with
  | nil => exact h
  | cons language languages ih =>
      have hnext : P (perform s language Client.poll fleet).2 := by
        cases hsession : fleet.session? language with
        | none =>
            rw [perform_of_none s _ hsession]
            exact h
        | some session =>
            obtain ⟨result, session', site', hran, hperform⟩ :=
              perform_of_some s Client.poll hsession
            rw [hperform]
            exact hpoll _ _ _ _ _ _ h hsession hran
      rcases pollEach_cases s language languages fleet with ⟨f, hbroken⟩ | hround
      · rw [hbroken]
        exact hnext
      · rw [hround]
        exact ih hnext

/-! ## Closing -/

/-- The server of a session, as it is given up. -/
def serverOf (session : Session σ) : Nat × σ :=
  (session.client.processId, session.client.connection.peer)

omit [Peer σ] in
theorem foldl_abandon (sessions : List (Session σ)) (fleet : Fleet η σ) :
    sessions.foldl (fun fleet s => fleet.abandon s) fleet =
      { fleet with
        site := { fleet.site with
          abandoned := fleet.site.abandoned ++ sessions.map serverOf } } := by
  induction sessions generalizing fleet with
  | nil => simp
  | cons session sessions ih =>
      rw [List.foldl_cons, ih]
      simp [abandon, Site.abandonSession, Site.abandon, serverOf]

/-- **What closing one session after the other keeps.**  Sessions that are still to be closed are in
hand.  It ends with nobody in hand, or by a fault with some sessions in hand, which are given up. -/
theorem closeEach_cases {P : List (Text × Session σ) → Fleet η σ → Prop}
    (hremark : ∀ hand fleet level text, P hand fleet → P hand (fleet.remark level text))
    (hretire : ∀ language session rest fleet, P ((language, session) :: rest) fleet →
      P rest (fleet.retire language session))
    (hshutdown : ∀ language session rest fleet result session' site',
      P ((language, session) :: rest) fleet →
        session.Ran Client.shutdown fleet.site result session' site' →
          P ((language, session') :: rest) { fleet with site := site' })
    (s : Surroundings) (hand : List (Text × Session σ)) {fleet : Fleet η σ} (h : P hand fleet) :
    (∃ fleet', closeEach s hand fleet = (.ok (), fleet') ∧ P [] fleet') ∨
      ∃ f language session session' site' rest fleet',
        closeEach s hand fleet = (.error (.faulted f),
          (session' :: rest.map (·.2)).foldl (fun fleet s => fleet.abandon s)
            { fleet' with site := site' }) ∧
          P ((language, session) :: rest) fleet' ∧
            session.Ran Client.shutdown fleet'.site (.error (.faulted f)) session' site' := by
  induction hand generalizing fleet with
  | nil => exact Or.inl ⟨fleet, rfl, h⟩
  | cons first rest ih =>
      obtain ⟨language, session⟩ := first
      unfold closeEach
      by_cases hrunning : session.isRunning = true
      · obtain ⟨result, session', site', hran, hoperate⟩ :=
          operate_apply s session Client.shutdown fleet
        have hdone := hshutdown _ _ _ _ _ _ _ h hran
        simp only [hrunning, Bool.not_true, Bool.false_eq_true, if_false]
        rw [Attempt.bind_of_ok hoperate]
        rcases result with (e | f) | done
        · exact ih (hretire _ _ _ _ (hremark _ _ _ _ hdone))
        · exact Or.inr ⟨f, language, session, session', site', rest, fleet, rfl, h, hran⟩
        · exact ih (hretire _ _ _ _ hdone)
      · simp only [hrunning, Bool.not_false, if_true]
        exact ih (hretire _ _ _ _ h)

end Fleet

end LanguageClient
