import LanguageClient.Proofs.Fleet.Tables
import Mathlib.Algebra.GroupWithZero.Nat

/-!
# One session for each language

A language has an open session, or a failure that is remembered, or neither; never both.  A session
whose server runs is the answer to whoever asks for it, and a failure is the answer for ever.  So a
language costs one launch, and one more for every session that it has lost.  Main statement:
`run_tables`.

## Strategy

Each result is read off what an action does to the tables.  The launches are counted by a potential: a
language holds one unit as long as it has a session or a failure (`held`), a launch for it pays the
unit that it holds afterwards, and what has been lost on the way was found dead, dropped, or broken
off by a fault (`launches_add_held_le`).
-/

namespace LanguageClient

namespace Fleet

open Site

variable {η σ : Type}

/-! ## Invariants -/

/-- No language is in both tables, and a fleet that is switched off has no session. -/
structure Tidy (fleet : Fleet η σ) : Prop where
  exclusive : ∀ l, fleet.session? l = none ∨ fleet.failure? l = none
  enabled : ∀ l, (fleet.session? l).isSome = true → fleet.config.enable = true

section Tidy

variable [Peer σ] [Host η σ] {s : Surroundings} {language : Text} {fleet fleet' : Fleet η σ}

theorem Found.tidy {result : Except (Stop FleetError) (Session σ)}
    (h : Found s language fleet result fleet') (ht : Tidy fleet) : Tidy fleet' := by
  refine ⟨fun l => ?_, fun l hl => ?_⟩
  · by_cases hother : language = l
    · subst hother
      rcases h.at_language with ⟨hsession | ⟨-, hsame⟩, hfailure, -⟩ | ⟨-, -, -, hsession, hfailure, -⟩
      · rw [hsession, hfailure]
        exact (ht.exclusive language).imp_left fun hnone => by rw [hnone]; rfl
      · rw [hsame]
        exact ht.exclusive language
      · -- what has just been started is a session or a failure
        rw [hsession, hfailure]
        rcases result with (e | f) | session
        · exact Or.inl rfl
        · exact Or.inl rfl
        · exact Or.inr rfl
    · obtain ⟨hsession, hfailure⟩ := h.other hother
      rw [hsession, hfailure]
      exact ht.exclusive l
  · rw [h.config_eq]
    by_cases hother : language = l
    · subst hother
      rcases h.at_language with ⟨hsession | ⟨-, hsame⟩, -⟩ | ⟨henable, -⟩
      · rw [hsession] at hl
        refine ht.enabled language ?_
        cases hbefore : fleet.session? language with
        | none => rw [hbefore] at hl; cases hl
        | some session => rfl
      · rw [hsame] at hl
        exact ht.enabled language hl
      · exact henable
    · rw [(h.other hother).1] at hl
      exact ht.enabled l hl

theorem Acts.tidy {action : Action} {result : Except (Stop FleetError) (Answer σ)}
    (h : Acts s fleet action result fleet') (ht : Tidy fleet) : Tidy fleet' := by
  cases h with
  | found _ hfound => exact hfound.tidy ht
  | unfiled => exact ht
  | polled =>
      have hpolled := pollEach_tables s (fleet.sessions.map (·.1)) fleet
      refine ⟨fun l => ?_, fun l hl => ?_⟩
      · rw [failure?, hpolled.failures_eq, ← Option.not_isSome_iff_eq_none, hpolled.isSome_eq,
          Option.not_isSome_iff_eq_none]
        exact ht.exclusive l
      · rw [hpolled.isSome_eq] at hl
        rw [hpolled.config_eq]
        exact ht.enabled l hl
  | closed =>
      have hclosed := (closeEach_tables s fleet.sessions { fleet with sessions := [] }).1
      have hnone : ∀ l, (closeEach s fleet.sessions { fleet with sessions := [] }).2.session? l = none :=
        fun l => hclosed.session?_eq l
      exact ⟨fun l => Or.inl (hnone l), fun l hl => by rw [hnone l] at hl; cases hl⟩

end Tidy

/-! ## Runs -/

section Runs

variable [Peer σ] [Host η σ]

omit [Peer σ] [Host η σ] in
theorem session?_elsewhere (fleet : TrackedFleet η σ) (servers : Nat → σ → σ) (host : η → η)
    (files : Files → Files) (l : Text) :
    (fleet.elsewhere servers host files).session? l =
      (fleet.session? l).map (Session.mapServer (Tracked.served servers)) := by
  unfold session? elsewhere
  dsimp only
  rw [List.find?_map, Option.map_map, Option.map_map]
  rfl

omit [Peer σ] [Host η σ] in
theorem Tidy.elsewhere {fleet : TrackedFleet η σ} (h : Tidy fleet) (servers : Nat → σ → σ)
    (host : η → η) (files : Files → Files) : Tidy (fleet.elsewhere servers host files) where
  exclusive l := by
    rw [session?_elsewhere, Option.map_eq_none_iff]
    exact h.exclusive l
  enabled l hl := by
    rw [session?_elsewhere, Option.isSome_map] at hl
    exact h.enabled l hl

theorem tidy_stable : Stable (Tidy (η := Counting η) (σ := Tracked σ)) :=
  ⟨fun _ hhappens h => hhappens.tidy h, fun _ _ _ _ h => h.elsewhere _ _ _⟩

/-- What is remembered of a language stays. -/
theorem failure_stable (l : Text) (e : FleetError) :
    Stable fun fleet : TrackedFleet η σ =>
      fleet.config.enable = true ∧ fleet.failure? l = some e := by
  refine ⟨fun event hhappens ⟨henable, hfailure⟩ => ?_, fun _ _ _ _ h => h⟩
  rcases event with ⟨s, action, before, result, after⟩
  change Acts s before action result after at hhappens
  cases hhappens with
  | @found language _ _ _ hfound =>
      refine ⟨hfound.config_eq ▸ henable, ?_⟩
      by_cases hl : language = l
      · subst hl
        rcases hfound.at_language with hconsulted | hattempted
        · exact hconsulted.failure?_eq.trans hfailure
        · rw [hattempted.unknown] at hfailure
          cases hfailure
      · exact (hfound.other hl).2.trans hfailure
  | unfiled => exact ⟨henable, hfailure⟩
  | polled =>
      have hpolled := pollEach_tables s (before.sessions.map (·.1)) before
      rw [hpolled.config_eq, failure?, hpolled.failures_eq]
      exact ⟨henable, hfailure⟩
  | closed =>
      have hclosed := (closeEach_tables s before.sessions { before with sessions := [] }).1
      rw [hclosed.config_eq, hclosed.failure?_eq]
      exact ⟨henable, hfailure⟩

/-! ## Counting launches -/

namespace Event

/-- The session of a language was asked for, and its server was found to have ended. -/
def findsEnded (e : Event η σ) (l : Text) : Bool :=
  e.language? = some l && (e.before.session? l).any fun session => !session.isRunning

omit [Peer σ] [Host η σ] in
/-- The session of a language was closed with all the others. -/
def drops (e : Event η σ) (l : Text) : Bool :=
  match e.action with
  | .closeAll => (e.before.session? l).isSome
  | _ => false

omit [Peer σ] [Host η σ] in
/-- The session of a language was asked for, and a fault came instead of an answer. -/
def breaksOff (e : Event η σ) (l : Text) : Bool :=
  e.language? = some l && (Attempt.fault? e.result).isSome

end Event

omit [Peer σ] [Host η σ] in
/-- One, if a language has a session or a failure. -/
def held (l : Text) (fleet : TrackedFleet η σ) : Nat :=
  if (fleet.session? l).isSome || (fleet.failure? l).isSome then 1 else 0

omit [Peer σ] [Host η σ] in
theorem held_le_one (l : Text) (fleet : TrackedFleet η σ) : held l fleet ≤ 1 := by
  unfold held
  split <;> omega

theorem Attempted.launches_le {l : Text} {fleet fleet' : TrackedFleet η σ}
    {result : Except (Stop FleetError) (Session (Tracked σ))} (h : Attempted l fleet result fleet') :
    fleet'.launches ≤ fleet.launches + 1 := by
  obtain ⟨command, hhost⟩ := h.host_eq
  unfold launches
  rw [hhost]
  rcases hostAfter_launches command fleet.site with ⟨-, hsame⟩ | ⟨peer, -, hnext⟩ <;> omega

omit [Peer σ] [Host η σ] in
theorem held_eq {l : Text} {fleet fleet' : TrackedFleet η σ}
    (hsession : (fleet'.session? l).isSome = (fleet.session? l).isSome)
    (hfailure : fleet'.failure? l = fleet.failure? l) : held l fleet' = held l fleet := by
  rw [held, held, hsession, hfailure]

omit [Host η σ] in
theorem toNat_any_of_ended {session : Session (Tracked σ)} (h : session.isRunning = false) :
    ((some session).any fun session => !session.isRunning).toNat = 1 := by
  rw [Option.any_some, h]
  rfl

omit [Host η σ] in
theorem Consulted.held_le {l : Text} {fleet fleet' : TrackedFleet η σ}
    (h : Consulted l fleet fleet') :
    held l fleet ≤
      held l fleet' + ((fleet.session? l).any fun session => !session.isRunning).toNat := by
  rcases h.session?_eq with hsession | ⟨-, hsame⟩
  · cases hbefore : fleet.session? l with
    | none =>
        rw [hbefore] at hsession
        rw [held_eq (by rw [hsession, hbefore]; rfl) h.failure?_eq]
        exact Nat.le_add_right _ _
    | some session =>
        rw [hbefore, Option.filter_some] at hsession
        cases hrunning : session.isRunning with
        | true =>
            rw [hrunning] at hsession
            rw [held_eq (by rw [hsession, hbefore]; rfl) h.failure?_eq]
            exact Nat.le_add_right _ _
        | false =>
            -- the unit that is lost was found dead
            have hone := held_le_one l fleet
            have hfound := toNat_any_of_ended hrunning
            omega
  · rw [hsame]
    exact Nat.le_add_right _ _

theorem Attempted.held_le {l : Text} {fleet fleet' : TrackedFleet η σ}
    {result : Except (Stop FleetError) (Session (Tracked σ))} (h : Attempted l fleet result fleet') :
    held l fleet ≤ ((fleet.session? l).any fun session => !session.isRunning).toNat ∧
      1 ≤ held l fleet' + (Attempt.fault? result).isSome.toNat := by
  constructor
  · have hunserved := h.unserved
    cases hbefore : fleet.session? l with
    | none =>
        rw [held, hbefore, h.unknown]
        exact Nat.le_refl _
    | some session =>
        rw [hbefore, Option.filter_eq_none_iff] at hunserved
        have hone := held_le_one l fleet
        have hfound := toNat_any_of_ended (Bool.eq_false_iff.mpr (hunserved session rfl))
        omega
  · rw [held, h.session?_eq, h.failure?_eq]
    rcases result with (e | f) | session <;> exact Nat.le_refl _

/-- Where the session of a language is asked for. -/
theorem launches_of_asked {e : Event η σ} (h : e.Happens) {l : Text}
    (hlanguage : e.language? = some l) :
    e.launches + held l e.before ≤
      held l e.after + ((e.findsEnded l).toNat + (e.breaksOff l).toNat) := by
  obtain ⟨result, hfound, hresult⟩ := e.found h hlanguage
  rw [Event.findsEnded, Event.breaksOff, hlanguage, decide_eq_true rfl, Bool.true_and,
    Bool.true_and, Event.launches, hresult, Attempt.fault?_map]
  rcases hfound.at_language with hconsulted | hattempted
  · have hheld := hconsulted.held_le
    have hlaunches : e.after.launches = e.before.launches := by
      rw [launches, hconsulted.host_eq]
      rfl
    omega
  · have hheld := hattempted.held_le
    have hlaunches := hattempted.launches_le
    omega

/-- Where it is not. -/
theorem held_of_not_asked {e : Event η σ} (h : e.Happens) {l : Text}
    (hlanguage : e.language? ≠ some l) : held l e.before ≤ held l e.after + (e.drops l).toNat := by
  rcases e with ⟨s, action, before, result, after⟩
  change Acts s before action result after at h
  change before.language? action ≠ some l at hlanguage
  cases h with
  | @found language result _ hasked hfound =>
      have hother : language ≠ l := fun heq => hlanguage (heq ▸ hasked)
      obtain ⟨hsession, hfailure⟩ := hfound.other hother
      exact (held_eq (congrArg Option.isSome hsession) hfailure).ge.trans (Nat.le_add_right _ _)
  | unfiled => exact Nat.le_add_right _ _
  | polled =>
      have hpolled := pollEach_tables s (before.sessions.map (·.1)) before
      have hfailure : (pollEach s (before.sessions.map (·.1)) before).2.failure? l =
          before.failure? l := by
        rw [failure?, hpolled.failures_eq]
        rfl
      exact (held_eq (hpolled.isSome_eq l) hfailure).ge.trans (Nat.le_add_right _ _)
  | closed haction =>
      have hclosed := (closeEach_tables s before.sessions { before with sessions := [] }).1
      subst haction
      simp only [held, hclosed.failure?_eq, Event.drops]
      show _ ≤ (if (_ || (before.failure? l).isSome) = true then 1 else 0) + _
      cases before.session? l <;> cases before.failure? l <;> simp

/-- **What a language holds pays for its launches.** -/
theorem launches_add_held_le {e : Event η σ} (h : e.Happens) (l : Text) :
    (if e.language? = some l then e.launches else 0) + held l e.before ≤
      held l e.after + ((e.findsEnded l).toNat + (e.drops l).toNat + (e.breaksOff l).toNat) := by
  by_cases hlanguage : e.language? = some l
  · have hasked := launches_of_asked h hlanguage
    rw [if_pos hlanguage]
    omega
  · have hnot := held_of_not_asked h hlanguage
    rw [if_neg hlanguage]
    omega

theorem launches_of_no_language {e : Event η σ} (h : e.Happens) (hlanguage : e.language? = none) :
    e.launches = 0 := by
  rcases e with ⟨s, action, before, result, after⟩
  change Acts s before action result after at h
  change before.language? action = none at hlanguage
  suffices hhost : after.site.host = before.site.host by
    rw [Event.launches, launches, launches, hhost, Nat.sub_self]
  cases h with
  | found hasked => rw [hlanguage] at hasked; cases hasked
  | unfiled => rfl
  | polled => exact (pollEach_tables s (before.sessions.map (·.1)) before).host_eq
  | closed => exact (closeEach_tables s before.sessions { before with sessions := [] }).2

omit [Peer σ] [Host η σ] in
/-- How many servers were launched for a language. -/
def launchesFor (l : Text) (events : List (Event η σ)) : Nat :=
  ((events.filter fun e => e.language? = some l).map Event.launches).sum

omit [Peer σ] [Host η σ] in
theorem launchesFor_cons (l : Text) (e : Event η σ) (events : List (Event η σ)) :
    launchesFor l (e :: events) =
      (if e.language? = some l then e.launches else 0) + launchesFor l events := by
  unfold launchesFor
  by_cases h : e.language? = some l
  · simp [h]
  · simp [h]

theorem history_launches_le (l : Text) (fleet : TrackedFleet η σ) (steps : List (Step η σ)) :
    launchesFor l (fleet.history steps).1 + held l fleet ≤
      held l (fleet.history steps).2 + ((fleet.history steps).1.countP (·.findsEnded l) +
        (fleet.history steps).1.countP (·.drops l) +
          (fleet.history steps).1.countP (·.breaksOff l)) := by
  induction steps generalizing fleet with
  | nil => exact (Nat.zero_add _).le.trans (Nat.le_add_right _ _)
  | cons step steps ih =>
      cases step with
      | action s action =>
          have hevent := launches_add_held_le (eventOf_happens s fleet action) l
          have hlater := ih (eventOf s fleet action).after
          have hbefore : (eventOf s fleet action).before = fleet := rfl
          rw [hbefore] at hevent
          rw [history, launchesFor_cons, List.countP_cons, List.countP_cons, List.countP_cons]
          have htoNat : ∀ b : Bool, b.toNat = if b = true then 1 else 0 := by decide
          simp only [htoNat] at hevent
          dsimp only
          omega
      | world servers host files =>
          have hlater := ih (fleet.elsewhere servers host files)
          have hheld : held l (fleet.elsewhere servers host files) = held l fleet := by
            refine held_eq ?_ rfl
            rw [session?_elsewhere, Option.isSome_map]
          rw [hheld] at hlater
          exact hlater

/-- A start that failed is remembered, and every later answer is the same failure. -/
theorem pairwise_failures {fleet : TrackedFleet η σ} (htidy : Tidy fleet) (steps : List (Step η σ)) :
    (fleet.history steps).1.Pairwise fun e e' => ∀ l failure, e.language? = some l →
      e.result = .error (.failed failure) → failure.isLasting = true → e'.language? = some l →
        e'.result = .error (.failed failure) ∧ e'.after = e'.before := by
  refine history_pairwise tidy_stable (fun e hhappens hbefore => ?_) htidy steps
  by_cases hfails : ∃ l failure, e.language? = some l ∧ e.result = .error (.failed failure) ∧
      failure.isLasting = true
  · obtain ⟨l, failure, hlanguage, hfailed, hlasting⟩ := hfails
    refine ⟨_, failure_stable l failure, ?_, ?_⟩
    · obtain ⟨result, hfound, hresult⟩ := e.found hhappens hlanguage
      have hstart : result = .error (.failed failure) := by
        rw [hfailed] at hresult
        rcases result with (e | f) | session <;> cases hresult
        rfl
      obtain ⟨henable, hfailure⟩ := hfound.remembers hstart hlasting
      exact ⟨hfound.config_eq ▸ henable, hfailure⟩
    · intro e' hhappens' htidy' ⟨henable, hfailure⟩ l' failure' hl hfailed' _ hl'
      obtain rfl : l = l' := Option.some.inj (hlanguage.symm.trans hl)
      obtain rfl : failure = failure' := by
        rw [hfailed] at hfailed'
        exact Stop.failed.inj (Except.error.inj hfailed')
      obtain ⟨result, hfound, hresult⟩ := e'.found hhappens' hl'
      have hnone : e'.before.session? l = none :=
        (htidy'.exclusive l).resolve_right fun hnone => by
          rw [hnone] at hfailure
          cases hfailure
      obtain ⟨rfl, hsame⟩ := hfound.of_failure henable hnone hfailure
      exact ⟨hresult, hsame⟩
  · refine ⟨fun _ => True, ⟨fun _ _ _ => trivial, fun _ _ _ _ _ => trivial⟩, trivial, ?_⟩
    intro e' _ _ _ l failure hlanguage hfailed hlasting
    exact absurd ⟨l, failure, hlanguage, hfailed, hlasting⟩ hfails

/-- **One session for each language, and failures are remembered.**  In every run, whatever the
servers, the host and the file system do: no language has both a session and a failure; a session that
runs is the answer to whoever asks for it; once a start or a first exchange has failed, this failure is
the answer for ever, and nothing is started; and a language costs one launch, and another one for every
session that was found to have ended, or was closed with all the others, and for every start that was
broken off by a fault. -/
theorem run_tables (config : Config Text) (workspace : Text) (host : η) (files : Files)
    (steps : List (Step η σ)) :
    let run := run config workspace host files steps
    (∀ l, run.2.session? l = none ∨ run.2.failure? l = none) ∧
      (∀ e ∈ run.1, ∀ l session, e.language? = some l → e.before.session? l = some session →
        session.isRunning = true → e.result = .ok (.session session) ∧ e.after = e.before) ∧
      (run.1.Pairwise fun e e' => ∀ l failure, e.language? = some l →
        e.result = .error (.failed failure) → failure.isLasting = true → e'.language? = some l →
          e'.result = .error (.failed failure) ∧ e'.after = e'.before) ∧
      (∀ e ∈ run.1, e.language? = none → e.launches = 0) ∧
      ∀ l, launchesFor l run.1 ≤ 1 + (run.1.countP (·.findsEnded l) + run.1.countP (·.drops l) +
        run.1.countP (·.breaksOff l)) := by
  intro run
  have htidy : Tidy (ofConfig config workspace ⟨⟨host, 0⟩, files, [], []⟩ : TrackedFleet η σ) :=
    ⟨fun _ => Or.inl rfl, fun _ h => nomatch h⟩
  obtain ⟨hevents, hlast⟩ := tidy_stable.history htidy steps
  refine ⟨hlast.exclusive, fun e hmem l session hlanguage hsession hrunning => ?_,
    pairwise_failures htidy steps, fun e hmem => launches_of_no_language (hevents e hmem).1, fun l => ?_⟩
  · obtain ⟨hhappens, hbefore⟩ := hevents e hmem
    obtain ⟨result, hfound, hresult⟩ := e.found hhappens hlanguage
    have henable := hbefore.enabled l (by rw [hsession]; rfl)
    obtain ⟨rfl, hsame⟩ := hfound.of_running henable hsession hrunning
    exact ⟨hresult, hsame⟩
  · have hle := history_launches_le l
      (ofConfig config workspace ⟨⟨host, 0⟩, files, [], []⟩ : TrackedFleet η σ) steps
    exact ((Nat.le_add_right _ _).trans hle).trans (Nat.add_le_add_right (held_le_one l run.2) _)

end Runs

end Fleet

end LanguageClient
