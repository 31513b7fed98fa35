import LanguageClient.Proofs.Fleet.Launched
import LanguageClient.Proofs.Fleet.Operations

/-!
# The history of a fleet

A fleet is used by actions, and between two actions the world goes on: servers do what they like, and
so do the host and the file system.  Of every action there is an event, which says what the fleet was
before, what the action gave, and what the fleet was after.  Servers are numbered and watched, so
every one of them can be followed through a run.

## Strategy

A run is only taken apart here: what no step can end holds at every event (`Stable.history`), and what
one event means for all later ones is said by a stable property that it begins (`history_pairwise`).
-/

namespace LanguageClient

/-- A fleet whose servers are numbered and watched. -/
abbrev TrackedFleet (η σ : Type) : Type := Fleet (Counting η) (Tracked σ)

namespace Fleet

variable {η σ : Type}

/-! ## Actions -/

/-- What the user of a fleet may do. -/
inductive Action where
  | sessionFor (language : Text)
  | sessionForPath (path : Text)
  | pollAll
  | closeAll

/-- What an action gives that does not stop early. -/
inductive Answer (σ : Type) where
  | session (session : Session σ)
  | polled (outcomes : List (Text × Except FleetError ServerEvent))
  | closed

/-- The language whose session is asked for. -/
def language? (fleet : Fleet η σ) : Action → Option Text
  | .sessionFor language => some language
  | .sessionForPath path => fleet.config.languageFor? path
  | .pollAll | .closeAll => none

/-- The outcome of an operation as that of an action. -/
def outcomeOf {α : Type} (answer : α → Answer σ) (outcome : Except (Stop FleetError) α × Fleet η σ) :
    Except (Stop FleetError) (Answer σ) × Fleet η σ :=
  (outcome.1.map answer, outcome.2)

section Acts

variable [Peer σ] [Host η σ]

/-- Takes an action. -/
def act (s : Surroundings) (fleet : Fleet η σ) :
    Action → Except (Stop FleetError) (Answer σ) × Fleet η σ
  | .sessionFor language => outcomeOf .session (sessionFor s language fleet)
  | .sessionForPath path => outcomeOf .session (sessionForPath s path fleet)
  | .pollAll => outcomeOf .polled (pollAll s fleet)
  | .closeAll => outcomeOf (fun _ => .closed) (closeAll s fleet)

/-- All that an action can do. -/
inductive Acts (s : Surroundings) (fleet : Fleet η σ) (action : Action) :
    Except (Stop FleetError) (Answer σ) → Fleet η σ → Prop
  | found {language : Text} {result : Except (Stop FleetError) (Session σ)} {fleet' : Fleet η σ}
      (hlanguage : fleet.language? action = some language)
      (hfound : Found s language fleet result fleet') :
      Acts s fleet action (result.map .session) fleet'
  | unfiled {path : Text} (haction : action = .sessionForPath path)
      (hlanguage : fleet.language? action = none) :
      Acts s fleet action (.error (.failed (.noLanguage path))) fleet
  | polled (haction : action = .pollAll) :
      Acts s fleet action ((pollEach s (fleet.sessions.map (·.1)) fleet).1.map .polled)
        (pollEach s (fleet.sessions.map (·.1)) fleet).2
  | closed (haction : action = .closeAll) :
      Acts s fleet action
        ((closeEach s fleet.sessions { fleet with sessions := [] }).1.map fun _ => .closed)
        (closeEach s fleet.sessions { fleet with sessions := [] }).2

theorem act_acts (s : Surroundings) (fleet : Fleet η σ) (action : Action) :
    Acts s fleet action (fleet.act s action).1 (fleet.act s action).2 := by
  cases action with
  | sessionFor language => exact .found rfl (sessionFor_found s language fleet)
  | sessionForPath path =>
      cases hlanguage : fleet.config.languageFor? path with
      | none =>
          have hact : sessionForPath s path fleet = (.error (.failed (.noLanguage path)), fleet) := by
            unfold sessionForPath
            rw [Attempt.bind_of_ok (Attempt.get_apply fleet), hlanguage]
            rfl
          rw [act, hact]
          exact .unfiled rfl hlanguage
      | some language =>
          have hact : sessionForPath s path fleet = sessionFor s language fleet := by
            unfold sessionForPath
            rw [Attempt.bind_of_ok (Attempt.get_apply fleet), hlanguage]
          rw [act, hact]
          exact .found hlanguage (sessionFor_found s language fleet)
  | pollAll => exact .polled rfl
  | closeAll => exact .closed rfl

end Acts

/-! ## Runs -/

/-- What may happen next: an action, or something that the world does of its own accord. -/
inductive Step (η σ : Type) where
  | action (s : Surroundings) (action : Action)
  | world (servers : Nat → σ → σ) (host : η → η) (files : Files → Files)

/-- An action that was taken. -/
structure Event (η σ : Type) where
  surroundings : Surroundings
  action : Action
  before : TrackedFleet η σ
  result : Except (Stop FleetError) (Answer (Tracked σ))
  after : TrackedFleet η σ

/-- How many servers have been launched. -/
def launches (fleet : TrackedFleet η σ) : Nat := fleet.site.host.launches

namespace Event

/-- The language whose session was asked for. -/
def language? (e : Event η σ) : Option Text := e.before.language? e.action

/-- How many servers the action launched. -/
def launches (e : Event η σ) : Nat := e.after.launches - e.before.launches

end Event

/-- The fleet after the world has gone on. -/
def elsewhere (fleet : TrackedFleet η σ) (servers : Nat → σ → σ) (host : η → η)
    (files : Files → Files) : TrackedFleet η σ :=
  { fleet with
    sessions := fleet.sessions.map fun s => (s.1, s.2.mapServer (Tracked.served servers))
    retired := fleet.retired.map fun s => (s.1, s.2.mapServer (Tracked.served servers))
    site :=
      { fleet.site with
        host := { fleet.site.host with host := host fleet.site.host.host }
        files := files fleet.site.files
        abandoned := fleet.site.abandoned.map fun s => (s.1, Tracked.served servers s.2) } }

variable [Peer σ] [Host η σ]

/-- The event of an action. -/
def eventOf (s : Surroundings) (fleet : TrackedFleet η σ) (action : Action) : Event η σ where
  surroundings := s
  action := action
  before := fleet
  result := (fleet.act s action).1
  after := (fleet.act s action).2

/-- The event is one that can happen. -/
def Event.Happens (e : Event η σ) : Prop :=
  Acts e.surroundings e.before e.action e.result e.after

theorem eventOf_happens (s : Surroundings) (fleet : TrackedFleet η σ) (action : Action) :
    (eventOf s fleet action).Happens :=
  act_acts s fleet action

/-- Where the session of a language is asked for, it is looked for. -/
theorem Event.found {e : Event η σ} (h : e.Happens) {language : Text}
    (hlanguage : e.language? = some language) :
    ∃ result, Found e.surroundings language e.before result e.after ∧
      e.result = result.map .session := by
  rcases e with ⟨s, action, before, result, after⟩
  change Acts s before action result after at h
  change before.language? action = some language at hlanguage
  cases h with
  | found hasked hfound =>
      obtain rfl := Option.some.inj (hasked.symm.trans hlanguage)
      exact ⟨_, hfound, rfl⟩
  | unfiled _ hnone => rw [hnone] at hlanguage; cases hlanguage
  | polled haction | closed haction => rw [haction] at hlanguage; cases hlanguage

/-- The events of a run, and the fleet after it. -/
def history (fleet : TrackedFleet η σ) : List (Step η σ) → List (Event η σ) × TrackedFleet η σ
  | [] => ([], fleet)
  | .action s action :: steps =>
    (eventOf s fleet action :: ((eventOf s fleet action).after.history steps).1,
      ((eventOf s fleet action).after.history steps).2)
  | .world servers host files :: steps => (fleet.elsewhere servers host files).history steps

/-- What no step can end. -/
structure Stable (P : TrackedFleet η σ → Prop) : Prop where
  action : ∀ e : Event η σ, e.Happens → P e.before → P e.after
  world : ∀ fleet servers host files, P fleet → P (elsewhere fleet servers host files)

/-- **What is stable holds at every event of a run, and after it.** -/
theorem Stable.history {P : TrackedFleet η σ → Prop} (h : Stable P) {fleet : TrackedFleet η σ}
    (hfleet : P fleet) (steps : List (Step η σ)) :
    (∀ e ∈ (fleet.history steps).1, e.Happens ∧ P e.before) ∧ P (fleet.history steps).2 := by
  induction steps generalizing fleet with
  | nil => exact ⟨fun _ hmem => absurd hmem List.not_mem_nil, hfleet⟩
  | cons step steps ih =>
      cases step with
      | action s action =>
          obtain ⟨hevents, hlast⟩ := ih (h.action _ (eventOf_happens s fleet action) hfleet)
          refine ⟨fun e hmem => ?_, hlast⟩
          rcases List.mem_cons.mp hmem with rfl | hmem
          · exact ⟨eventOf_happens s fleet action, hfleet⟩
          · exact hevents e hmem
      | world servers host files => exact ih (h.world fleet servers host files hfleet)

/-- **What an event means for all later ones.** -/
theorem history_pairwise {R : Event η σ → Event η σ → Prop} {I : TrackedFleet η σ → Prop}
    (hI : Stable I)
    (hR : ∀ e : Event η σ, e.Happens → I e.before →
      ∃ P, Stable P ∧ P e.after ∧ ∀ e' : Event η σ, e'.Happens → I e'.before → P e'.before → R e e')
    {fleet : TrackedFleet η σ} (hfleet : I fleet) (steps : List (Step η σ)) :
    (fleet.history steps).1.Pairwise R := by
  induction steps generalizing fleet with
  | nil => exact .nil
  | cons step steps ih =>
      cases step with
      | action s action =>
          have hhappens := eventOf_happens s fleet action
          have hnext := hI.action _ hhappens hfleet
          refine List.pairwise_cons.mpr ⟨fun e' hmem => ?_, ih hnext⟩
          obtain ⟨P, hstable, hafter, hlater⟩ := hR _ hhappens hfleet
          obtain ⟨hhappens', hbefore⟩ := (hstable.history hafter steps).1 e' hmem
          exact hlater e' hhappens' ((hI.history hnext steps).1 e' hmem).2 hbefore
      | world servers host files => exact ih (hI.world fleet servers host files hfleet)

/-- A run of a fleet from its start; the host has launched nothing for it yet. -/
def run (config : Config Text) (workspace : Text) (host : η) (files : Files)
    (steps : List (Step η σ)) : List (Event η σ) × TrackedFleet η σ :=
  (ofConfig config workspace ⟨⟨host, 0⟩, files, [], []⟩ : TrackedFleet η σ).history steps

end Fleet

end LanguageClient
