import LanguageClient.Proofs.Fleet.Moves
import LanguageClient.Proofs.Fleet.Sharing
import LanguageClient.Proofs.Fleet.Uniqueness

/-!
# Languages are isolated from each other

Two runs of the same steps differ in what the servers of other languages do: they are not found, or
end, or garble their output, or refuse to shut down.  If no poll raises a fault, a language is told the
same in both.  The same is written to its servers, with one exception: a fault may break off the closing
of all sessions before the turn of the language, and then its server is given up without a word.  Main
statement: `run_isolated`.

```text
what the language sees             it is the same in both runs
what its session is answered       always
what polls report of it            always
its failure                        always
what is written to its servers     if and only if closing is cut off in both or in neither
```

## Strategy

Two fleets are level for a language if its outlook is the same in both (`Level`).  An action is the same
move of the language in both, but for the last words to its server if closing is cut off in one of them
only; then a shutdown is written in the other, as the session is open and ready (`Level.matched`).  So
fleets stay level (`Level.history`).  What was written to servers that have been lost stands in ledgers,
and each event adds as many entries to the one as to the other, so the ledgers are the same if and only
if every event adds the same (`lostFor_eq_iff`).
-/

namespace LanguageClient

namespace Outlook

variable {σ : Type}

/-- The server of the language does something of its own accord. -/
def served (change : σ → σ) (o : Outlook σ) : Outlook σ :=
  { o with client? := o.client?.map (·.served change) }

end Outlook

namespace StartOutcome

variable {τ σ : Type}

/-- The outcome, whatever the process id. -/
def nameless : StartOutcome σ → StartOutcome σ
  | started _ peer => started 0 peer
  | unusable _ peer e => unusable 0 peer e
  | refused e => refused e
  | impossible f => impossible f

theorem image_bare_nameless (outcome : StartOutcome (Tracked σ)) :
    (outcome.image Tracked.bare).nameless = outcome.anonymous := by
  cases outcome <;> rfl

end StartOutcome

/-- A part of the host decides what it has to say to a command, and no start changes it. -/
structure Host.Decides {η σ κ : Type} [Host η σ] (part : η → κ) (command : Text) : Prop where
  kept : ∀ other host, part (Host.start other host).2 = part host
  answer_eq : ∀ host₁ host₂, part host₁ = part host₂ →
    (Host.start command host₁).1.nameless = (Host.start command host₂).1.nameless

/-! ## Scripted hosts -/

namespace ScriptedHost

/-- What a host looks at when it is asked about a command. -/
def about (command : Text) (host : ScriptedHost) : Option (Text × Script) × Files × Text :=
  (host.scripts.find? (·.1 = command), host.files, host.workingDirectory)

/-- What the script of another command is makes no difference. -/
theorem about_cons {command other : Text} (h : other ≠ command) (script : Script)
    (scripts : List (Text × Script)) (files : Files) (workingDirectory : Text) (nextProcessId : Nat) :
    about command ⟨(other, script) :: scripts, files, workingDirectory, nextProcessId⟩ =
      about command ⟨scripts, files, workingDirectory, nextProcessId⟩ := by
  show (List.find? _ _, _) = (List.find? _ _, _)
  rw [List.find?_cons_of_neg (by simpa using h)]

theorem about_start (command other : Text) (host : ScriptedHost) :
    about command (host.start other).2 = about command host := by
  unfold ScriptedHost.start
  split
  · rfl
  · split <;> rfl

theorem decides (command : Text) : Host.Decides (about command) command where
  kept := about_start command
  answer_eq host₁ host₂ h := by
    obtain ⟨hscript, hrest⟩ := Prod.mk.inj h
    obtain ⟨hfiles, hdirectory⟩ := Prod.mk.inj hrest
    show (host₁.start command).1.nameless = (host₂.start command).1.nameless
    unfold ScriptedHost.start
    rw [hscript, hfiles, hdirectory]
    split
    · rfl
    · split <;> rfl

end ScriptedHost

namespace Fleet

variable {η σ : Type}

/-! ## What the configuration decides -/

section Config

variable {fleet₁ fleet₂ : TrackedFleet η σ}

theorem language?_congr (h : fleet₁.config = fleet₂.config) (action : Action) :
    fleet₁.language? action = fleet₂.language? action := by
  cases action with
  | sessionForPath path =>
      rw [language?, language?, h]
  | sessionFor | pollAll | closeAll => rfl

theorem server?_congr (h : fleet₁.config = fleet₂.config) (l : Text) :
    fleet₁.server? l = fleet₂.server? l := by
  rw [server?, server?, h]

end Config

/-! ## The world -/

/-- What the world does to the servers depends on them only, and not on their numbers. -/
def Step.Blind : Step η σ → Prop
  | .action .. => True
  | .world servers _ _ => ∀ m n, servers m = servers n

theorem Step.Blind.exists_change {servers : Nat → σ → σ} {host : η → η} {files : Files → Files}
    (h : (Step.world servers host files).Blind) : ∃ change, servers = fun _ => change :=
  ⟨servers 0, funext fun n => h n 0⟩

theorem outlook_elsewhere (l : Text) (fleet : TrackedFleet η σ) (change : σ → σ) (host : η → η)
    (files : Files → Files) :
    (fleet.elsewhere (fun _ => change) host files).outlook l = (fleet.outlook l).served change := by
  rw [outlook, session?_elsewhere, Outlook.served, outlook, Option.map_map, Option.map_map]
  rfl

theorem Ledger.elsewhere {l : Text} {fleet : TrackedFleet η σ} {numbers : List Nat}
    {lost : List Writes} (h : Ledger l fleet numbers lost) (servers : Nat → σ → σ) (host : η → η)
    (files : Files → Files) : Ledger l (fleet.elsewhere servers host files) numbers lost := by
  obtain ⟨past, hnumbers, hlost⟩ := h
  refine ⟨past, ?_, hlost.imp fun n writes ⟨w, hmem, hw⟩ => ?_⟩
  · rw [hnumbers, session?_elsewhere]
    cases fleet.session? l <;> rfl
  · refine ⟨Tracked.served servers w, ?_, hw⟩
    rcases List.mem_append.mp hmem with hmem | hmem
    · obtain ⟨entry, hentry, rfl⟩ := List.mem_map.mp hmem
      refine List.mem_append_left _ (List.mem_map.mpr ⟨_, List.mem_map_of_mem hentry, ?_⟩)
      rfl
    · obtain ⟨entry, hentry, rfl⟩ := List.mem_map.mp hmem
      refine List.mem_append_right _ (List.mem_map.mpr ⟨_, List.mem_map_of_mem hentry, ?_⟩)
      rfl

/-- A fault breaks off a poll of all sessions. -/
def Event.breaksPoll (e : Event η σ) : Bool :=
  match e.action with
  | .pollAll => (Attempt.fault? e.result).isSome
  | _ => false

/-- Closing is cut off for a language whose server runs. -/
theorem Event.closes_of_cutsOff [Peer σ] {l : Text} {e : Event η σ} (h : e.cutsOff l = true) :
    e.action = .closeAll ∧
      ∃ client, (e.before.outlook l).client? = some client ∧ client.isRunning = true := by
  unfold Event.cutsOff at h
  cases haction : e.action with
  | closeAll =>
      rw [haction] at h
      obtain ⟨hruns, -⟩ := (Bool.and_eq_true _ _).mp h
      obtain ⟨session, hsession, hrunning⟩ := (Option.any_eq_true _ _).mp hruns
      refine ⟨rfl, session.client.anonymous, ?_, hrunning⟩
      rw [outlook, hsession]
      rfl
  | sessionFor | sessionForPath | pollAll =>
      rw [haction] at h
      cases h

/-! ## What was written -/

/-- All attempts to write to the server with a number, wherever it is. -/
def writtenTo (fleet : TrackedFleet η σ) (n : Nat) : Writes :=
  match (fleet.owned ++ fleet.released).find? (·.number = n) with
  | some w => w.writes
  | none => []

/-- No two servers have the same number. -/
theorem writtenTo_of_mem {fleet : TrackedFleet η σ} (h : Orderly [] fleet) {w : Tracked σ}
    (hmem : w ∈ fleet.owned ++ fleet.released) : writtenTo fleet w.number = w.writes := by
  have hnodup : ((fleet.owned ++ fleet.released).map Tracked.number).Nodup :=
    h.placed.nodup_iff.mpr List.nodup_range
  obtain ⟨v, hfind⟩ : ∃ v, (fleet.owned ++ fleet.released).find? (·.number = w.number) = some v :=
    Option.isSome_iff_exists.mp (List.find?_isSome.mpr ⟨w, hmem, decide_eq_true rfl⟩)
  have hnumber : v.number = w.number := by simpa using List.find?_some hfind
  have hsame : v = w :=
    List.inj_on_of_nodup_map hnodup (List.mem_of_find?_eq_some hfind) hmem hnumber
  rw [writtenTo, hfind, hsame]

/-- The ledger and the open session tell what was written. -/
theorem Ledger.written {l : Text} {fleet : TrackedFleet η σ} {numbers : List Nat}
    {lost : List Writes} (h : Ledger l fleet numbers lost) (ho : Orderly [] fleet) :
    numbers.map (writtenTo fleet) =
      lost ++ (fleet.outlook l).client?.toList.map Client.writes := by
  obtain ⟨past, hnumbers, hlost⟩ := h
  have hpast : List.Forall₂ Eq (past.map (writtenTo fleet)) lost := by
    refine List.forall₂_map_left_iff.mpr (hlost.imp fun n writes ⟨w, hmem, hnumber, hwrites⟩ => ?_)
    rw [← hnumber, ← hwrites]
    exact writtenTo_of_mem ho (List.mem_append_right _ hmem)
  rw [List.forall₂_eq_eq_eq] at hpast
  rw [hnumbers, List.map_append, hpast, outlook]
  cases hsession : fleet.session? l with
  | none => rfl
  | some session =>
      obtain ⟨earlier, later, hsplit, -⟩ := ho.exists_split hsession
      have hmem : session.server ∈ fleet.owned := by
        rw [owned, hsplit]
        simp
      have hwritten := writtenTo_of_mem ho (List.mem_append_left _ hmem)
      show lost ++ [writtenTo fleet session.server.number] = _
      rw [hwritten]
      rfl

/-! ## One run -/

section Runs

variable [Peer σ] [Host η σ]

/-- What is known of every fleet of a run without traces in which nobody else holds a client. -/
structure Sound (fleet : TrackedFleet η σ) : Prop where
  untraced : fleet.config.trace = .off
  orderly : Orderly [] fleet
  shared : Shared (fun _ => False) fleet

theorem Sound.action {e : Event η σ} (h : Sound e.before) (hhappens : e.Happens) : Sound e.after where
  untraced := (Event.premises_eq hhappens).1.symm ▸ h.untraced
  orderly := (Event.orderly hhappens h.orderly).1
  shared := (Event.shared hhappens h.shared).1

omit [Peer σ] [Host η σ] in
theorem Sound.elsewhere {fleet : TrackedFleet η σ} (h : Sound fleet) (servers : Nat → σ → σ)
    (host : η → η) (files : Files → Files) : Sound (fleet.elsewhere servers host files) :=
  ⟨h.untraced, h.orderly.elsewhere servers host files, h.shared.elsewhere servers host files⟩

omit [Peer σ] [Host η σ] in
theorem sound_ofConfig {config : Config Text} (htrace : config.trace = .off) (workspace : Text)
    (host : η) (files : Files) :
    Sound (ofConfig config workspace ⟨⟨host, 0⟩, files, [], []⟩ : TrackedFleet η σ) where
  untraced := htrace
  orderly := orderly_ofConfig config workspace host files
  shared := shared_ofConfig config workspace host files

omit [Peer σ] [Host η σ] in
/-- At the start no language has a server, nor has it lost one. -/
theorem ledger_ofConfig (l : Text) (config : Config Text) (workspace : Text) (host : η)
    (files : Files) :
    Ledger l (ofConfig config workspace ⟨⟨host, 0⟩, files, [], []⟩ : TrackedFleet η σ) [] [] :=
  ⟨[], rfl, .nil⟩

/-- A language gets what its machine says. -/
theorem Sound.follows {e : Event η σ} (h : Sound e.before) (l : Text) (hhappens : e.Happens)
    (hpoll : e.breaksPoll = false) : e.Follows l := by
  refine Event.follows hhappens h.orderly h.untraced fun haction => ?_
  rw [Event.breaksPoll, haction] at hpoll
  exact Option.not_isSome_iff_eq_none.mp (Bool.eq_false_iff.mp hpoll)

/-- The numbers of the servers that were launched for a language. -/
def numbersFor (l : Text) (events : List (Event η σ)) : List Nat := events.flatMap (·.numbers l)

/-- What was written to the servers that the language lost. -/
def lostFor (l : Text) (events : List (Event η σ)) : List Writes :=
  events.flatMap fun e => (e.move l).lost

/-- **The ledger of a run is what its events add to it.** -/
theorem Ledger.history {l : Text} {fleet : TrackedFleet η σ} {numbers : List Nat}
    {lost : List Writes} (h : Ledger l fleet numbers lost) (hs : Sound fleet)
    (steps : List (Step η σ)) (hpolls : ∀ e ∈ (fleet.history steps).1, e.breaksPoll = false) :
    Sound (fleet.history steps).2 ∧
      Ledger l (fleet.history steps).2 (numbers ++ numbersFor l (fleet.history steps).1)
        (lost ++ lostFor l (fleet.history steps).1) := by
  induction steps generalizing fleet numbers lost with
  | nil => exact ⟨hs, by simpa [Fleet.history, numbersFor, lostFor] using h⟩
  | cons step steps ih =>
      cases step with
      | world servers host files => exact ih (h.elsewhere _ _ _) (hs.elsewhere servers host files) hpolls
      | action s action =>
          obtain ⟨hpoll, hpolls⟩ := List.forall_mem_cons.mp hpolls
          have hhappens := eventOf_happens s fleet action
          have hfollows := hs.follows l hhappens hpoll
          obtain ⟨hlast, hledger⟩ := ih (hfollows.ledger _ _ h) (hs.action hhappens) hpolls
          rw [List.append_assoc, List.append_assoc] at hledger
          exact ⟨hlast, hledger⟩

/-! ## Two runs -/

/-- Two fleets in which a language is in the same position. -/
structure Level (l : Text) (fleet₁ fleet₂ : TrackedFleet η σ) : Prop where
  config_eq : fleet₁.config = fleet₂.config
  workspace_eq : fleet₁.workspace = fleet₂.workspace
  outlook_eq : fleet₁.outlook l = fleet₂.outlook l

/-- Two events in which a language gets the same, but perhaps for what is written to a server that it
loses, and that only if closing is cut off in one of them. -/
structure Matched (l : Text) (e₁ e₂ : Event η σ) : Prop where
  reply?_eq : (e₁.move l).reply? = (e₂.move l).reply?
  reports_eq : (e₁.move l).reports = (e₂.move l).reports
  outlook_eq : (e₁.move l).outlook = (e₂.move l).outlook
  length_eq : (e₁.move l).lost.length = (e₂.move l).lost.length
  lost_eq_iff : (e₁.move l).lost = (e₂.move l).lost ↔ e₁.cutsOff l = e₂.cutsOff l

section Level

variable {l : Text} {fleet₁ fleet₂ : TrackedFleet η σ}

omit [Peer σ] [Host η σ] in
theorem Level.elsewhere (h : Level l fleet₁ fleet₂) (change : σ → σ) (host : η → η)
    (files : Files → Files) :
    Level l (fleet₁.elsewhere (fun _ => change) host files)
      (fleet₂.elsewhere (fun _ => change) host files) := by
  refine ⟨h.config_eq, h.workspace_eq, ?_⟩
  rw [outlook_elsewhere, outlook_elsewhere, h.outlook_eq]

/-- The same action is the same move, if the host has the same to say and closing is cut off alike. -/
theorem Level.move_eq (h : Level l fleet₁ fleet₂) {s : Surroundings} {action : Action}
    (hoffer : (eventOf s fleet₁ action).offer? l = (eventOf s fleet₂ action).offer? l)
    (hcut : (eventOf s fleet₁ action).cutsOff l = (eventOf s fleet₂ action).cutsOff l) :
    (eventOf s fleet₁ action).move l = (eventOf s fleet₂ action).move l := by
  have hlanguage : (eventOf s fleet₁ action).language? = (eventOf s fleet₂ action).language? :=
    language?_congr h.config_eq action
  have hparams : fleet₁.introduction s = fleet₂.introduction s := by
    rw [introduction, introduction, h.config_eq, h.workspace_eq]
  unfold Event.move
  rw [hoffer, hcut, hlanguage]
  show (fleet₁.outlook l).next s fleet₁.config (fleet₁.introduction s) l _ _ _ action = _
  rw [h.outlook_eq, h.config_eq, hparams]
  rfl

/-- Closing is cut off in one of two fleets only if there is a client to be closed, and it is ready. -/
theorem Level.closes_of_cutsOff_ne (h : Level l fleet₁ fleet₂) (hs : Sound fleet₁)
    {s : Surroundings} {action : Action}
    (hcut : (eventOf s fleet₁ action).cutsOff l ≠ (eventOf s fleet₂ action).cutsOff l) :
    action = .closeAll ∧ ∃ client, (fleet₁.outlook l).client? = some client ∧
      client.isRunning = true ∧ client.phase = .initialized := by
  obtain ⟨haction, client, hclient, hrunning⟩ : action = .closeAll ∧
      ∃ client, (fleet₁.outlook l).client? = some client ∧ client.isRunning = true := by
    rcases Bool.eq_false_or_eq_true ((eventOf s fleet₁ action).cutsOff l) with h₁ | h₁
    · exact Event.closes_of_cutsOff h₁
    · have h₂ : (eventOf s fleet₂ action).cutsOff l = true := by
        rw [h₁] at hcut
        exact (Bool.not_eq_false _).mp hcut.symm
      rw [h.outlook_eq]
      exact Event.closes_of_cutsOff h₂
  obtain ⟨session, hsession, rfl⟩ := Option.map_eq_some_iff.mp hclient
  have hready := (hs.shared.stands_of_session? hsession).ready id
  exact ⟨haction, _, hclient, hrunning, hready.1⟩

/-- **An action gives a language the same in fleets that are level.** -/
theorem Level.matched (h : Level l fleet₁ fleet₂) (hs : Sound fleet₁) {s : Surroundings}
    {action : Action}
    (hoffer : (eventOf s fleet₁ action).offer? l = (eventOf s fleet₂ action).offer? l) :
    Matched l (eventOf s fleet₁ action) (eventOf s fleet₂ action) := by
  by_cases hcut : (eventOf s fleet₁ action).cutsOff l = (eventOf s fleet₂ action).cutsOff l
  · have hmove := h.move_eq hoffer hcut
    exact ⟨by rw [hmove], by rw [hmove], by rw [hmove], by rw [hmove],
      iff_of_true (by rw [hmove]) hcut⟩
  · obtain ⟨rfl, client, hclient, hrunning, hphase⟩ := h.closes_of_cutsOff_ne hs hcut
    have hmoves : ∀ {fleet : TrackedFleet η σ}, fleet.outlook l = fleet₁.outlook l →
        (eventOf s fleet .closeAll).move l = ⟨none, [], { fleet₁.outlook l with client? := none },
          [if (eventOf s fleet .closeAll).cutsOff l then client.writes else client.finalWrites]⟩ := by
      intro fleet houtlook
      have hbefore : (eventOf s fleet .closeAll).before.outlook l = fleet₁.outlook l := houtlook
      rw [Event.move_of_close rfl, hbefore, Outlook.closed, hclient]
      rfl
    have hne := Client.closing_ne hrunning hphase hcut
    have h₁ := hmoves rfl
    have h₂ := hmoves h.outlook_eq.symm
    refine ⟨by rw [h₁, h₂], by rw [h₁, h₂], by rw [h₁, h₂], by rw [h₁, h₂]; rfl, ?_⟩
    rw [h₁, h₂]
    exact iff_of_false (fun hsame => hne (List.cons.inj hsame).1) hcut

/-- **Fleets that are level stay so.** -/
theorem Level.action (h : Level l fleet₁ fleet₂) {s : Surroundings} {action : Action}
    (hmatched : Matched l (eventOf s fleet₁ action) (eventOf s fleet₂ action))
    (hfollows₁ : (eventOf s fleet₁ action).Follows l)
    (hfollows₂ : (eventOf s fleet₂ action).Follows l) :
    Level l (eventOf s fleet₁ action).after (eventOf s fleet₂ action).after := by
  obtain ⟨hconfig₁, hworkspace₁⟩ := Event.premises_eq (eventOf_happens s fleet₁ action)
  obtain ⟨hconfig₂, hworkspace₂⟩ := Event.premises_eq (eventOf_happens s fleet₂ action)
  refine ⟨?_, ?_, ?_⟩
  · exact (hconfig₁.trans h.config_eq).trans hconfig₂.symm
  · exact (hworkspace₁.trans h.workspace_eq).trans hworkspace₂.symm
  · exact (hfollows₁.outlook_eq.trans hmatched.outlook_eq).trans hfollows₂.outlook_eq.symm

end Level

/-- What two runs may not differ in for a language: what the host has to say to its command.  And no
poll raises a fault. -/
structure ServedAlike (l : Text) (events₁ events₂ : List (Event η σ)) : Prop where
  offers : events₁.map (Event.offer? l) = events₂.map (Event.offer? l)
  polls₁ : ∀ e ∈ events₁, e.breaksPoll = false
  polls₂ : ∀ e ∈ events₂, e.breaksPoll = false

omit [Peer σ] in
theorem ServedAlike.of_cons {l : Text} {e₁ e₂ : Event η σ} {events₁ events₂ : List (Event η σ)}
    (h : ServedAlike l (e₁ :: events₁) (e₂ :: events₂)) :
    e₁.offer? l = e₂.offer? l ∧ e₁.breaksPoll = false ∧ e₂.breaksPoll = false ∧
      ServedAlike l events₁ events₂ := by
  obtain ⟨hoffer, hoffers⟩ := List.cons.inj h.offers
  obtain ⟨hpoll₁, hpolls₁⟩ := List.forall_mem_cons.mp h.polls₁
  obtain ⟨hpoll₂, hpolls₂⟩ := List.forall_mem_cons.mp h.polls₂
  exact ⟨hoffer, hpoll₁, hpoll₂, hoffers, hpolls₁, hpolls₂⟩

/-- **Runs of level fleets match, event by event.** -/
theorem Level.history {l : Text} {fleet₁ fleet₂ : TrackedFleet η σ} (h : Level l fleet₁ fleet₂)
    (hs₁ : Sound fleet₁) (hs₂ : Sound fleet₂) {steps : List (Step η σ)}
    (hblind : ∀ step ∈ steps, step.Blind)
    (hserved : ServedAlike l (fleet₁.history steps).1 (fleet₂.history steps).1) :
    List.Forall₂ (fun e₁ e₂ => e₁.Follows l ∧ e₂.Follows l ∧ Matched l e₁ e₂)
        (fleet₁.history steps).1 (fleet₂.history steps).1 ∧
      Level l (fleet₁.history steps).2 (fleet₂.history steps).2 := by
  induction steps generalizing fleet₁ fleet₂ with
  | nil => exact ⟨.nil, h⟩
  | cons step steps ih =>
      obtain ⟨hstep, hsteps⟩ := List.forall_mem_cons.mp hblind
      cases step with
      | world servers host files =>
          obtain ⟨change, hchange⟩ := hstep.exists_change
          rw [hchange] at hserved ⊢
          exact ih (h.elsewhere change host files) (hs₁.elsewhere _ host files)
            (hs₂.elsewhere _ host files) hsteps hserved
      | action s action =>
          obtain ⟨hoffer, hpoll₁, hpoll₂, hserved⟩ := hserved.of_cons
          have hhappens₁ := eventOf_happens s fleet₁ action
          have hhappens₂ := eventOf_happens s fleet₂ action
          have hfollows₁ := hs₁.follows l hhappens₁ hpoll₁
          have hfollows₂ := hs₂.follows l hhappens₂ hpoll₂
          have hmatched := h.matched hs₁ hoffer
          obtain ⟨hrest, hlast⟩ := ih (h.action hmatched hfollows₁ hfollows₂)
            (hs₁.action hhappens₁) (hs₂.action hhappens₂) hsteps hserved
          exact ⟨.cons ⟨hfollows₁, hfollows₂, hmatched⟩ hrest, hlast⟩

/-- Runs that match tell the same of the servers that were lost, if and only if closing is cut off
alike. -/
theorem lostFor_eq_iff {l : Text} {events₁ events₂ : List (Event η σ)}
    (h : List.Forall₂ (Matched l) events₁ events₂) :
    lostFor l events₁ = lostFor l events₂ ↔
      events₁.map (Event.cutsOff l) = events₂.map (Event.cutsOff l) := by
  induction h with
  | nil => exact iff_of_true rfl rfl
  | @cons e₁ e₂ events₁ events₂ hfirst hrest ih =>
      rw [List.map_cons, List.map_cons, List.cons.injEq, ← hfirst.lost_eq_iff, ← ih]
      -- as many servers are lost, so both sides fall apart at the same place
      exact ⟨fun hsame => List.append_inj hsame hfirst.length_eq,
        fun ⟨hlost, hsame⟩ => congrArg₂ (· ++ ·) hlost hsame⟩

/-! ## Hosts that differ elsewhere -/

/-- The world changes the part of a host as it may, but alike in hosts that have it in common. -/
def Step.Keeps {κ : Type} (part : η → κ) : Step η σ → Prop
  | .action .. => True
  | .world _ host _ => ∀ host₁ host₂, part host₁ = part host₂ → part (host host₁) = part (host host₂)

section Hosts

variable {κ : Type} {part : η → κ} {l command : Text}

omit [Peer σ] in
theorem answer?_congr (h : Host.Decides part command) {site₁ site₂ : Site (Counting η) (Tracked σ)}
    (hpart : part site₁.host.host = part site₂.host.host) :
    (site₁.answer? command).map StartOutcome.anonymous =
      (site₂.answer? command).map StartOutcome.anonymous := by
  have hsame := h.answer_eq _ _ hpart
  rw [Counting.alike_host.start, Counting.alike_host.start, StartOutcome.image_bare_nameless,
    StartOutcome.image_bare_nameless] at hsame
  unfold Site.answer?
  split
  · rfl
  · exact congrArg some hsame

omit [Peer σ] in
theorem part_hostAfter (h : Host.Decides part command) (other : Text)
    (site : Site (Counting η) (Tracked σ)) : part (site.hostAfter other).host = part site.host.host := by
  unfold Site.hostAfter
  split
  · rfl
  · have hkept := h.kept other site.host.host
    rw [Counting.alike_host.start] at hkept
    exact hkept

theorem Event.part_eq (h : Host.Decides part command) {e : Event η σ} (hhappens : e.Happens) :
    part e.after.site.host.host = part e.before.site.host.host := by
  obtain ⟨s, action, before, result, after⟩ := e
  change Acts s before action result after at hhappens
  cases hhappens with
  | found _ hfound =>
      rcases hfound.at_language with hconsulted | hattempted
      · exact congrArg (fun host : Counting η => part host.host) hconsulted.host_eq
      · obtain ⟨other, hhost⟩ := hattempted.host_eq
        rw [hhost]
        exact part_hostAfter h other before.site
  | unfiled => rfl
  | polled =>
      exact congrArg (fun host : Counting η => part host.host)
        (pollEach_tables s (before.sessions.map (·.1)) before).host_eq
  | closed =>
      exact congrArg (fun host : Counting η => part host.host)
        (closeEach_tables s before.sessions { before with sessions := [] }).2

/-- **Hosts that have in common what decides for a language have the same to say to it**, whatever they
have to say to all others. -/
theorem offers_eq (h : Host.Decides part command) {fleet₁ fleet₂ : TrackedFleet η σ}
    (hconfig : fleet₁.config = fleet₂.config)
    (hcommand : (fleet₁.server? l).map LanguageServer.command = some command)
    (hpart : part fleet₁.site.host.host = part fleet₂.site.host.host) {steps : List (Step η σ)}
    (hkeeps : ∀ step ∈ steps, step.Keeps part) :
    (fleet₁.history steps).1.map (Event.offer? l) =
      (fleet₂.history steps).1.map (Event.offer? l) := by
  induction steps generalizing fleet₁ fleet₂ with
  | nil => rfl
  | cons step steps ih =>
      obtain ⟨hstep, hsteps⟩ := List.forall_mem_cons.mp hkeeps
      cases step with
      | world servers host files =>
          exact ih hconfig hcommand (hstep _ _ hpart) hsteps
      | action s action =>
          have hhappens₁ := eventOf_happens s fleet₁ action
          have hhappens₂ := eventOf_happens s fleet₂ action
          have hconfig₁ := (Event.premises_eq hhappens₁).1
          have hconfig₂ := (Event.premises_eq hhappens₂).1
          have hserver : (eventOf s fleet₁ action).after.server? l = fleet₁.server? l :=
            server?_congr hconfig₁ l
          have hpart' : part (eventOf s fleet₁ action).after.site.host.host =
              part (eventOf s fleet₂ action).after.site.host.host := by
            rw [Event.part_eq h hhappens₁, Event.part_eq h hhappens₂]
            exact hpart
          refine congrArg₂ List.cons ?_ (ih ?_ (hserver ▸ hcommand) hpart' hsteps)
          · have hoffer : fleet₁.offer? l = fleet₂.offer? l := by
              obtain ⟨server, hserver, rfl⟩ := Option.map_eq_some_iff.mp hcommand
              rw [offer?, offer?, ← server?_congr hconfig, hserver]
              exact congrArg some (answer?_congr h hpart)
            have hlanguage : (eventOf s fleet₁ action).language? = (eventOf s fleet₂ action).language? :=
              language?_congr hconfig action
            rw [Event.offer?, Event.offer?, hlanguage]
            exact if_congr Iff.rfl hoffer rfl
          · exact (hconfig₁.trans hconfig).trans hconfig₂.symm

end Hosts

/-! ## What a language can tell -/

/-- What was written to the servers of a language in a run, one launch after the other. -/
def writtenFor (l : Text) (run : List (Event η σ) × TrackedFleet η σ) : List Writes :=
  (numbersFor l run.1).map (writtenTo run.2)

/-- What a language is told is the same in two runs. -/
structure ToldAlike (l : Text) (run₁ run₂ : List (Event η σ) × TrackedFleet η σ) : Prop where
  /-- Whoever asks for its session is answered the same, up to process ids. -/
  replies : run₁.1.map (Event.reply? l) = run₂.1.map (Event.reply? l)
  /-- Polls report the same of it, in the same order. -/
  reports : run₁.1.map (Event.reports l) = run₂.1.map (Event.reports l)
  failure?_eq : run₁.2.failure? l = run₂.2.failure? l

/-- What matching events give is told alike. -/
theorem map_eq_map_of_forall₂ {α β γ : Type} {R : α → β → Prop} {f : α → γ} {g : β → γ}
    (hR : ∀ a b, R a b → f a = g b) {as : List α} {bs : List β} (h : List.Forall₂ R as bs) :
    as.map f = bs.map g := by
  rw [← List.forall₂_eq_eq_eq, List.forall₂_map_left_iff, List.forall₂_map_right_iff]
  exact h.imp hR

/-- Runs of fleets that are level and have lost nothing yet. -/
theorem Level.isolated {l : Text} {fleet₁ fleet₂ : TrackedFleet η σ} (h : Level l fleet₁ fleet₂)
    (hs₁ : Sound fleet₁) (hs₂ : Sound fleet₂) (hnew₁ : Ledger l fleet₁ [] [])
    (hnew₂ : Ledger l fleet₂ [] []) {steps : List (Step η σ)} (hblind : ∀ step ∈ steps, step.Blind)
    (hserved : ServedAlike l (fleet₁.history steps).1 (fleet₂.history steps).1) :
    ToldAlike l (fleet₁.history steps) (fleet₂.history steps) ∧
      (writtenFor l (fleet₁.history steps) = writtenFor l (fleet₂.history steps) ↔
        (fleet₁.history steps).1.map (Event.cutsOff l) =
          (fleet₂.history steps).1.map (Event.cutsOff l)) := by
  obtain ⟨hevents, hlast⟩ := h.history hs₁ hs₂ hblind hserved
  refine ⟨⟨?_, ?_, congrArg Outlook.failure? hlast.outlook_eq⟩, ?_⟩
  · refine map_eq_map_of_forall₂ ?_ hevents
    intro e₁ e₂ ⟨hfollows₁, hfollows₂, hmatched⟩
    rw [hfollows₁.reply?_eq, hfollows₂.reply?_eq, hmatched.reply?_eq]
  · refine map_eq_map_of_forall₂ ?_ hevents
    intro e₁ e₂ ⟨hfollows₁, hfollows₂, hmatched⟩
    rw [hfollows₁.reports_eq, hfollows₂.reports_eq, hmatched.reports_eq]
  · obtain ⟨hlast₁, hledger₁⟩ := hnew₁.history hs₁ steps hserved.polls₁
    obtain ⟨hlast₂, hledger₂⟩ := hnew₂.history hs₂ steps hserved.polls₂
    have hwritten₁ := hledger₁.written hlast₁.orderly
    have hwritten₂ := hledger₂.written hlast₂.orderly
    rw [List.nil_append, List.nil_append] at hwritten₁ hwritten₂
    rw [← lostFor_eq_iff (hevents.imp fun _ _ hmatched => hmatched.2.2), writtenFor, writtenFor,
      hwritten₁, hwritten₂, hlast.outlook_eq]
    exact List.append_left_inj _

/-- **Languages are isolated from each other.**  Take two runs of the same steps on any two hosts that
have the same to say to the command of a language whenever its session is asked for, and so may do
anything to all other languages.  If no poll raises a fault, the language is told the same in both; and
the same is written to its servers if and only if every closing that is cut off for it in the one run is
cut off for it in the other.

Servers of any kind have a place in `σ`, and a server may hold what it will do in its state, so it is no
restriction that the world changes all servers in the same way. -/
theorem run_isolated (l : Text) (config : Config Text) (workspace : Text) (host₁ host₂ : η)
    (files : Files) (steps : List (Step η σ)) (htrace : config.trace = .off)
    (hblind : ∀ step ∈ steps, step.Blind) :
    let run₁ := run config workspace host₁ files steps
    let run₂ := run config workspace host₂ files steps
    ServedAlike l run₁.1 run₂.1 →
      ToldAlike l run₁ run₂ ∧
        (writtenFor l run₁ = writtenFor l run₂ ↔
          run₁.1.map (Event.cutsOff l) = run₂.1.map (Event.cutsOff l)) := by
  intro run₁ run₂ hserved
  have hlevel : Level l (ofConfig config workspace ⟨⟨host₁, 0⟩, files, [], []⟩ : TrackedFleet η σ)
      (ofConfig config workspace ⟨⟨host₂, 0⟩, files, [], []⟩ : TrackedFleet η σ) := ⟨rfl, rfl, rfl⟩
  apply hlevel.isolated
  · exact sound_ofConfig htrace workspace host₁ files
  · exact sound_ofConfig htrace workspace host₂ files
  · exact ledger_ofConfig l config workspace host₁ files
  · exact ledger_ofConfig l config workspace host₂ files
  · exact hblind
  · exact hserved

end Runs

/-- A server that takes its leave with a number of too many digits. -/
def boastful : Script where
  start := []
  rules := [("initialize", [[.reply (.object [("capabilities", .object [])])]]),
    ("shutdown", [[.raw (Utf8.ofChars "Content-Length: 4301".toList ++ Frame.separator ++
      List.replicate 4301 0x31)]])]

/-- The session of a second language is opened behind that of a first, whose server runs a script; they
are polled, and closed. -/
def servedBehind (script : Script) :
    List (Event ScriptedHost ScriptedServer) × TrackedFleet ScriptedHost ScriptedServer :=
  let s : Surroundings := ⟨"/", "/home", 1, "2024-01-01", "12:00:00", []⟩
  run ⟨true, [("first", ⟨"first-ls", ["1"]⟩), ("second", ⟨"second-ls", ["2"]⟩)], .zero, 1, .off, .null⟩
    "/" ⟨[("first-ls", script), ("second-ls", obliging)], .empty, "/", 1000⟩ .empty
    [.action s (.sessionFor "first"), .action s (.sessionFor "second"), .action s .pollAll,
      .action s .closeAll]

/-- Of every event: whether closing is cut off for the second language, and whether a poll raises a
fault. -/
def noticed (script : Script) : List (Bool × Bool) :=
  (servedBehind script).1.map fun e => (e.cutsOff "second", e.breaksPoll)

theorem noticed_cuts (script : Script) :
    (noticed script).map (·.1) = (servedBehind script).1.map (Event.cutsOff "second") := by
  rw [noticed, List.map_map]
  rfl

theorem noticed_polls {script : Script} (h : ∀ entry ∈ noticed script, entry.2 = false) :
    ∀ e ∈ (servedBehind script).1, e.breaksPoll = false :=
  fun _ hmem => h _ (List.mem_map_of_mem hmem)

theorem noticed_obliging :
    noticed obliging = [(false, false), (false, false), (false, false), (false, false)] := by
  decide +kernel

/-- The host has the same to say to the second language, whatever the script of the first. -/
theorem servedBehind_alike {script : Script} (h : ∀ entry ∈ noticed script, entry.2 = false) :
    ServedAlike "second" (servedBehind obliging).1 (servedBehind script).1 := by
  have hother : Text.ofString "first-ls" ≠ "second-ls" := by decide +kernel
  have hquiet : ∀ entry ∈ noticed obliging, entry.2 = false := by simp [noticed_obliging]
  refine ⟨?_, noticed_polls hquiet, noticed_polls h⟩
  apply offers_eq (ScriptedHost.decides "second-ls")
  · rfl
  · decide +kernel
  · exact (ScriptedHost.about_cons hother _ _ _ _ _).trans
      (ScriptedHost.about_cons hother _ _ _ _ _).symm
  · simp [Step.Keeps]

/-- The second language is told the same whether the first server obliges, ends at once, or takes its
leave with a number of too many digits; but in the last case not all is written to its own server. -/
theorem servedBehind_isolated :
    (ToldAlike "second" (servedBehind obliging) (servedBehind ⟨[.exit], []⟩) ∧
        writtenFor "second" (servedBehind obliging) =
          writtenFor "second" (servedBehind ⟨[.exit], []⟩)) ∧
      ToldAlike "second" (servedBehind obliging) (servedBehind boastful) ∧
        writtenFor "second" (servedBehind obliging) ≠ writtenFor "second" (servedBehind boastful) := by
  have hisolated : ∀ script, (∀ entry ∈ noticed script, entry.2 = false) →
      ToldAlike "second" (servedBehind obliging) (servedBehind script) ∧
        (writtenFor "second" (servedBehind obliging) = writtenFor "second" (servedBehind script) ↔
          (noticed obliging).map (·.1) = (noticed script).map (·.1)) := by
    intro script hquiet
    rw [noticed_cuts, noticed_cuts]
    exact run_isolated "second" _ _ _ _ _ _ rfl (by simp [Step.Blind]) (servedBehind_alike hquiet)
  have hending : noticed ⟨[.exit], []⟩ =
      [(false, false), (false, false), (false, false), (false, false)] := by
    decide +kernel
  have hboastful : noticed boastful =
      [(false, false), (false, false), (false, false), (true, false)] := by
    decide +kernel
  obtain ⟨htoldEnding, hwrittenEnding⟩ := hisolated ⟨[.exit], []⟩ (by simp [hending])
  obtain ⟨htoldBoastful, hwrittenBoastful⟩ := hisolated boastful (by simp [hboastful])
  refine ⟨⟨htoldEnding, hwrittenEnding.mpr ?_⟩, htoldBoastful, fun hsame => ?_⟩
  · rw [noticed_obliging, hending]
  · have hcuts := hwrittenBoastful.mp hsame
    rw [noticed_obliging, hboastful] at hcuts
    exact nomatch hcuts

end Fleet

end LanguageClient
