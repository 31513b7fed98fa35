import LanguageClient.Proofs.Fleet.Rounds

/-!
# What a language gets out of an action

An action of a fleet is a move of every language: its session is asked for, polled or closed, or nothing
happens to it.  What the language gets out of it depends on its own outlook, on what the host has to say
to its command, and on whether a fault came before its turn when everything was closed, and on nothing
else of the fleet.  Main statement: `Event.follows`.

```text
the action                      the move of the language
its session is asked for        `Outlook.asked`
all sessions are polled         `Outlook.polled`
all sessions are closed         `Outlook.closed`
another session is asked for    nothing
```
-/

namespace LanguageClient

open LanguageClient.Fleet

/-! ## What a language sees of an action -/

/-- What a language gets out of an action. -/
structure Move (σ : Type) where
  /-- What whoever asks for its session is answered. -/
  reply? : Option (Except (Stop FleetError) (Option (Client (Watched σ))))
  /-- What a poll reports of it. -/
  reports : List (Text × Except FleetError ServerEvent)
  outlook : Outlook σ
  /-- What was written to the servers that it loses. -/
  lost : List Writes

namespace Outlook

variable {σ : Type} [Peer σ]

/-- What an action does, if it asks for the session of the language, and if it does not. -/
def next (s : Surroundings) (config : Config Text) (params : Except Utf8.EncodeError Payload)
    (language : Text) (offer : Option (Option (StartOutcome σ))) (cut asks : Bool) (action : Action)
    (o : Outlook σ) : Move σ :=
  if asks then
    let asked := o.asked s config params language offer
    ⟨some (asked.1.map some), [], asked.2.1, asked.2.2⟩
  else
    match action with
    | .pollAll => ⟨none, (o.polled language).1, (o.polled language).2, []⟩
    | .closeAll => ⟨none, [], (o.closed cut).1, (o.closed cut).2⟩
    | .sessionFor _ | .sessionForPath _ => ⟨none, [], o, []⟩

end Outlook

namespace Fleet

variable {η σ : Type}

/-- The client that is handed out, whatever its process id. -/
def Answer.client? : Answer (Tracked σ) → Option (Client (Watched σ))
  | .session found => some found.client.anonymous
  | _ => none

namespace Event

/-- What whoever asks for the session of the language is answered, whatever the process id. -/
def reply? (l : Text) (e : Event η σ) :
    Option (Except (Stop FleetError) (Option (Client (Watched σ)))) :=
  if e.language? = some l then some (e.result.map Answer.client?) else none

/-- What a poll reports of the language. -/
def reports (l : Text) (e : Event η σ) : List (Text × Except FleetError ServerEvent) :=
  match e.result with
  | .ok (.polled outcomes) => outcomes.filter (·.1 = l)
  | _ => []

/-- The numbers of the servers that are launched for the language. -/
def numbers (l : Text) (e : Event η σ) : List Nat :=
  if e.language? = some l then List.range' e.before.launches e.launches else []

/-- What the host has to say to the command of the language when its session is asked for. -/
def offer? [Host η σ] (l : Text) (e : Event η σ) : Option (Option (StartOutcome σ)) :=
  if e.language? = some l then e.before.offer? l else none

variable [Peer σ]

/-- All sessions are closed, and a fault comes before the turn of the language, whose server runs. -/
def cutsOff (l : Text) (e : Event η σ) : Bool :=
  match e.action with
  | .closeAll => (e.before.session? l).any Session.isRunning &&
      (e.before.sessions.takeWhile (·.1 ≠ l)).any (·.2.breaksClosing)
  | _ => false

variable [Host η σ]

/-- What the machine of the language does at the event. -/
def move (l : Text) (e : Event η σ) : Move σ :=
  (e.before.outlook l).next e.surroundings e.before.config (e.before.introduction e.surroundings) l
    (e.offer? l) (e.cutsOff l) (e.language? = some l) e.action

omit [Host η σ] in
/-- Closing is cut off for a language by a session in front of its own. -/
theorem cutsOff_of_split {s : Surroundings} {l : Text} {before after : TrackedFleet η σ}
    {result : Except (Stop FleetError) (Answer (Tracked σ))} {session : Session (Tracked σ)}
    {earlier later : List (Text × Session (Tracked σ))}
    (hsession : before.session? l = some session)
    (hsplit : before.sessions = earlier ++ (l, session) :: later)
    (hothers : ∀ entry ∈ earlier, entry.1 ≠ l) :
    cutsOff l ⟨s, .closeAll, before, result, after⟩ =
      (session.isRunning && earlier.any (·.2.breaksClosing)) := by
  have hfront : before.sessions.takeWhile (·.1 ≠ l) = earlier := by
    rw [hsplit, List.takeWhile_append_of_pos fun entry hmem => by simpa using hothers entry hmem,
      List.takeWhile_cons_of_neg (by simp), List.append_nil]
  rw [cutsOff, hsession, hfront]
  rfl

section Move

variable {l : Text} {e : Event η σ}

theorem move_of_asked (h : e.language? = some l) :
    let asked := (e.before.outlook l).asked e.surroundings e.before.config
      (e.before.introduction e.surroundings) l (e.before.offer? l)
    e.move l = ⟨some (asked.1.map some), [], asked.2.1, asked.2.2⟩ := by
  simp [move, Outlook.next, offer?, h]

theorem move_of_poll (h : e.action = .pollAll) :
    e.move l = ⟨none, ((e.before.outlook l).polled l).1, ((e.before.outlook l).polled l).2, []⟩ := by
  have hasks : e.language? ≠ some l := by
    rw [language?, h]
    exact fun h => nomatch h
  simp [move, Outlook.next, hasks, h]

theorem move_of_close (h : e.action = .closeAll) :
    e.move l = ⟨none, [], ((e.before.outlook l).closed (e.cutsOff l)).1,
      ((e.before.outlook l).closed (e.cutsOff l)).2⟩ := by
  have hasks : e.language? ≠ some l := by
    rw [language?, h]
    exact fun h => nomatch h
  simp [move, Outlook.next, hasks, h]

theorem move_of_passed (hasks : e.language? ≠ some l) (hpoll : e.action ≠ .pollAll)
    (hclose : e.action ≠ .closeAll) : e.move l = ⟨none, [], e.before.outlook l, []⟩ := by
  unfold move Outlook.next
  rw [if_neg (by simpa using hasks)]
  cases haction : e.action with
  | pollAll => exact absurd haction hpoll
  | closeAll => exact absurd haction hclose
  | sessionFor | sessionForPath => rfl

end Move

/-- A language gets out of an event what its machine says. -/
structure Follows (l : Text) (e : Event η σ) : Prop where
  reply?_eq : e.reply? l = (e.move l).reply?
  reports_eq : e.reports l = (e.move l).reports
  outlook_eq : e.after.outlook l = (e.move l).outlook
  ledger : ∀ numbers lost, Ledger l e.before numbers lost →
    Ledger l e.after (numbers ++ e.numbers l) (lost ++ (e.move l).lost)

namespace Follows

variable {s : Surroundings} {l : Text} {action : Action} {before : TrackedFleet η σ}

/-- The session of the language is asked for. -/
theorem of_asked {result : Except (Stop FleetError) (Session (Tracked σ))}
    {after : TrackedFleet η σ} (hasked : before.language? action = some l)
    (hfound : Found s l before result after) (ho : Orderly [] before)
    (htrace : before.config.trace = .off) :
    (Event.mk s action before (result.map .session) after).Follows l := by
  obtain ⟨hseen, houtlook, hledger⟩ := hfound.follows ho htrace
  have hasks : (Event.mk s action before (result.map .session) after).language? = some l := hasked
  refine ⟨?_, ?_, ?_, ?_⟩
  all_goals rw [move_of_asked hasks]
  · rw [reply?, if_pos hasks]
    show _ = some ((Outlook.asked ..).1.map some)
    rw [← hseen]
    rcases result with stop | session <;> rfl
  · rcases result with stop | session <;> rfl
  · exact houtlook
  · rw [Event.numbers, if_pos hasks]
    exact hledger

/-- The session of another language is asked for, or that of none. -/
theorem of_passed {e : Event η σ} (hasks : e.language? ≠ some l) (hpoll : e.action ≠ .pollAll)
    (hclose : e.action ≠ .closeAll) (hreports : e.reports l = [])
    (hsession : e.after.session? l = e.before.session? l)
    (hfailure : e.after.failure? l = e.before.failure? l)
    (hreleased : e.before.released ⊆ e.after.released) : e.Follows l := by
  refine ⟨?_, ?_, ?_, fun numbers lost h => ?_⟩
  all_goals rw [move_of_passed hasks hpoll hclose]
  · rw [reply?, if_neg hasks]
  · rw [hreports]
  · rw [outlook, hsession, hfailure]
    rfl
  · rw [Event.numbers, if_neg hasks, List.append_nil, List.append_nil]
    exact h.of_same hreleased (by rw [hsession])

omit [Peer σ] [Host η σ] in
theorem mem_keys_iff {fleet : TrackedFleet η σ} :
    l ∈ fleet.sessions.map (·.1) ↔ (fleet.session? l).isSome = true := by
  rw [session?, Option.isSome_map, List.find?_isSome, List.mem_map]
  simp only [decide_eq_true_eq]

/-- All sessions are polled. -/
theorem of_polled (ho : Orderly [] before)
    (hfault : Attempt.fault? (pollEach s (before.sessions.map (·.1)) before).1 = none) :
    (Event.mk s .pollAll before
      ((pollEach s (before.sessions.map (·.1)) before).1.map .polled)
      (pollEach s (before.sessions.map (·.1)) before).2).Follows l := by
  obtain ⟨outcomes, hok⟩ : ∃ outcomes,
      (pollEach s (before.sessions.map (·.1)) before).1 = .ok outcomes := by
    rcases hresult : (pollEach s (before.sessions.map (·.1)) before).1 with (e | f) | outcomes
    · exact absurd hresult (pollEach_ne_failed s _ before e)
    · rw [hresult] at hfault
      cases hfault
    · exact ⟨outcomes, hresult⟩
  have hround := pollEach_follows l ho.keys (fun k hmem => mem_keys_iff.mp hmem) hok
  have hpolled : (if l ∈ before.sessions.map (·.1) then (before.outlook l).polled l
      else ([], before.outlook l)) = (before.outlook l).polled l := by
    by_cases hmem : l ∈ before.sessions.map (·.1)
    · rw [if_pos hmem]
    · have hnone : before.session? l = none :=
        Option.not_isSome_iff_eq_none.mp fun hsome => hmem (mem_keys_iff.mpr hsome)
      rw [if_neg hmem, Outlook.polled, outlook, hnone]
      rfl
  rw [hpolled] at hround
  obtain ⟨hreports, houtlook⟩ := Prod.mk.inj hround
  obtain ⟨hreleased, hnumbers⟩ := pollEach_servers s (before.sessions.map (·.1)) before
  refine ⟨?_, ?_, ?_, fun numbers lost h => ?_⟩
  all_goals rw [move_of_poll rfl]
  · rfl
  · rw [reports, hok]
    exact hreports
  · exact houtlook
  · show Ledger l _ (numbers ++ []) (lost ++ [])
    rw [List.append_nil, List.append_nil]
    exact h.of_same (fun w hmem => hreleased.symm ▸ hmem) (hnumbers l)

/-- All sessions are closed. -/
theorem of_closed (ho : Orderly [] before) :
    (Event.mk s .closeAll before
      ((closeEach s before.sessions { before with sessions := [] }).1.map fun _ => .closed)
      (closeEach s before.sessions { before with sessions := [] }).2).Follows l := by
  have htables := (closeEach_tables s before.sessions { before with sessions := [] }).1
  have hreleased : before.released ⊆
      (closeEach s before.sessions { before with sessions := [] }).2.released :=
    closeEach_released s before.sessions { before with sessions := [] }
  generalize hclosed : closeEach s before.sessions { before with sessions := [] } = closed
    at htables hreleased
  have hnone : closed.2.session? l = none := htables.session?_eq l
  have hfailure : closed.2.failure? l = before.failure? l := htables.failure?_eq l
  refine ⟨?_, ?_, ?_, fun numbers lost h => ?_⟩
  all_goals rw [move_of_close rfl]
  · rfl
  · rw [reports]
    rcases closed.1 with stop | done <;> rfl
  · show closed.2.outlook l = _
    rw [outlook, hnone, hfailure]
    rfl
  · show Ledger l closed.2 (numbers ++ []) (lost ++ ((before.outlook l).closed _).2)
    rw [List.append_nil]
    cases hsession : before.session? l with
    | none =>
        have hempty : ∀ cut, ((before.outlook l).closed cut).2 = [] := by
          intro cut
          rw [Outlook.closed, outlook, hsession]
          rfl
        rw [hempty, List.append_nil]
        exact h.of_same hreleased (by rw [hnone, hsession])
    | some session =>
        obtain ⟨earlier, later, hsplit, hothers⟩ := ho.exists_split hsession
        obtain ⟨w, hmem, hnumber, hwrites⟩ := closeEach_follows s l session earlier later
          { before with sessions := [] }
        rw [← hsplit, hclosed] at hmem
        have hlost : ((before.outlook l).closed
            (Event.cutsOff l ⟨s, .closeAll, before, closed.1.map fun _ => .closed, closed.2⟩)).2 =
              [w.writes] := by
          rw [hwrites, Outlook.closed, outlook, hsession, cutsOff_of_split hsession hsplit
            fun entry hmem => hothers entry (List.mem_append_left _ hmem)]
          show [if _ then _ else _] = _
          cases hrunning : session.isRunning with
          | true => rfl
          | false =>
              -- nothing is written to a server that has ended
              have hstopped : ¬session.client.anonymous.isRunning = true :=
                Bool.eq_false_iff.mp hrunning
              rw [Client.finalWrites, if_neg hstopped, ite_self, ite_self]
        rw [hlost]
        exact h.lose hreleased hsession hnone hmem hnumber

end Follows

/-- **A language gets out of an action what its machine says**, unless a poll meets a fault. -/
theorem follows {l : Text} {e : Event η σ} (h : e.Happens) (ho : Orderly [] e.before)
    (htrace : e.before.config.trace = .off)
    (hpoll : e.action = .pollAll → Attempt.fault? e.result = none) : e.Follows l := by
  obtain ⟨s, action, before, result, after⟩ := e
  change Acts s before action result after at h
  cases h with
  | @found language result _ hlanguage hfound =>
      by_cases hl : language = l
      · subst hl
        exact .of_asked hlanguage hfound ho htrace
      · obtain ⟨hsession, hfailure⟩ := hfound.other hl
        refine .of_passed ?_ ?_ ?_ ?_ hsession hfailure hfound.released
        · exact fun h => hl (Option.some.inj (hlanguage.symm.trans h))
        · rintro rfl
          cases hlanguage
        · rintro rfl
          cases hlanguage
        · rcases result with stop | session <;> rfl
  | unfiled haction hnone =>
      subst haction
      refine .of_passed ?_ (fun h => nomatch h) (fun h => nomatch h) rfl rfl rfl (List.Subset.refl _)
      exact fun h => nomatch hnone.symm.trans h
  | polled haction =>
      subst haction
      exact .of_polled ho ((Attempt.fault?_map _ _).symm.trans (hpoll rfl))
  | closed haction =>
      subst haction
      exact .of_closed ho

end Event

/-! ## What no action changes -/

section Premises

variable [Peer σ] {s : Surroundings} {language command : Text} {fleet fleet' : TrackedFleet η σ}
  {result : Except (Stop FleetError) (Session (Tracked σ))}

theorem Opens.workspace_eq {session : Session (Tracked σ)}
    (h : Opens s language session fleet result fleet') : fleet'.workspace = fleet.workspace := by
  cases h <;> rfl

theorem Launches.workspace_eq [Host η σ] (h : Launches s language command fleet result fleet') :
    fleet'.workspace = fleet.workspace := by
  cases h with
  | unlaunched => rfl
  | launched _ hopens => exact hopens.workspace_eq

theorem workspace_retireEnded (language : Text) (fleet : TrackedFleet η σ) :
    (fleet.retireEnded language).workspace = fleet.workspace := by
  rcases retireEnded_cases language fleet with ⟨hsame, -⟩ | ⟨ended, -, -, text, hretired⟩
  · rw [hsame]
  · rw [hretired]
    rfl

theorem Found.workspace_eq [Host η σ] (h : Found s language fleet result fleet') :
    fleet'.workspace = fleet.workspace := by
  have hretired := workspace_retireEnded language fleet
  cases h with
  | disabled => rfl
  | cached | remembered | unconfigured => exact hretired
  | started _ _ _ _ hlaunches =>
      rw [← hretired, ← hlaunches.workspace_eq]
      rcases result with (e | f) | session <;> rfl

theorem closeEach_workspace (s : Surroundings) (hand : List (Text × Session (Tracked σ)))
    (fleet : TrackedFleet η σ) : (closeEach s hand fleet).2.workspace = fleet.workspace := by
  let P : List (Text × Session (Tracked σ)) → TrackedFleet η σ → Prop :=
    fun _ fleet' => fleet'.workspace = fleet.workspace
  have hP : P hand fleet := rfl
  rcases closeEach_cases (P := P) (fun _ _ _ _ h => h) (fun _ _ _ _ h => h)
      (fun _ _ _ _ _ _ _ h _ => h) s hand hP with
    ⟨fleet', hclose, h⟩ | ⟨f, language, session, session', site', rest, fleet', hclose, h, hran⟩
  · rw [hclose]
    exact h
  · rw [hclose, foldl_abandon]
    exact h

/-- An action leaves alone what sessions are started with. -/
theorem Event.premises_eq [Host η σ] {e : Event η σ} (h : e.Happens) :
    e.after.config = e.before.config ∧ e.after.workspace = e.before.workspace := by
  obtain ⟨s, action, before, result, after⟩ := e
  change Acts s before action result after at h
  cases h with
  | found _ hfound => exact ⟨hfound.config_eq, hfound.workspace_eq⟩
  | unfiled => exact ⟨rfl, rfl⟩
  | polled =>
      refine ⟨(pollEach_tables s (before.sessions.map (·.1)) before).config_eq, ?_⟩
      exact pollEach_induction (P := fun fleet => fleet.workspace = before.workspace)
        (fun _ _ _ _ _ _ h _ _ => h) s (before.sessions.map (·.1)) rfl
  | closed =>
      exact ⟨(closeEach_tables s before.sessions { before with sessions := [] }).1.config_eq,
        closeEach_workspace s before.sessions { before with sessions := [] }⟩

end Premises

end Fleet

end LanguageClient
