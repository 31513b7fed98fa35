import LanguageClient.Proofs.Fleet.Accounts
import LanguageClient.Proofs.Fleet.Image

/-!
# What a fleet has of one language

The languages of a fleet share its tables and its site, but what the fleet has of one language, its
client and its failure, is a machine of its own (`Outlook`).  This file says what that machine does
when the session of the language is asked for, and that a fleet without traces does the same
(`Found.follows`).

## Strategy

The machine must not know what differs from one fleet to another for no reason of the language: process
ids, and the numbers of servers.  So it works on anonymous clients, on which every operation gives what
it gives on the client itself.  Servers that the language has lost are kept by what was written to them,
in a ledger beside the numbers under which they were launched (`Ledger`).

```text
the client      the failure     the server          the answer          what is lost
runs                                                the client
has ended       a failure                           the failure         the client
has ended       none            not configured      a failure           the client
has ended       none            does not start      its failure         the client, and the new server
has ended       none            starts              the new client      the client
```
-/

namespace LanguageClient

/-- Attempts to write, and what became of them. -/
abbrev Writes : Type := List (Bytes × WriteOutcome)

/-- All attempts to write to the server. -/
def Watched.writes {σ : Type} (w : Watched σ) : Writes := w.contacts.filterMap Contact.written?

/-- Having a number does not show in the answers, nor in the watch. -/
theorem Tracked.alike_server {σ : Type} [Peer σ] :
    Peer.Alike (Tracked.server : Tracked σ → Watched σ) :=
  ⟨fun _ _ => rfl, fun _ _ => rfl, fun _ _ => rfl, fun _ => rfl, fun _ => rfl⟩

/-- The outcome of a start, whatever the process id and the number of the server. -/
def StartOutcome.anonymous {σ : Type} : StartOutcome (Tracked σ) → StartOutcome σ
  | started _ w => .started 0 w.bare
  | unusable _ w e => .unusable 0 w.bare e
  | refused e => .refused e
  | impossible f => .impossible f

namespace Client

variable {σ : Type}

/-- The client, whatever its process id and the number of its server. -/
def anonymous (c : Client (Tracked σ)) : Client (Watched σ) := c.recast Tracked.server fun _ => 0

/-- All attempts to write to the server. -/
def writes (c : Client (Watched σ)) : Writes := c.connection.peer.writes

variable [Peer σ]

theorem introduce_anonymous (params : Payload) (obstacle : Option Fault) (c : Client (Tracked σ)) :
    Fleet.introduce params obstacle c.anonymous =
      ((Fleet.introduce params obstacle c).1, (Fleet.introduce params obstacle c).2.anonymous) :=
  mirrors_recast _ _ (Fleet.mirrors_introduce Tracked.alike_server _ [] params obstacle) c

theorem poll_anonymous (c : Client (Tracked σ)) :
    poll c.anonymous = ((poll c).1, (poll c).2.anonymous) :=
  mirrors_recast _ _ (mirrors_poll Tracked.alike_server) c

theorem shutdown_anonymous (c : Client (Tracked σ)) :
    shutdown c.anonymous = ((shutdown c).1, (shutdown c).2.anonymous) :=
  mirrors_recast _ _ (mirrors_shutdown Tracked.alike_server) c

/-- Stopping a server writes nothing to it. -/
theorem close_writes (c : Client (Watched σ)) : c.close.writes = c.writes := by
  rcases c.close_eq with h | h
  · rw [writes, h]
    rfl
  · rw [writes, h]
    show (c.connection.peer.contacts ++ [Contact.terminated]).filterMap Contact.written? = _
    rw [List.filterMap_append]
    exact List.append_nil _

end Client

namespace Session

variable {η σ : Type} {session session' : Session (Tracked σ)}

theorem close_writes [Peer σ] (session : Session (Tracked σ)) :
    session.close.server.writes = session.server.writes :=
  session.client.close_writes

theorem Ran.writes_eq {α : Type} {action : Operation (Tracked σ) α}
    {result : Except (Stop ClientError) α} {site site' : Site (Counting η) (Tracked σ)}
    (h : session.Ran action site result session' site') :
    session'.server.writes = (action session.client).2.anonymous.writes := by
  rw [server, h.client_eq]
  rfl

end Session

open LanguageClient.Fleet

/-! ## The machine -/

/-- What a fleet has of a language. -/
structure Outlook (σ : Type) where
  client? : Option (Client (Watched σ))
  failure? : Option FleetError

namespace Outlook

variable {σ : Type} [Peer σ]

/-- The client whose server has ended is let go. -/
def living (o : Outlook σ) : Outlook σ := { o with client? := o.client?.filter Client.isRunning }

/-- What was written to the server that has ended. -/
def ended (o : Outlook σ) : List Writes :=
  (o.client?.filter fun client => !client.isRunning).toList.map Client.writes

/-- A server that has been launched is introduced, without a trace: its client, or why there is none
and what was written in vain. -/
def introduced (params : Except Utf8.EncodeError Payload) (client : Client (Watched σ)) :
    Except (Stop FleetError) (Client (Watched σ)) × List Writes :=
  match params with
  | .error e => (.error (.faulted (.notEncodable e)), [client.writes])
  | .ok params =>
    match introduce params none client with
    | (.ok (), client) => (.ok client.takeJournal.2, [])
    | (.error stop, client) => (.error (clientStop stop), [client.writes])

/-- The server of a command is launched, and introduced if it can be used. -/
def launched (s : Surroundings) (config : Config Text) (params : Except Utf8.EncodeError Payload) :
    Option (StartOutcome σ) → Except (Stop FleetError) (Client (Watched σ)) × List Writes
  | none => (.error (.failed (.launch .emptyCommand)), [])
  | some (.refused e) => (.error (.failed (.launch (.refused e))), [])
  | some (.unusable _ _ e) => (.error (.failed (.launch (.blocking e))), [[]])
  | some (.impossible f) => (.error (.faulted f), [])
  | some (.started processId peer) =>
    introduced params
      (Client.attach (.of peer) processId s.workingDirectory config.pollTimeout config.cycles)

/-- The session of the language is asked for.  `offer` is what the host has to say to the command that is
configured, if one is. -/
def asked (s : Surroundings) (config : Config Text) (params : Except Utf8.EncodeError Payload)
    (language : Text) (offer : Option (Option (StartOutcome σ))) (o : Outlook σ) :
    Except (Stop FleetError) (Client (Watched σ)) × Outlook σ × List Writes :=
  if config.enable = false then (.error (.failed .disabled), o, [])
  else
    match o.living.client?, o.failure?, offer with
    | some client, _, _ => (.ok client, o.living, o.ended)
    | none, some e, _ => (.error (.failed e), o.living, o.ended)
    | none, none, none => (.error (.failed (.noServer language)), o.living, o.ended)
    | none, none, some answer =>
      let started := launched s config params answer
      (started.1, ⟨started.1.toOption, failureOf started.1⟩, o.ended ++ started.2)

section Asked

variable {s : Surroundings} {config : Config Text} {params : Except Utf8.EncodeError Payload}
  {language : Text} {offer : Option (Option (StartOutcome σ))} {o : Outlook σ}

theorem asked_of_disabled (henable : config.enable = false) :
    o.asked s config params language offer = (.error (.failed .disabled), o, []) :=
  if_pos henable

theorem asked_of_client (henable : config.enable = true) {client : Client (Watched σ)}
    (hclient : o.living.client? = some client) :
    o.asked s config params language offer = (.ok client, o.living, o.ended) := by
  simp [asked, henable, hclient]

theorem asked_of_failure (henable : config.enable = true) (hnone : o.living.client? = none)
    {e : FleetError} (hfailure : o.failure? = some e) :
    o.asked s config params language offer = (.error (.failed e), o.living, o.ended) := by
  simp [asked, henable, hnone, hfailure]

theorem asked_of_unconfigured (henable : config.enable = true) (hnone : o.living.client? = none)
    (hunknown : o.failure? = none) :
    o.asked s config params language none =
      (.error (.failed (.noServer language)), o.living, o.ended) := by
  simp [asked, henable, hnone, hunknown]

theorem asked_of_offer (henable : config.enable = true) (hnone : o.living.client? = none)
    (hunknown : o.failure? = none) (answer : Option (StartOutcome σ)) :
    let started := launched s config params answer
    o.asked s config params language (some answer) =
      (started.1, ⟨started.1.toOption, failureOf started.1⟩, o.ended ++ started.2) := by
  simp [asked, henable, hnone, hunknown]

end Asked

end Outlook

namespace Fleet

variable {η σ : Type}

/-- What the fleet has of a language. -/
def outlook (language : Text) (fleet : TrackedFleet η σ) : Outlook σ :=
  ⟨(fleet.session? language).map fun session => session.client.anonymous, fleet.failure? language⟩

/-- What the host would say now to the command of a language, if one is configured. -/
def offer? [Host η σ] (language : Text) (fleet : TrackedFleet η σ) :
    Option (Option (StartOutcome σ)) :=
  (fleet.server? language).map fun server =>
    (fleet.site.answer? server.command).map StartOutcome.anonymous

/-! ## Servers that have been released -/

section Released

variable {fleet fleet' : TrackedFleet η σ}

theorem released_of_site {site : Site (Counting η) (Tracked σ)}
    (habandoned : site.abandoned = fleet.site.abandoned) :
    ({ fleet with site := site } : TrackedFleet η σ).released = fleet.released := by
  rw [released, released, habandoned]

theorem released_abandon (session : Session (Tracked σ)) (fleet : TrackedFleet η σ) :
    session.server ∈ (fleet.abandon session).released ∧
      fleet.released ⊆ (fleet.abandon session).released := by
  have hreleased : (fleet.abandon session).released = fleet.released ++ [session.server] := by
    simp [released, abandon, Site.abandonSession, Site.abandon, Session.server]
  rw [hreleased]
  exact ⟨List.mem_append_right _ (List.mem_singleton_self _), List.subset_append_left _ _⟩

variable [Peer σ]

theorem released_retire (language : Text) (session : Session (Tracked σ))
    (fleet : TrackedFleet η σ) :
    session.close.server ∈ (fleet.retire language session).released ∧
      fleet.released ⊆ (fleet.retire language session).released := by
  constructor
  · simp [released, retire]
  · intro w hmem
    simp only [released, retire, List.map_append, List.mem_append] at hmem ⊢
    exact hmem.imp_left Or.inl

theorem released_retireEnded (language : Text) (fleet : TrackedFleet η σ) :
    fleet.released ⊆ (fleet.retireEnded language).released := by
  rcases retireEnded_cases language fleet with ⟨hsame, -⟩ | ⟨ended, -, -, text, hretired⟩
  · rw [hsame]
    exact List.Subset.refl _
  · rw [hretired]
    exact (released_retire language ended _).2

theorem Opens.released {s : Surroundings} {language : Text} {session : Session (Tracked σ)}
    {result : Except (Stop FleetError) (Session (Tracked σ))}
    (h : Opens s language session fleet result fleet') : fleet.released ⊆ fleet'.released := by
  cases h with
  | unnamed => exact (released_abandon session fleet).2
  | opened hran =>
      rw [← released_of_site hran.abandoned_eq]
      exact List.Subset.refl _
  | refused hran =>
      rw [← released_of_site hran.abandoned_eq]
      exact (released_retire _ _ _).2
  | broken hran =>
      rw [← released_of_site hran.abandoned_eq]
      exact (released_abandon _ _).2

theorem Launches.released [Host η σ] {s : Surroundings} {language command : Text}
    {result : Except (Stop FleetError) (Session (Tracked σ))}
    (h : Launches s language command fleet result fleet') : fleet.released ⊆ fleet'.released := by
  have hleft : ∀ {site' : Site (Counting η) (Tracked σ)} {given : List (Nat × Tracked σ)},
      Site.Left command fleet.site site' given →
        fleet.released ⊆ ({ fleet with site := site' } : TrackedFleet η σ).released := by
    intro site' given hleft w hmem
    simp only [Fleet.released, hleft.abandoned_eq, List.map_append, List.mem_append] at hmem ⊢
    exact hmem.imp_right Or.inl
  cases h with
  | unlaunched hstarts =>
      obtain ⟨given, hgiven⟩ := hstarts.left
      exact hleft hgiven
  | launched hstarts hopens =>
      obtain ⟨given, hgiven⟩ := hstarts.left
      exact List.Subset.trans (hleft hgiven) hopens.released

/-- Whoever is released stays released when a session is asked for. -/
theorem Found.released [Host η σ] {s : Surroundings} {language : Text}
    {result : Except (Stop FleetError) (Session (Tracked σ))}
    (h : Found s language fleet result fleet') : fleet.released ⊆ fleet'.released := by
  have hretired := released_retireEnded language fleet
  cases h with
  | disabled => exact List.Subset.refl _
  | cached | remembered | unconfigured => exact hretired
  | started _ _ _ _ hlaunches =>
      have hstarted := List.Subset.trans hretired hlaunches.released
      rcases result with (e | f) | session <;> exact hstarted

end Released

/-! ## The ledger -/

/-- The servers with the numbers `numbers` have been launched for a language, in this order.  What was
written to those that it has lost is in `lost`; it has not lost the server of its open session. -/
def Ledger (language : Text) (fleet : TrackedFleet η σ) (numbers : List Nat) (lost : List Writes) :
    Prop :=
  ∃ past, numbers = past ++ (fleet.session? language).toList.map (·.server.number) ∧
    List.Forall₂ (fun n writes => ∃ w ∈ fleet.released, w.number = n ∧ w.writes = writes) past lost

section Ledger

variable {language : Text} {fleet fleet' : TrackedFleet η σ} {numbers : List Nat} {lost : List Writes}

/-- The ledger stays as it is where the language keeps its server. -/
theorem Ledger.of_same (h : Ledger language fleet numbers lost)
    (hreleased : fleet.released ⊆ fleet'.released)
    (hsession : (fleet'.session? language).map (·.server.number) =
      (fleet.session? language).map (·.server.number)) : Ledger language fleet' numbers lost := by
  obtain ⟨past, hnumbers, hlost⟩ := h
  refine ⟨past, ?_, hlost.imp fun n writes ⟨w, hmem, hw⟩ => ⟨w, hreleased hmem, hw⟩⟩
  rw [hnumbers, ← Option.toList_map, ← Option.toList_map, hsession]

/-- The language loses the server of its session. -/
theorem Ledger.lose (h : Ledger language fleet numbers lost)
    (hreleased : fleet.released ⊆ fleet'.released) {session : Session (Tracked σ)} {w : Tracked σ}
    (hsession : fleet.session? language = some session) (hnone : fleet'.session? language = none)
    (hmem : w ∈ fleet'.released) (hnumber : w.number = session.server.number) :
    Ledger language fleet' numbers (lost ++ [w.writes]) := by
  obtain ⟨past, hnumbers, hlost⟩ := h
  refine ⟨past ++ [session.server.number], ?_, ?_⟩
  · rw [hnumbers, hsession, hnone]
    simp
  · refine List.rel_append (hlost.imp fun n writes ⟨w, hmem, hw⟩ => ⟨w, hreleased hmem, hw⟩) ?_
    exact .cons ⟨w, hmem, hnumber, rfl⟩ .nil

/-- A server that was launched becomes that of the session. -/
theorem Ledger.gain (h : Ledger language fleet numbers lost)
    (hreleased : fleet.released ⊆ fleet'.released) {session : Session (Tracked σ)}
    (hnone : fleet.session? language = none) (hsession : fleet'.session? language = some session) :
    Ledger language fleet' (numbers ++ [session.server.number]) lost := by
  obtain ⟨past, hnumbers, hlost⟩ := h
  refine ⟨past, ?_, hlost.imp fun n writes ⟨w, hmem, hw⟩ => ⟨w, hreleased hmem, hw⟩⟩
  rw [hnumbers, hsession, hnone]
  simp

/-- A server was launched in vain. -/
theorem Ledger.waste (h : Ledger language fleet numbers lost)
    (hreleased : fleet.released ⊆ fleet'.released) {w : Tracked σ}
    (hnone : fleet.session? language = none) (hnone' : fleet'.session? language = none)
    (hmem : w ∈ fleet'.released) :
    Ledger language fleet' (numbers ++ [w.number]) (lost ++ [w.writes]) := by
  obtain ⟨past, hnumbers, hlost⟩ := h
  refine ⟨past ++ [w.number], ?_, ?_⟩
  · rw [hnumbers, hnone, hnone']
    simp
  · refine List.rel_append (hlost.imp fun n writes ⟨w, hmem, hw⟩ => ⟨w, hreleased hmem, hw⟩) ?_
    exact .cons ⟨w, hmem, rfl, rfl⟩ .nil

/-- What has become of the server with a number: it is that of the session, or it is released and what
was written to it was written in vain. -/
inductive Spent (n : Nat) (released : List (Tracked σ)) :
    Except (Stop FleetError) (Session (Tracked σ)) → List Writes → Prop
  | kept {session : Session (Tracked σ)} (hnumber : session.server.number = n) :
      Spent n released (.ok session) []
  | lost {stop : Stop FleetError} {w : Tracked σ} {writes : Writes} (hmem : w ∈ released)
      (hnumber : w.number = n) (hwrites : w.writes = writes) :
      Spent n released (.error stop) [writes]

theorem Ledger.spend {vain : List Writes} {result : Except (Stop FleetError) (Session (Tracked σ))}
    {n : Nat} (h : Ledger language fleet numbers lost) (hreleased : fleet.released ⊆ fleet'.released)
    (hnone : fleet.session? language = none) (hsession : fleet'.session? language = result.toOption)
    (hspent : Spent n fleet'.released result vain) :
    Ledger language fleet' (numbers ++ [n]) (lost ++ vain) := by
  cases hspent with
  | kept hnumber =>
      rw [← hnumber, List.append_nil]
      exact h.gain hreleased hnone hsession
  | lost hmem hnumber hwrites =>
      rw [← hnumber, ← hwrites]
      exact h.waste hreleased hnone hsession hmem

end Ledger

/-! ## Fleets follow the machine -/

/-- The session that is found, as its language sees it. -/
def seen (result : Except (Stop FleetError) (Session (Tracked σ))) :
    Except (Stop FleetError) (Client (Watched σ)) :=
  result.map fun session => session.client.anonymous

section Follows

variable [Peer σ] {s : Surroundings} {language command : Text} {fleet fleet' : TrackedFleet η σ}
  {result : Except (Stop FleetError) (Session (Tracked σ))}

/-- **A server is introduced as the machine says.** -/
theorem Opens.follows {session : Session (Tracked σ)}
    (h : Opens s language session fleet result fleet') (hkept : session.client.Kept)
    (htrace : session.trace = none) :
    let opening := Outlook.introduced (fleet.introduction s) session.client.anonymous
    seen result = opening.1 ∧ Spent session.server.number fleet'.released result opening.2 := by
  intro opening
  have hobstacle : session.obstacle? = none := by
    rw [Session.obstacle?, htrace]
    rfl
  cases h with
  | unnamed hparams =>
      have hopening : opening = Outlook.introduced (.error _) session.client.anonymous :=
        congrArg (Outlook.introduced · _) hparams
      rw [hopening]
      exact ⟨rfl, .lost (released_abandon session fleet).1 rfl rfl⟩
  | opened hran hparams =>
      have hopening : opening = Outlook.introduced (.ok _) session.client.anonymous :=
        congrArg (Outlook.introduced · _) hparams
      rw [hopening, Outlook.introduced, Client.introduce_anonymous, ← hobstacle, ← hran.result_eq]
      refine ⟨?_, .kept (hran.introduced hkept).number_eq⟩
      rw [seen, Except.map, hran.client_eq]
      rfl
  | @refused _ _ session' _ hran hparams =>
      have hopening : opening = Outlook.introduced (.ok _) session.client.anonymous :=
        congrArg (Outlook.introduced · _) hparams
      rw [hopening, Outlook.introduced, Client.introduce_anonymous, ← hobstacle, ← hran.result_eq]
      have hnumber : session'.close.server.number = session.server.number :=
        session'.client.number_close.trans (hran.introduced hkept).number_eq
      exact ⟨rfl, .lost (released_retire language session' _).1 hnumber
        (session'.close_writes.trans hran.writes_eq)⟩
  | @broken _ _ session' _ hran hparams =>
      have hopening : opening = Outlook.introduced (.ok _) session.client.anonymous :=
        congrArg (Outlook.introduced · _) hparams
      rw [hopening, Outlook.introduced, Client.introduce_anonymous, ← hobstacle, ← hran.result_eq]
      exact ⟨rfl, .lost (released_abandon session' _).1 (hran.introduced hkept).number_eq
        hran.writes_eq⟩

/-- **A server is launched as the machine says**, and there is a number more if there is a server
more. -/
theorem Launches.follows [Host η σ] (h : Launches s language command fleet result fleet')
    (ho : Orderly [] fleet) (htrace : fleet.config.trace = .off) :
    let started := Outlook.launched s fleet.config (fleet.introduction s)
      ((fleet.site.answer? command).map StartOutcome.anonymous)
    seen result = started.1 ∧
      ((fleet'.launches = fleet.launches ∧ started.2 = [] ∧ ∃ stop, result = .error stop) ∨
        fleet'.launches = fleet.launches + 1 ∧ Spent fleet.launches fleet'.released result started.2) := by
  intro started
  have hstarted : ∀ {answer}, fleet.site.answer? command = answer → started =
      Outlook.launched s fleet.config (fleet.introduction s) (answer.map StartOutcome.anonymous) :=
    fun hanswer => by rw [← hanswer]
  cases h with
  | @unlaunched _ site' hstarts =>
      cases hstarts with
      | empty hanswer hleft =>
          rw [hstarted hanswer]
          exact ⟨rfl, Or.inl ⟨rfl, rfl, _, rfl⟩⟩
      | refused hanswer hleft | impossible hanswer hleft =>
          have hlaunches := (ho.unlaunched (by rw [hanswer]; rfl) hleft).2
          rw [hstarted hanswer]
          exact ⟨rfl, Or.inl ⟨hlaunches, rfl, _, rfl⟩⟩
      | unusable hanswer hleft =>
          obtain ⟨hlaunches, server, rfl⟩ := launched_new (by rw [hanswer]; rfl) hleft
          rw [hstarted hanswer]
          -- all that was ever done to the new server is to stop it
          have hmem : Peer.terminate (Watched.of ⟨fleet.launches, server⟩) ∈
              ({ fleet with site := site' } : TrackedFleet η σ).released := by
            simp [Fleet.released, hleft.abandoned_eq]
          exact ⟨rfl, Or.inr ⟨hlaunches, .lost hmem rfl rfl⟩⟩
      | untraced _ htraceOf =>
          rw [Site.traceOf, if_pos htrace] at htraceOf
          cases htraceOf
  | @launched session site' _ _ hstarts hopens =>
      cases hstarts with
      | @started processId peer trace _ hanswer htraceOf hleft =>
          obtain ⟨hlaunches, server, rfl⟩ := launched_new (by rw [hanswer]; rfl) hleft
          have hnone : trace = none := by
            rw [Site.traceOf, if_pos htrace] at htraceOf
            exact (Except.ok.inj htraceOf).symm
          obtain ⟨hseen, hspent⟩ := hopens.follows (Client.kept_attach _ _ _ _ _) hnone
          have hsame : fleet'.launches = fleet.launches + 1 := by
            rw [launches, hopens.tables.2]
            exact hlaunches
          rw [hstarted hanswer]
          exact ⟨hseen, Or.inr ⟨hsame, hspent⟩⟩

/-! ### Asking for the session -/

/-- Retiring a session leaves alone what sessions are started with. -/
theorem retireEnded_premises [Host η σ] (s : Surroundings) (language : Text)
    (fleet : TrackedFleet η σ) :
    (fleet.retireEnded language).introduction s = fleet.introduction s ∧
      (∀ command, (fleet.retireEnded language).site.answer? command = fleet.site.answer? command) ∧
      (fleet.retireEnded language).launches = fleet.launches := by
  rcases retireEnded_cases language fleet with ⟨hsame, -⟩ | ⟨ended, -, -, text, hretired⟩
  · rw [hsame]
    exact ⟨rfl, fun _ => rfl, rfl⟩
  · rw [hretired]
    exact ⟨rfl, fun _ => rfl, rfl⟩

theorem outlook_retireEnded (language : Text) (fleet : TrackedFleet η σ) :
    (fleet.retireEnded language).outlook language = (fleet.outlook language).living := by
  rw [outlook, outlook, Outlook.living, session?_retireEnded, if_pos rfl, failure?_retireEnded]
  cases fleet.session? language with
  | none => rfl
  | some session =>
      have hrunning : session.client.anonymous.isRunning = session.isRunning := rfl
      simp only [Option.filter_some, Option.map_some, hrunning]
      cases session.isRunning with
      | false => rfl
      | true => rfl

theorem Ledger.retireEnded {numbers : List Nat} {lost : List Writes}
    (h : Ledger language fleet numbers lost) :
    Ledger language (fleet.retireEnded language) numbers (lost ++ (fleet.outlook language).ended) := by
  have hreleased := released_retireEnded language fleet
  rcases retireEnded_cases language fleet with ⟨hsame, hrunning⟩ | ⟨ended, hsession, hended, text, h'⟩
  · have hnone : (fleet.outlook language).ended = [] := by
      rw [outlook, Outlook.ended]
      cases hsession : fleet.session? language with
      | none => rfl
      | some session =>
          have hruns : session.client.anonymous.isRunning = true := hrunning session hsession
          simp [hruns]
    rw [hsame, hnone, List.append_nil]
    exact h
  · have hone : (fleet.outlook language).ended = [ended.close.server.writes] := by
      have hstopped : ended.client.anonymous.isRunning = false := hended
      rw [outlook, Outlook.ended, hsession, ended.close_writes]
      simp only [Option.map_some, Option.filter_some, hstopped]
      rfl
    have hnone : (fleet.retireEnded language).session? language = none := by
      rw [session?_retireEnded, if_pos rfl, hsession, Option.filter_some, hended]
      rfl
    have hmem : ended.close.server ∈ (fleet.retireEnded language).released := by
      rw [h']
      exact (released_retire language ended _).1
    rw [hone]
    exact h.lose hreleased hsession hnone hmem ended.client.number_close

omit [Peer σ] in
/-- What a start leaves in the tables, as the machine has it. -/
theorem outlook_concluded (hnone : fleet.session? language = none)
    (hunknown : fleet.failure? language = none) :
    (fleet.concluded language result).outlook language =
      ⟨(seen result).toOption, failureOf (seen result)⟩ := by
  rw [outlook, session?_concluded, failure?_concluded, hnone, hunknown, if_pos rfl, if_pos rfl]
  rcases result with (e | f) | session <;> rfl

omit [Peer σ] in
theorem released_concluded (language : Text)
    (result : Except (Stop FleetError) (Session (Tracked σ))) (fleet : TrackedFleet η σ) :
    (fleet.concluded language result).released = fleet.released := by
  rcases result with (e | f) | session <;> rfl

/-- **A session is asked for as the machine says.** -/
theorem Found.follows [Host η σ] (h : Found s language fleet result fleet') (ho : Orderly [] fleet)
    (htrace : fleet.config.trace = .off) :
    let asked := (fleet.outlook language).asked s fleet.config (fleet.introduction s) language
      (fleet.offer? language)
    seen result = asked.1 ∧ fleet'.outlook language = asked.2.1 ∧
      ∀ numbers lost, Ledger language fleet numbers lost →
        Ledger language fleet'
          (numbers ++ List.range' fleet.launches (fleet'.launches - fleet.launches))
          (lost ++ asked.2.2) := by
  have hliving := outlook_retireEnded language fleet
  have hclient : (fleet.outlook language).living.client? =
      ((fleet.retireEnded language).session? language).map (·.client.anonymous) := by
    rw [← hliving]
    rfl
  have hfailure : (fleet.outlook language).failure? = (fleet.retireEnded language).failure? language :=
    (failure?_retireEnded language language fleet).symm
  obtain ⟨hparams, hanswers, hlaunches⟩ := retireEnded_premises s language fleet
  obtain ⟨hconfig, -, -⟩ := retireEnded_tables language fleet
  dsimp only
  cases h with
  | disabled henable =>
      rw [Outlook.asked_of_disabled henable, Nat.sub_self]
      exact ⟨rfl, rfl, fun numbers lost h => by simpa using h⟩
  | cached henable hsession =>
      rw [hsession] at hclient
      rw [Outlook.asked_of_client henable hclient, hlaunches, Nat.sub_self]
      exact ⟨rfl, hliving, fun numbers lost h => by simpa using h.retireEnded⟩
  | remembered henable hnone hknown =>
      rw [hnone] at hclient
      rw [hknown] at hfailure
      rw [Outlook.asked_of_failure henable hclient hfailure, hlaunches, Nat.sub_self]
      exact ⟨rfl, hliving, fun numbers lost h => by simpa using h.retireEnded⟩
  | unconfigured henable hnone hunknown hserver =>
      rw [hnone] at hclient
      rw [hunknown] at hfailure
      have hoffer : fleet.offer? language = none := by
        rw [server?, hconfig] at hserver
        rw [offer?, server?, hserver]
        rfl
      rw [hoffer, Outlook.asked_of_unconfigured henable hclient hfailure, hlaunches, Nat.sub_self]
      exact ⟨rfl, hliving, fun numbers lost h => by simpa using h.retireEnded⟩
  | @started server _ fleet₁ henable hnone hunknown hserver hstart =>
      rw [hnone] at hclient
      rw [hunknown] at hfailure
      have hoffer : fleet.offer? language =
          some ((fleet.site.answer? server.command).map StartOutcome.anonymous) := by
        rw [server?, hconfig] at hserver
        rw [offer?, server?, hserver]
        rfl
      rw [hoffer, Outlook.asked_of_offer henable hclient hfailure]
      -- the start is made by the fleet without the session that has ended
      obtain ⟨hseen, hends⟩ := hstart.follows (ho.retireEnded language) (hconfig ▸ htrace)
      rw [hparams, hanswers, hconfig] at hseen hends
      rw [hlaunches] at hends
      have htables := hstart.tables.1
      have hnone' := (htables.session?_eq language).trans hnone
      have hunknown' := (htables.failure?_eq language).trans hunknown
      have houtlook : (fleet₁.concluded language result).outlook language =
          ⟨(seen result).toOption, failureOf (seen result)⟩ := outlook_concluded hnone' hunknown'
      rw [hseen] at houtlook
      refine ⟨hseen, houtlook, fun numbers lost hledger => ?_⟩
      have hretired := hledger.retireEnded
      have hreleased : (fleet.retireEnded language).released ⊆
          (fleet₁.concluded language result).released := by
        rw [released_concluded]
        exact hstart.released
      have hsession : (fleet₁.concluded language result).session? language = result.toOption := by
        rw [session?_concluded, hnone', if_pos rfl, Option.none_or]
      have hafter : (fleet₁.concluded language result).launches = fleet₁.launches := by
        rw [launches, concluded_host]
        rfl
      rw [hafter, ← List.append_assoc]
      rcases hends with ⟨hsame, hnothing, stop, rfl⟩ | ⟨hnext, hspent⟩
      · rw [hsame, hnothing, Nat.sub_self, List.append_nil, List.range'_zero, List.append_nil]
        exact hretired.of_same hreleased (by rw [hsession, hnone]; rfl)
      · rw [hnext, Nat.add_sub_cancel_left]
        rw [← released_concluded language result] at hspent
        exact hretired.spend hreleased hnone hsession hspent

end Follows

end Fleet

end LanguageClient
