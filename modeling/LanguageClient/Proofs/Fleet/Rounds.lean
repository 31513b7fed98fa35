import LanguageClient.Proofs.Fleet.Outlook

/-!
# Polling and closing all sessions

Polling and closing go through the sessions of all languages, one after the other.  What a language gets
out of it is what its machine says (`pollEach_follows`, `closeEach_follows`), with one exception: a
closing that meets a fault gives up the servers behind it as they are.

## Strategy

Each round is an induction on the languages that are left.  A step that deals with another language
leaves the outlook of this one alone; the step that deals with it is the machine's.
-/

namespace LanguageClient

namespace Client

variable {σ : Type} [Peer σ]

/-- What has been written to the server, once its session has been closed. -/
def finalWrites (c : Client (Watched σ)) : Writes :=
  if c.isRunning then (shutdown c).2.writes else c.writes

/-- An open session is not closed without a word. -/
theorem finalWrites_ne {c : Client (Watched σ)} (hrunning : c.isRunning = true)
    (hphase : c.phase = .initialized) : c.finalWrites ≠ c.writes := by
  have hspeaks : c.says? .shutdown = some (.shutdown, .null) := if_pos ⟨hrunning, hphase⟩
  obtain ⟨response, d, outcome, t, hcalled, -, hafter⟩ :=
    (perform_did c .shutdown).asked_inv rfl hspeaks
  have hconnection : (shutdown c).2.connection = d := congrArg Client.connection hafter
  have hwrites : ∃ said, (shutdown c).2.writes =
      c.writes ++ (said, outcome) :: t.contacts.filterMap Contact.written? := by
    rw [writes, Watched.writes, hconnection, hcalled.carries.contacts_eq, List.filterMap_append]
    exact ⟨_, rfl⟩
  obtain ⟨said, hwrites⟩ := hwrites
  rw [finalWrites, if_pos hrunning, hwrites]
  exact fun h => List.cons_ne_nil _ _ (List.append_right_eq_self.mp h)

/-- Whether the session is closed shows in what has been written. -/
theorem closing_ne {c : Client (Watched σ)} (hrunning : c.isRunning = true)
    (hphase : c.phase = .initialized) {cut₁ cut₂ : Bool} (hcut : cut₁ ≠ cut₂) :
    (if cut₁ then c.writes else c.finalWrites) ≠ (if cut₂ then c.writes else c.finalWrites) := by
  have hne := finalWrites_ne hrunning hphase
  cases cut₁ with
  | false =>
      obtain rfl : cut₂ = true := (Bool.not_eq_false _).mp hcut.symm
      exact hne
  | true =>
      obtain rfl : cut₂ = false := (Bool.not_eq_true _).mp hcut.symm
      exact hne.symm

end Client

open LanguageClient.Fleet

/-- What is reported of a poll of a client. -/
def reported (language : Text) (result : Except (Stop ClientError) (Option ServerEvent)) :
    List (Text × Except FleetError ServerEvent) :=
  report language (result.mapError clientStop)

theorem reported_filter (language l : Text) (result : Except (Stop ClientError) (Option ServerEvent)) :
    (reported language result).filter (·.1 = l) =
      if language = l then reported language result else [] := by
  by_cases h : language = l
  · rcases result with (e | f) | (_ | event) <;> simp [reported, report, Except.mapError, clientStop, h]
  · rcases result with (e | f) | (_ | event) <;> simp [reported, report, Except.mapError, clientStop, h]

namespace Outlook

variable {σ : Type} [Peer σ]

/-- All sessions are polled. -/
def polled (language : Text) (o : Outlook σ) :
    List (Text × Except FleetError ServerEvent) × Outlook σ :=
  match o.client? with
  | none => ([], o)
  | some client =>
    (reported language (Client.poll client).1,
      { o with client? := some (Client.poll client).2.takeJournal.2 })

/-- All sessions are closed; `cut` says that a fault came before the turn of the language. -/
def closed (cut : Bool) (o : Outlook σ) : Outlook σ × List Writes :=
  ({ o with client? := none },
    o.client?.toList.map fun client => if cut then client.writes else client.finalWrites)

end Outlook

/-- Closing the session ends in a fault, so the sessions behind it are not closed. -/
def Session.breaksClosing {σ : Type} [Peer σ] (session : Session σ) : Bool :=
  session.isRunning && (Attempt.fault? (Client.shutdown session.client).1).isSome

namespace Fleet

variable {η σ : Type} [Peer σ] {s : Surroundings}

/-! ## Polling -/

/-- A round that comes to an end begins with a poll that does, and goes on. -/
theorem pollEach_cons {language : Text} {languages : List Text} {fleet : TrackedFleet η σ}
    {session : Session (Tracked σ)} (hsession : fleet.session? language = some session)
    {outcomes : List (Text × Except FleetError ServerEvent)}
    (h : (pollEach s (language :: languages) fleet).1 = .ok outcomes) :
    ∃ session' site' rest,
      session.Ran Client.poll fleet.site (Client.poll session.client).1 session' site' ∧
        (pollEach s languages (update language session' { fleet with site := site' })).1 = .ok rest ∧
        (pollEach s (language :: languages) fleet).2 =
          (pollEach s languages (update language session' { fleet with site := site' })).2 ∧
        outcomes = reported language (Client.poll session.client).1 ++ rest := by
  obtain ⟨result, session', site', hran, hperform⟩ := perform_of_some s Client.poll hsession
  have hcases := pollEach_cases s language languages fleet
  rw [hperform] at hcases
  dsimp only at hcases
  rw [← hran.result_eq]
  rcases hcases with ⟨f, hbroken⟩ | hround
  · rw [hbroken] at h
    cases h
  · rw [hround] at h ⊢
    rcases hrest : (pollEach s languages (update language session' { fleet with site := site' })).1 with
      stop | rest
    · rw [hrest] at h
      cases h
    · rw [hrest] at h
      exact ⟨session', site', rest, hran, hrest, rfl, (Except.ok.inj h).symm⟩

/-- A round ends by its answer or by a fault: failures are reported. -/
theorem pollEach_ne_failed (s : Surroundings) (languages : List Text) (fleet : TrackedFleet η σ)
    (e : FleetError) : (pollEach s languages fleet).1 ≠ .error (.failed e) := by
  induction languages generalizing fleet with
  | nil =>
      intro h
      cases h
  | cons language languages ih =>
      have hothers := ih (perform s language Client.poll fleet).2
      rcases pollEach_cases s language languages fleet with ⟨f, hbroken⟩ | hround
      · rw [hbroken]
        intro h
        cases h
      · rw [hround]
        rcases hrest : (pollEach s languages (perform s language Client.poll fleet).2).1 with
          stop | rest
        · rw [hrest] at hothers
          intro h
          exact hothers (congrArg Except.error (Except.error.inj h))
        · intro h
          cases h

omit [Peer σ] in
/-- Polling another language leaves the outlook alone. -/
theorem outlook_update_other {language l : Text} (hl : language ≠ l) (session : Session (Tracked σ))
    (fleet : TrackedFleet η σ) (site : Site (Counting η) (Tracked σ)) :
    (update language session { fleet with site := site }).outlook l = fleet.outlook l := by
  rw [outlook, session?_update, if_neg hl]
  rfl

/-- Polling the session of the language is what its machine does. -/
theorem outlook_update_polled {language : Text} {fleet : TrackedFleet η σ}
    {session session' : Session (Tracked σ)} {site' : Site (Counting η) (Tracked σ)}
    {result : Except (Stop ClientError) (Option ServerEvent)}
    (hsession : fleet.session? language = some session)
    (hran : session.Ran Client.poll fleet.site result session' site') :
    (reported language result, (update language session' { fleet with site := site' }).outlook language) =
      (fleet.outlook language).polled language := by
  have hclient : session'.client.anonymous =
      (Client.poll session.client.anonymous).2.takeJournal.2 := by
    rw [hran.client_eq, Client.poll_anonymous]
    rfl
  have hafter : (update language session' { fleet with site := site' }).outlook language =
      ⟨some session'.client.anonymous, fleet.failure? language⟩ := by
    rw [outlook, session?_update, if_pos rfl]
    show Outlook.mk (((fleet.session? language).map fun _ => session').map _) _ = _
    rw [hsession]
    rfl
  rw [hafter, hclient, hran.result_eq, outlook, hsession, Outlook.polled]
  simp only [Option.map_some, Client.poll_anonymous]

/-- **A round of polls gives a language what its machine says.** -/
theorem pollEach_follows (l : Text) {languages : List Text} (hnodup : languages.Nodup)
    {fleet : TrackedFleet η σ} (hsessions : ∀ k ∈ languages, (fleet.session? k).isSome = true)
    {outcomes : List (Text × Except FleetError ServerEvent)}
    (h : (pollEach s languages fleet).1 = .ok outcomes) :
    (outcomes.filter (·.1 = l), (pollEach s languages fleet).2.outlook l) =
      if l ∈ languages then (fleet.outlook l).polled l else ([], fleet.outlook l) := by
  induction languages generalizing fleet outcomes with
  | nil =>
      cases h
      rfl
  | cons k languages ih =>
      obtain ⟨session, hsession⟩ := Option.isSome_iff_exists.mp (hsessions k List.mem_cons_self)
      obtain ⟨session', site', rest, hran, hrest, hlast, rfl⟩ := pollEach_cons hsession h
      obtain ⟨hnot, hnodup⟩ := List.nodup_cons.mp hnodup
      have hsessions' : ∀ k' ∈ languages,
          ((update k session' { fleet with site := site' }).session? k').isSome = true := by
        intro k' hmem
        have hsome := hsessions k' (List.mem_cons_of_mem _ hmem)
        rw [session?_update]
        by_cases hk : k = k'
        · rw [if_pos hk, Option.isSome_map]
          exact hsome
        · rw [if_neg hk]
          exact hsome
      have hothers := ih hnodup hsessions' hrest
      rw [hlast, List.filter_append, reported_filter]
      by_cases hk : k = l
      · -- it is the turn of the language, and what follows is about others
        subst hk
        rw [if_neg hnot] at hothers
        obtain ⟨hrest, houtlook⟩ := Prod.mk.inj hothers
        rw [if_pos rfl, if_pos List.mem_cons_self, hrest, houtlook, List.append_nil]
        exact outlook_update_polled hsession hran
      · rw [outlook_update_other hk] at hothers
        rw [if_neg hk, List.nil_append, hothers]
        simp [Ne.symm hk]

/-- A round of polls releases nobody, and every language keeps the server that it has. -/
theorem pollEach_servers (s : Surroundings) (languages : List Text) (fleet : TrackedFleet η σ) :
    (pollEach s languages fleet).2.released = fleet.released ∧
      ∀ l, ((pollEach s languages fleet).2.session? l).map (·.server.number) =
        (fleet.session? l).map (·.server.number) := by
  let P : TrackedFleet η σ → Prop := fun fleet' => fleet'.released = fleet.released ∧
    ∀ l, (fleet'.session? l).map (·.server.number) = (fleet.session? l).map (·.server.number)
  refine pollEach_induction (P := P) ?_ s languages ⟨rfl, fun _ => rfl⟩
  intro fleet' language session result session' site' ⟨hreleased, hnumbers⟩ hsession hran
  refine ⟨(released_of_site hran.abandoned_eq).trans hreleased, fun l => ?_⟩
  have hnumber : session'.server.number = session.server.number := by
    rw [Session.server, hran.client_eq]
    exact session.client.number_perform .poll
  rw [← hnumbers l, session?_update]
  by_cases hl : language = l
  · subst hl
    rw [if_pos rfl]
    show ((fleet'.session? language).map fun _ => session').map _ = _
    rw [hsession]
    exact congrArg some hnumber
  · rw [if_neg hl]
    rfl

/-! ## Closing -/

/-- A session in hand has been closed, as far as its server is concerned. -/
structure Closed (session : Session (Tracked σ)) (fleet fleet' : TrackedFleet η σ) : Prop where
  released : fleet.released ⊆ fleet'.released
  server : ∃ w ∈ fleet'.released, w.number = session.server.number ∧
    w.writes = session.client.anonymous.finalWrites

/-- A session that has had its say is retired. -/
theorem Closed.of_retire (language : Text) {session session' : Session (Tracked σ)}
    {fleet fleet₁ : TrackedFleet η σ} (hreleased : fleet₁.released = fleet.released)
    (hnumber : session'.server.number = session.server.number)
    (hwrites : session'.server.writes = session.client.anonymous.finalWrites) :
    Closed session fleet (fleet₁.retire language session') := by
  obtain ⟨hmem, hsubset⟩ := released_retire language session' fleet₁
  exact ⟨hreleased ▸ hsubset, _, hmem, session'.client.number_close.trans hnumber,
    session'.close_writes.trans hwrites⟩

/-- A session that has had its say is given up, and others with it. -/
theorem Closed.of_abandon (sessions : List (Session (Tracked σ))) {session session' : Session (Tracked σ)}
    {fleet fleet₁ : TrackedFleet η σ} (hreleased : fleet₁.released = fleet.released)
    (hnumber : session'.server.number = session.server.number)
    (hwrites : session'.server.writes = session.client.anonymous.finalWrites) :
    Closed session fleet ((session' :: sessions).foldl (fun fleet s => fleet.abandon s) fleet₁) ∧
      ∀ other ∈ sessions, other.server ∈
        ((session' :: sessions).foldl (fun fleet s => fleet.abandon s) fleet₁).released := by
  have hall : ((session' :: sessions).foldl (fun fleet s => fleet.abandon s) fleet₁).released =
      fleet.released ++ (session' :: sessions).map Session.server := by
    rw [← hreleased, foldl_abandon, Fleet.released, List.map_append, List.map_map,
      ← List.append_assoc]
    rfl
  rw [hall]
  refine ⟨⟨?_, session'.server, ?_, hnumber, hwrites⟩, fun other hmem => ?_⟩
  · rw [hall]
    exact List.subset_append_left _ _
  · rw [hall]
    exact List.mem_append_right _ List.mem_cons_self
  · exact List.mem_append_right _ (List.mem_map_of_mem (List.mem_cons_of_mem _ hmem))

/-- What closing does with the first session in hand, and with the others if it meets a fault. -/
theorem closeEach_cons (s : Surroundings) (language : Text) (session : Session (Tracked σ))
    (rest : List (Text × Session (Tracked σ))) (fleet : TrackedFleet η σ) :
    ∃ fleet', Closed session fleet fleet' ∧
      ((session.breaksClosing = false ∧
          closeEach s ((language, session) :: rest) fleet = closeEach s rest fleet') ∨
        (session.breaksClosing = true ∧
          (closeEach s ((language, session) :: rest) fleet).2 = fleet' ∧
            ∀ entry ∈ rest, entry.2.server ∈ fleet'.released)) := by
  rw [closeEach]
  by_cases hrunning : session.isRunning = true
  · obtain ⟨result, session', site', hran, hoperate⟩ :=
      operate_apply s session Client.shutdown fleet
    have hreleased : ({ fleet with site := site' } : TrackedFleet η σ).released = fleet.released :=
      released_of_site hran.abandoned_eq
    have hnumber : session'.server.number = session.server.number := by
      rw [Session.server, hran.client_eq]
      exact session.client.number_perform .shutdown
    have hwrites : session'.server.writes = session.client.anonymous.finalWrites := by
      have hruns : session.client.anonymous.isRunning = true := hrunning
      rw [hran.writes_eq, Client.finalWrites, if_pos hruns, Client.shutdown_anonymous]
    have hbreaks : session.breaksClosing = (Attempt.fault? result).isSome := by
      rw [Session.breaksClosing, hrunning, Bool.true_and, ← hran.result_eq]
    simp only [hrunning, Bool.not_true, Bool.false_eq_true, if_false]
    rw [Attempt.bind_of_ok hoperate]
    rcases result with (e | f) | done
    · have hclosed : ∀ text, Closed session fleet (retire language session'
          (remark .warning text { fleet with site := site' })) :=
        fun text => .of_retire language hreleased hnumber hwrites
      exact ⟨_, hclosed _, Or.inl ⟨hbreaks, rfl⟩⟩
    · -- whoever is left is given up with the session that met the fault
      obtain ⟨hclosed, hothers⟩ := Closed.of_abandon (rest.map (·.2)) hreleased hnumber hwrites
      exact ⟨_, hclosed, Or.inr ⟨hbreaks, rfl, fun entry hmem => hothers _ (List.mem_map_of_mem hmem)⟩⟩
    · have hclosed : Closed session fleet (retire language session' { fleet with site := site' }) :=
        .of_retire language hreleased hnumber hwrites
      exact ⟨_, hclosed, Or.inl ⟨hbreaks, rfl⟩⟩
  · have hbreaks : session.breaksClosing = false := by
      rw [Session.breaksClosing, Bool.eq_false_iff.mpr hrunning, Bool.false_and]
    have hwrites : session.server.writes = session.client.anonymous.finalWrites := by
      have hstopped : ¬session.client.anonymous.isRunning = true := hrunning
      rw [Client.finalWrites, if_neg hstopped]
      rfl
    have hclosed : Closed session fleet (fleet.retire language session) :=
      .of_retire language rfl rfl hwrites
    simp only [hrunning, Bool.not_false, if_true]
    exact ⟨_, hclosed, Or.inl ⟨hbreaks, rfl⟩⟩

/-- Whoever is released stays released when sessions are closed. -/
theorem closeEach_released (s : Surroundings) (hand : List (Text × Session (Tracked σ)))
    (fleet : TrackedFleet η σ) : fleet.released ⊆ (closeEach s hand fleet).2.released := by
  induction hand generalizing fleet with
  | nil => exact List.Subset.refl _
  | cons first rest ih =>
      obtain ⟨fleet', hclosed, ⟨-, hrest⟩ | ⟨-, hlast, -⟩⟩ := closeEach_cons s first.1 first.2 rest fleet
      · rw [hrest]
        exact List.Subset.trans hclosed.released (ih fleet')
      · rw [hlast]
        exact hclosed.released

/-- **A round of closing gives a language what its machine says**: its server is released, and nothing
more has been written to it if a fault came before its turn. -/
theorem closeEach_follows (s : Surroundings) (language : Text) (session : Session (Tracked σ))
    (earlier later : List (Text × Session (Tracked σ))) (fleet : TrackedFleet η σ) :
    ∃ w ∈ (closeEach s (earlier ++ (language, session) :: later) fleet).2.released,
      w.number = session.server.number ∧
        w.writes = if earlier.any (·.2.breaksClosing) then session.client.anonymous.writes
          else session.client.anonymous.finalWrites := by
  induction earlier generalizing fleet with
  | nil =>
      obtain ⟨fleet₁, hclosed, hends⟩ := closeEach_cons s language session later fleet
      obtain ⟨w, hmem, hw⟩ := hclosed.server
      rcases hends with ⟨-, hrest⟩ | ⟨-, hlast, -⟩
      · rw [List.nil_append, hrest]
        exact ⟨w, closeEach_released s later fleet₁ hmem, hw⟩
      · rw [List.nil_append, hlast]
        exact ⟨w, hmem, hw⟩
  | cons first earlier ih =>
      obtain ⟨fleet₁, hclosed, ⟨hbreaks, hrest⟩ | ⟨hbreaks, hlast, hothers⟩⟩ :=
        closeEach_cons s first.1 first.2 (earlier ++ (language, session) :: later) fleet
      · rw [List.cons_append, hrest, List.any_cons, hbreaks, Bool.false_or]
        exact ih fleet₁
      · rw [List.cons_append, hlast, List.any_cons, hbreaks, Bool.true_or]
        have hmem : session.server ∈ fleet₁.released :=
          hothers (language, session) (List.mem_append_right _ List.mem_cons_self)
        exact ⟨session.server, hmem, rfl, rfl⟩

end Fleet

end LanguageClient
