import LanguageClient.Proofs.Client.Readiness
import LanguageClient.Proofs.Fleet.Ownership
import LanguageClient.Script.Host

/-!
# Clients that are shared

A fleet hands out its clients, and whoever holds one may call it.  Before a session is handed out
again it is looked at whether its server runs, and at nothing else.  So a client is handed out ready
for work on documents if and only if none of its holders has ended the session in the meantime.
Main statement: `run_shared`; `handedOut_over` is a client that is handed out after a shutdown.

```text
what the holders have done        the client that is handed out
nothing that ends the session     ready
a shutdown that succeeded         shutting down; it takes no notification any more
closing, and the server runs on   closed
```

## Strategy

A server is known by its number, so it makes sense to say that its session has been ended
(`Occurrence.Ends`).  Every client in the table of open sessions stands as its holders have left it
(`Shared`): it was ready when it was adopted, under a number that nobody can have known before, and
from then on only they can have ended its session.
-/

namespace LanguageClient

namespace Fleet

open Client (Stands Ready)

variable {η σ : Type}

/-! ## Calls of holders -/

/-- The number of the server of an entry. -/
def number (entry : Text × Session (Tracked σ)) : Nat := entry.2.client.number

/-- The session whose server has a number. -/
def numbered? (fleet : TrackedFleet η σ) (n : Nat) : Option (Session (Tracked σ)) :=
  ((fleet.sessions ++ fleet.retired).find? (number · = n)).map (·.2)

/-- Puts a session in the place of the one whose server has a number. -/
def put (n : Nat) (session : Session (Tracked σ)) (entry : Text × Session (Tracked σ)) :
    Text × Session (Tracked σ) :=
  if number entry = n then (entry.1, session) else entry

/-- Puts a session back where it is, whether or not it is still open. -/
def putBack (n : Nat) (session : Session (Tracked σ)) (fleet : TrackedFleet η σ) :
    TrackedFleet η σ :=
  { fleet with
    sessions := fleet.sessions.map (put n session)
    retired := fleet.retired.map (put n session) }

/-- The fleet after a holder has called the client of a session. -/
def called [Peer σ] (s : Surroundings) (n : Nat) (session : Session (Tracked σ))
    (call : Client.Call) (fleet : TrackedFleet η σ) : TrackedFleet η σ :=
  let (_, session, site) := session.run s (fun c => c.perform call) fleet.site
  putBack n session { fleet with site := site }

/-- What may happen to a fleet whose clients are shared.  A client that the fleet has given up is in
none of its tables; what its holders do to its server, the world may do. -/
inductive Deed (η σ : Type) where
  | step (step : Step η σ)
  /-- A holder of the client of the server with a number calls it. -/
  | call (s : Surroundings) (n : Nat) (call : Client.Call)

/-- What has happened. -/
inductive Occurrence (η σ : Type) where
  | action (e : Event η σ)
  | call (n : Nat) (e : Client.Event (Launched σ))

namespace Occurrence

/-- A holder has ended the session of the server with a number. -/
def Ends (n : Nat) : Occurrence η σ → Prop
  | action _ => False
  | call m e => m = n ∧ e.Ends

end Occurrence

section Runs

variable [Peer σ] [Host η σ]

/-- All that happens in a run, and the fleet after it. -/
def chronicle (fleet : TrackedFleet η σ) :
    List (Deed η σ) → List (Occurrence η σ) × TrackedFleet η σ
  | [] => ([], fleet)
  | .step (.action s action) :: deeds =>
    (.action (eventOf s fleet action) :: ((eventOf s fleet action).after.chronicle deeds).1,
      ((eventOf s fleet action).after.chronicle deeds).2)
  | .step (.world servers host files) :: deeds =>
    (fleet.elsewhere servers host files).chronicle deeds
  | .call s n call :: deeds =>
    match fleet.numbered? n with
    | none => fleet.chronicle deeds
    | some session =>
      (.call n (session.client.eventOf call) :: ((fleet.called s n session call).chronicle deeds).1,
        ((fleet.called s n session call).chronicle deeds).2)

/-- Without calls of holders it is the history of the fleet. -/
theorem chronicle_steps (fleet : TrackedFleet η σ) (steps : List (Step η σ)) :
    fleet.chronicle (steps.map .step) =
      ((fleet.history steps).1.map .action, (fleet.history steps).2) := by
  induction steps generalizing fleet with
  | nil => rfl
  | cons step steps ih =>
      cases step with
      | action s action =>
          simp only [List.map_cons, chronicle, history, ih]
      | world servers host files =>
          simp only [List.map_cons, chronicle, history, ih]

end Runs

/-! ## How the clients stand -/

/-- Nobody knows a number that is still to be given, and every client in the table stands as its
holders have left it. -/
structure Shared (ended : Nat → Prop) (fleet : TrackedFleet η σ) : Prop where
  known : ∀ n, ended n → n < fleet.launches
  given : ∀ entry ∈ fleet.sessions ++ fleet.retired, number entry < fleet.launches
  stands : ∀ entry ∈ fleet.sessions, Stands (ended (number entry)) entry.2.client

namespace Shared

variable {ended : Nat → Prop} {fleet : TrackedFleet η σ} {language : Text}
  {session : Session (Tracked σ)}

/-- A site may have launched more. -/
theorem of_site (h : Shared ended fleet) {site : Site (Counting η) (Tracked σ)}
    (hle : fleet.launches ≤ site.host.launches) : Shared ended { fleet with site := site } where
  known n hn := lt_of_lt_of_le (h.known n hn) hle
  given entry hmem := lt_of_lt_of_le (h.given entry hmem) hle
  stands := h.stands

theorem given_of_session? (h : Shared ended fleet) (hsession : fleet.session? language = some session) :
    session.client.number < fleet.launches := by
  obtain ⟨entry, hfind, rfl⟩ := Option.map_eq_some_iff.mp hsession
  exact h.given entry (List.mem_append_left _ (List.mem_of_find?_eq_some hfind))

theorem stands_of_session? (h : Shared ended fleet)
    (hsession : fleet.session? language = some session) :
    Stands (ended session.client.number) session.client := by
  obtain ⟨entry, hfind, rfl⟩ := Option.map_eq_some_iff.mp hsession
  exact h.stands entry (List.mem_of_find?_eq_some hfind)

theorem adopt (h : Shared ended fleet) (hlt : session.client.number < fleet.launches)
    (hstands : Stands (ended session.client.number) session.client) :
    Shared ended (fleet.adopt language session) where
  known := h.known
  given entry hmem := by
    simp only [Fleet.adopt, List.mem_append, List.mem_singleton] at hmem
    rcases hmem with (hmem | rfl) | hmem
    · exact h.given entry (List.mem_append_left _ hmem)
    · exact hlt
    · exact h.given entry (List.mem_append_right _ hmem)
  stands entry hmem := by
    rcases List.mem_append.mp hmem with hmem | hmem
    · exact h.stands entry hmem
    · rw [List.mem_singleton.mp hmem]
      exact hstands

theorem drop (h : Shared ended fleet) (language : Text) : Shared ended (fleet.drop language) where
  known := h.known
  given entry hmem := by
    rcases List.mem_append.mp hmem with hmem | hmem
    · exact h.given entry (List.mem_append_left _ (List.mem_of_mem_filter hmem))
    · exact h.given entry (List.mem_append_right _ hmem)
  stands entry hmem := h.stands entry (List.mem_of_mem_filter hmem)

theorem update (h : Shared ended fleet) (hlt : session.client.number < fleet.launches)
    (hstands : Stands (ended session.client.number) session.client) :
    Shared ended (fleet.update language session) where
  known := h.known
  given entry hmem := by
    rcases List.mem_append.mp hmem with hmem | hmem
    · obtain ⟨old, hold, rfl⟩ := List.mem_map.mp hmem
      split
      · exact hlt
      · exact h.given old (List.mem_append_left _ hold)
    · exact h.given entry (List.mem_append_right _ hmem)
  stands entry hmem := by
    obtain ⟨old, hold, rfl⟩ := List.mem_map.mp hmem
    split
    · exact hstands
    · exact h.stands old hold

theorem retire [Peer σ] (h : Shared ended fleet) (language : Text)
    (hlt : session.client.number < fleet.launches) :
    Shared ended (fleet.retire language session) where
  known := h.known
  given entry hmem := by
    have hclosed : number (language, session.close) < fleet.launches := by
      rw [number, Session.close, Client.number_close]
      exact hlt
    simp only [Fleet.retire, List.mem_append, List.mem_singleton] at hmem
    rcases hmem with hmem | hmem | rfl
    · exact h.given entry (List.mem_append_left _ hmem)
    · exact h.given entry (List.mem_append_right _ hmem)
    · exact hclosed
  stands := h.stands

theorem retireEnded [Peer σ] (h : Shared ended fleet) (language : Text) :
    Shared ended (fleet.retireEnded language) := by
  rcases retireEnded_cases language fleet with ⟨hsame, -⟩ | ⟨session, hsession, -, text, hretired⟩
  · rw [hsame]
    exact h
  · have hremarked : Shared ended (fleet.remark .warning text) := h.of_site (Nat.le_refl _)
    have hdropped := hremarked.drop language
    rw [hretired]
    exact hdropped.retire language (h.given_of_session? hsession)

end Shared

/-! ## What actions do -/

end Fleet

namespace Session

variable {η σ α : Type} {session session' : Session (Tracked σ)} {action : Operation (Tracked σ) α}
  {site site' : Site (Counting η) (Tracked σ)} {result : Except (Stop ClientError) α}

theorem Ran.number_eq (h : session.Ran action site result session' site')
    (haction : ∀ c, (action c).2.number = c.number) :
    session'.client.number = session.client.number := by
  rw [h.client_eq]
  exact haction session.client

end Session

namespace Fleet

open Client (Stands Ready)

variable {η σ : Type} [Peer σ] [Host η σ] {ended : Nat → Prop} {fleet fleet' : TrackedFleet η σ}
  {s : Surroundings} {language : Text} {session : Session (Tracked σ)}
  {result : Except (Stop FleetError) (Session (Tracked σ))}

omit [Host η σ] in
theorem Opens.shared (h : Opens s language session fleet result fleet') (hs : Shared ended fleet)
    (hlt : session.client.number < fleet.launches) :
    Shared ended fleet' ∧ fleet'.launches = fleet.launches ∧
      ∀ opened, result = .ok opened →
        opened.client.number = session.client.number ∧ opened.client.Ready := by
  cases h with
  | unnamed =>
      refine ⟨hs.of_site (Nat.le_refl _), rfl, ?_⟩
      rintro _ ⟨⟩
  | @opened params opened site' hran =>
      have hlaunches := hran.launches_eq
      refine ⟨hs.of_site hlaunches.ge, hlaunches, ?_⟩
      rintro _ ⟨⟩
      refine ⟨hran.number_eq fun c => c.number_introduce params _, ?_⟩
      rw [hran.client_eq]
      exact Client.ready_of_introduce hran.result_eq.symm
  | @refused params e refused site' hran =>
      have hlaunches := hran.launches_eq
      have hnumber := hran.number_eq fun c => c.number_introduce params _
      have hopened : Shared ended { fleet with site := site' } := hs.of_site hlaunches.ge
      refine ⟨hopened.retire language ?_, hlaunches, ?_⟩
      · rw [hnumber, launches, hlaunches]
        exact hlt
      · rintro _ ⟨⟩
  | broken hran =>
      have hlaunches := hran.launches_eq
      refine ⟨hs.of_site hlaunches.ge, hlaunches, ?_⟩
      rintro _ ⟨⟩

/-- **A session is started under a number that nobody knows, and ready.** -/
theorem Launches.shared {command : Text} (h : Launches s language command fleet result fleet')
    (hs : Shared ended fleet) :
    Shared ended fleet' ∧ ∀ opened, result = .ok opened →
      opened.client.number < fleet'.launches ∧
        Stands (ended opened.client.number) opened.client := by
  cases h with
  | @unlaunched stop site' hstarts =>
      obtain ⟨given, hleft⟩ := hstarts.left
      have hle : fleet.launches ≤ site'.host.launches := by
        rw [hleft.host_eq]
        rcases fleet.site.hostAfter_launches command with ⟨-, hsame⟩ | ⟨-, -, hnext⟩
        · exact hsame.ge
        · exact (Nat.le_succ _).trans hnext.ge
      exact ⟨hs.of_site hle, fun _ hok => nomatch hok⟩
  | @launched session site' _ _ hstarts hopens =>
      cases hstarts with
      | @started processId peer trace _ hanswer htrace hleft =>
          have hlaunched : (fleet.site.answer? command).bind StartOutcome.launched? = some peer := by
            rw [hanswer]
            rfl
          obtain ⟨hnext, server, rfl⟩ := launched_new hlaunched hleft
          have hnew : ¬ended fleet.launches := fun hended => lt_irrefl _ (hs.known _ hended)
          have hlt : fleet.launches < site'.host.launches := by
            rw [hnext]
            exact Nat.lt_succ_self _
          have hsite : Shared ended { fleet with site := site' } := hs.of_site hlt.le
          obtain ⟨hopened, hlaunches, hready⟩ := hopens.shared hsite hlt
          refine ⟨hopened, fun opened hok => ?_⟩
          obtain ⟨hnumber, hopenedReady⟩ := hready opened hok
          have hnumber : opened.client.number = fleet.launches := hnumber
          rw [hnumber, hlaunches]
          exact ⟨hlt, fun _ => hopenedReady, fun hended => absurd hended hnew⟩

/-- **What is handed out stands as its holders have left it.** -/
theorem Found.shared (h : Found s language fleet result fleet') (hs : Shared ended fleet) :
    Shared ended fleet' ∧ ∀ handed, result = .ok handed →
      Stands (ended handed.client.number) handed.client := by
  have hretired := hs.retireEnded language
  cases h with
  | disabled => exact ⟨hs, fun _ hok => nomatch hok⟩
  | cached _ hsession =>
      refine ⟨hretired, ?_⟩
      rintro _ ⟨⟩
      exact hretired.stands_of_session? hsession
  | remembered | unconfigured => exact ⟨hretired, fun _ hok => nomatch hok⟩
  | started _ _ _ _ hlaunches =>
      obtain ⟨hlaunched, hopened⟩ := hlaunches.shared hretired
      rcases result with (e | f) | opened
      · exact ⟨⟨hlaunched.known, hlaunched.given, hlaunched.stands⟩, fun _ hok => nomatch hok⟩
      · exact ⟨hlaunched, fun _ hok => nomatch hok⟩
      · obtain ⟨hlt, hstands⟩ := hopened opened rfl
        refine ⟨hlaunched.adopt hlt hstands, ?_⟩
        rintro _ ⟨⟩
        exact hstands

omit [Host η σ] in
theorem Shared.pollEach (h : Shared ended fleet) (s : Surroundings) (languages : List Text) :
    Shared ended (pollEach s languages fleet).2 := by
  refine pollEach_induction (P := Shared ended) ?_ s languages h
  intro fleet language session result session' site' h hsession hran
  have hnumber : session'.client.number = session.client.number :=
    hran.number_eq fun c => c.number_perform .poll
  have hsite : Shared ended { fleet with site := site' } := h.of_site hran.launches_eq.ge
  apply hsite.update
  · rw [hnumber, launches, hran.launches_eq]
    exact h.given_of_session? hsession
  · rw [hnumber, hran.client_eq]
    exact (Client.stands_poll (h.stands_of_session? hsession)).takeJournal

omit [Host η σ] in
theorem Shared.closeEach {hand : List (Text × Session (Tracked σ))} (h : Shared ended fleet)
    (hgiven : ∀ entry ∈ hand, number entry < fleet.launches) (s : Surroundings) :
    Shared ended (closeEach s hand fleet).2 := by
  let P : List (Text × Session (Tracked σ)) → TrackedFleet η σ → Prop := fun hand fleet =>
    Shared ended fleet ∧ ∀ entry ∈ hand, number entry < fleet.launches
  have hremark : ∀ hand fleet level text, P hand fleet → P hand (fleet.remark level text) :=
    fun _ _ _ _ h => ⟨h.1.of_site (Nat.le_refl _), h.2⟩
  have hretire : ∀ language session rest fleet, P ((language, session) :: rest) fleet →
      P rest (fleet.retire language session) := by
    intro language session rest fleet ⟨hshared, hgiven⟩
    obtain ⟨hfirst, hrest⟩ := List.forall_mem_cons.mp hgiven
    exact ⟨hshared.retire language hfirst, hrest⟩
  have hshutdown : ∀ language session rest fleet result session' site',
      P ((language, session) :: rest) fleet →
        session.Ran Client.shutdown fleet.site result session' site' →
          P ((language, session') :: rest) { fleet with site := site' } := by
    intro language session rest fleet result session' site' ⟨hshared, hgiven⟩ hran
    have hlaunches := hran.launches_eq
    have hnumber : session'.client.number = session.client.number :=
      hran.number_eq fun c => c.number_perform .shutdown
    refine ⟨hshared.of_site hlaunches.ge, ?_⟩
    rw [launches, hlaunches]
    obtain ⟨hfirst, hrest⟩ := List.forall_mem_cons.mp hgiven
    refine List.forall_mem_cons.mpr ⟨?_, hrest⟩
    rw [number, hnumber]
    exact hfirst
  rcases closeEach_cases hremark hretire hshutdown s hand ⟨h, hgiven⟩ with
    ⟨fleet', hclose, hshared, -⟩ |
      ⟨f, language, session, session', site', rest, fleet', hclose, ⟨hshared, -⟩, hran⟩
  · rw [hclose]
    exact hshared
  · rw [hclose, foldl_abandon]
    exact hshared.of_site hran.launches_eq.ge

/-- **An action keeps it so that clients stand as their holders have left them.** -/
theorem Event.shared {e : Event η σ} (h : e.Happens) (hs : Shared ended e.before) :
    Shared ended e.after ∧ ∀ handed, e.result = .ok (.session handed) →
      Stands (ended handed.client.number) handed.client := by
  obtain ⟨s, action, before, result, after⟩ := e
  change Acts s before action result after at h
  cases h with
  | @found language found _ hlanguage hfound =>
      obtain ⟨hafter, hhanded⟩ := hfound.shared hs
      refine ⟨hafter, fun handed hok => ?_⟩
      cases found with
      | error stop => cases hok
      | ok session => cases hok; exact hhanded handed rfl
  | unfiled => exact ⟨hs, fun _ hok => nomatch hok⟩
  | polled =>
      refine ⟨hs.pollEach s _, fun handed hok => ?_⟩
      dsimp only at hok
      generalize (Fleet.pollEach s (before.sessions.map (·.1)) before).1 = result at hok
      cases result <;> cases hok
  | closed =>
      have hempty : Shared ended { before with sessions := [] } :=
        ⟨hs.known, fun entry hmem => hs.given entry (List.mem_append_right _ hmem),
          fun _ hmem => absurd hmem List.not_mem_nil⟩
      have hgiven : ∀ entry ∈ before.sessions, number entry < before.launches := fun entry hmem =>
        hs.given entry (List.mem_append_left _ hmem)
      refine ⟨hempty.closeEach hgiven s, fun handed hok => ?_⟩
      dsimp only at hok
      generalize (Fleet.closeEach s before.sessions { before with sessions := [] }).1 = result at hok
      cases result <;> cases hok

/-! ## What holders do -/

omit [Peer σ] [Host η σ] in
/-- An entry under the number that was called holds the session that was called. -/
theorem numbered?_of_mem {n : Nat} {entry : Text × Session (Tracked σ)}
    (hsession : fleet.numbered? n = some session) (hmem : entry ∈ fleet.sessions)
    (hnumber : number entry = n) : ∃ key, (key, session) ∈ fleet.sessions := by
  obtain ⟨⟨key, found⟩, hfind, rfl⟩ := Option.map_eq_some_iff.mp hsession
  refine ⟨key, ?_⟩
  rw [List.find?_append] at hfind
  cases hopen : fleet.sessions.find? fun entry => decide (number entry = n) with
  | none =>
      have hnone := List.find?_eq_none.mp hopen entry hmem
      exact absurd (decide_eq_true hnumber) hnone
  | some first =>
      rw [hopen] at hfind
      obtain rfl := Option.some.inj hfind
      exact List.mem_of_find?_eq_some hopen

omit [Peer σ] [Host η σ] in
theorem number_put {n : Nat} (hnumber : session.client.number = n)
    (entry : Text × Session (Tracked σ)) : number (put n session entry) = number entry := by
  by_cases hn : number entry = n
  · rw [put, if_pos hn, hn]
    exact hnumber
  · rw [put, if_neg hn]

omit [Peer σ] [Host η σ] in
/-- The session that is put back may have been ended meanwhile. -/
theorem Shared.putBack (h : Shared ended fleet) {n : Nat} {ends : Prop}
    (hnumber : session.client.number = n) (hlt : n < fleet.launches)
    (hstands : ∀ entry ∈ fleet.sessions, number entry = n →
      Stands (ended n ∨ ends) session.client) :
    Shared (fun m => ended m ∨ m = n ∧ ends) (fleet.putBack n session) where
  known m hended := by
    rcases hended with hended | ⟨rfl, -⟩
    · exact h.known m hended
    · exact hlt
  given entry hmem := by
    have hentries : (fleet.putBack n session).sessions ++ (fleet.putBack n session).retired =
        (fleet.sessions ++ fleet.retired).map (put n session) := List.map_append.symm
    rw [hentries] at hmem
    obtain ⟨old, hold, rfl⟩ := List.mem_map.mp hmem
    rw [number_put hnumber]
    exact h.given old hold
  stands entry hmem := by
    obtain ⟨old, hold, rfl⟩ := List.mem_map.mp hmem
    rw [number_put hnumber]
    by_cases hn : number old = n
    · rw [put, if_pos hn, hn]
      exact (hstands old hold hn).of_iff (or_congr Iff.rfl (and_iff_right rfl).symm)
    · rw [put, if_neg hn]
      exact (h.stands old hold).of_iff (or_iff_left fun hcalled => hn hcalled.1).symm

omit [Host η σ] in
theorem called_apply (s : Surroundings) (n : Nat) (session : Session (Tracked σ))
    (call : Client.Call) (fleet : TrackedFleet η σ) :
    ∃ result session' site',
      session.Ran (fun c => c.perform call) fleet.site result session' site' ∧
        fleet.called s n session call = Fleet.putBack n session' { fleet with site := site' } :=
  ⟨_, _, _, session.run_ran s (fun c => c.perform call) fleet.site, rfl⟩

omit [Host η σ] in
/-- **A call of a holder changes how its client stands, and no other.** -/
theorem Shared.called (h : Shared ended fleet) {n : Nat} (hsession : fleet.numbered? n = some session)
    (s : Surroundings) (call : Client.Call) :
    Shared (fun m => ended m ∨ m = n ∧ (session.client.eventOf call).Ends)
      (fleet.called s n session call) := by
  obtain ⟨result, session', site', hran, hcalled⟩ := called_apply s n session call fleet
  obtain ⟨entry, hfind, rfl⟩ := Option.map_eq_some_iff.mp hsession
  have hmem : entry ∈ fleet.sessions ++ fleet.retired := List.mem_of_find?_eq_some hfind
  have hnumber : number entry = n := by simpa using List.find?_some hfind
  have hlt : n < fleet.launches := hnumber ▸ h.given entry hmem
  have hsite : Shared ended { fleet with site := site' } := h.of_site hran.launches_eq.ge
  rw [hcalled]
  apply hsite.putBack
  · rw [hran.client_eq]
    exact (entry.2.client.number_perform call).trans hnumber
  · rw [launches, hran.launches_eq]
    exact hlt
  · intro old hold hn
    obtain ⟨key, hopen⟩ := numbered?_of_mem hsession hold hn
    have hstands : Stands (ended n) entry.2.client := by
      rw [← hnumber]
      exact h.stands (key, entry.2) hopen
    have hafter := Client.Event.stands (Client.eventOf_happens entry.2.client call) hstands
    rw [hran.client_eq]
    exact hafter.takeJournal

omit [Peer σ] [Host η σ] in
theorem Shared.elsewhere (h : Shared ended fleet) (servers : Nat → σ → σ) (host : η → η)
    (files : Files → Files) : Shared ended (fleet.elsewhere servers host files) where
  known := h.known
  given entry hmem := by
    rcases List.mem_append.mp hmem with hmem | hmem
    · obtain ⟨old, hold, rfl⟩ := List.mem_map.mp hmem
      exact h.given old (List.mem_append_left _ hold)
    · obtain ⟨old, hold, rfl⟩ := List.mem_map.mp hmem
      exact h.given old (List.mem_append_right _ hold)
  stands entry hmem := by
    obtain ⟨old, hold, rfl⟩ := List.mem_map.mp hmem
    obtain ⟨hready, hover⟩ := h.stands old hold
    exact ⟨hready, hover⟩

/-! ## Runs -/

/-- **What is handed out in a run stands as it has been left.** -/
theorem Shared.chronicle (h : Shared ended fleet) (deeds : List (Deed η σ)) :
    ∀ earlier e later handed, (fleet.chronicle deeds).1 = earlier ++ .action e :: later →
      e.result = .ok (.session handed) →
        Stands (ended handed.client.number ∨ ∃ x ∈ earlier, x.Ends handed.client.number)
          handed.client := by
  induction deeds generalizing fleet ended with
  | nil =>
      intro earlier e later handed hevents
      cases earlier <;> cases hevents
  | cons deed deeds ih =>
      intro earlier e later handed hevents hok
      cases deed with
      | step step =>
          cases step with
          | world servers host files =>
              exact ih (h.elsewhere servers host files) earlier e later handed hevents hok
          | action s action =>
              obtain ⟨hafter, hhanded⟩ := Event.shared (eventOf_happens s fleet action) h
              cases earlier with
              | nil =>
                  obtain ⟨hfirst, -⟩ := List.cons.inj hevents
                  obtain rfl := Occurrence.action.inj hfirst
                  exact (hhanded handed hok).of_iff (by simp)
              | cons first earlier =>
                  obtain ⟨rfl, hrest⟩ := List.cons.inj hevents
                  have hlater := ih hafter earlier e later handed hrest hok
                  exact hlater.of_iff (by simp [Occurrence.Ends])
      | call s n call =>
          cases hsession : fleet.numbered? n with
          | none =>
              rw [Fleet.chronicle, hsession] at hevents
              exact ih h earlier e later handed hevents hok
          | some session =>
              rw [Fleet.chronicle, hsession] at hevents
              cases earlier with
              | nil => cases (List.cons.inj hevents).1
              | cons first earlier =>
                  obtain ⟨rfl, hrest⟩ := List.cons.inj hevents
                  have hlater := ih (h.called hsession s call) earlier e later handed hrest hok
                  exact hlater.of_iff (by simp [Occurrence.Ends, or_assoc, eq_comm])

omit [Peer σ] [Host η σ] in
/-- At the start there is no client that anybody could have ended. -/
theorem shared_ofConfig (config : Config Text) (workspace : Text) (host : η) (files : Files) :
    Shared (fun _ => False)
      (ofConfig config workspace ⟨⟨host, 0⟩, files, [], []⟩ : TrackedFleet η σ) where
  known _ h := h.elim
  given _ hmem := absurd hmem List.not_mem_nil
  stands _ hmem := absurd hmem List.not_mem_nil

/-- A run of a fleet from its start, whose clients are shared. -/
def runShared (config : Config Text) (workspace : Text) (host : η) (files : Files)
    (deeds : List (Deed η σ)) : List (Occurrence η σ) × TrackedFleet η σ :=
  (ofConfig config workspace ⟨⟨host, 0⟩, files, [], []⟩ : TrackedFleet η σ).chronicle deeds

/-- **Who hands out a client that is not ready.**  Whatever is asked of a fleet, whatever the holders
of its clients call and whatever the servers do: a client that is handed out is ready if and only if
none of its holders has ended its session before; else it is shutting down or closed.  It says of
work on a document that it is not ready if and only if its session has been ended and its server
runs. -/
theorem run_shared (config : Config Text) (workspace : Text) (host : η) (files : Files)
    (deeds : List (Deed η σ)) :
    ∀ earlier e later handed,
      (runShared config workspace host files deeds).1 = earlier ++ .action e :: later →
        e.result = .ok (.session handed) →
          let ended := ∃ x ∈ earlier, x.Ends handed.client.number
          (handed.client.phase = .initialized ∧ handed.client.isInitialized = true ↔ ¬ended) ∧
          (ended → handed.client.phase = .shuttingDown ∨ handed.client.phase = .closed) ∧
          ∀ call, handed.client.TellsNamed call →
            (handed.client.SaysNotReady call ↔ ended ∧ handed.client.isRunning = true) := by
  intro earlier e later handed hevents hok ended
  have hstart := shared_ofConfig (σ := σ) config workspace host files
  have hstands : Stands ended handed.client :=
    (hstart.chronicle deeds earlier e later handed hevents hok).of_iff (iff_of_eq (false_or _))
  refine ⟨hstands.ready_iff, hstands.isOver, fun call htells => ?_⟩
  rw [Client.saysNotReady_iff htells]
  constructor
  · rintro ⟨hrunning, hphase⟩
    refine ⟨?_, hrunning⟩
    by_contra hnot
    exact hphase (hstands.ready hnot).1
  · rintro ⟨hended, hrunning⟩
    refine ⟨hrunning, fun hphase => ?_⟩
    rcases hstands.isOver hended with hover | hover
    · exact nomatch hover.symm.trans hphase
    · exact nomatch hover.symm.trans hphase

/-- A server that answers the requests of a session as it should. -/
def obliging : Script where
  start := []
  rules := [("initialize", [[.reply (.object [("capabilities", .object [])])]]),
    ("shutdown", [[.reply .null]])]

/-- A holder of the only client shuts its session down before the client is asked for again. -/
def handedOutTwice : List (Occurrence ScriptedHost ScriptedServer) :=
  let s : Surroundings := ⟨"/", "/home", 1, "2024-01-01", "12:00:00", []⟩
  let config : Config Text := ⟨true, [("python", ⟨"pyls", ["py"]⟩)], .zero, 1, .off, .null⟩
  (runShared config "/" ⟨[("pyls", obliging)], .empty, "/", 1000⟩ .empty
    [.step (.action s (.sessionFor "python")), .call s 0 .shutdown,
      .step (.action s (.sessionFor "python"))]).1

/-- What is seen of a client that is handed out: its phase, whether its server runs, and whether a
document has an address there. -/
def Occurrence.seen : Occurrence ScriptedHost ScriptedServer → Option (Phase × Bool × Bool)
  | action e =>
    match e.result with
    | .ok (.session handed) =>
      some (handed.client.phase, handed.client.isRunning, (handed.client.uri? "/main.py").isSome)
    | _ => none
  | call .. => none

theorem Occurrence.of_seen {x : Occurrence ScriptedHost ScriptedServer} {phase : Phase}
    {running address : Bool} (h : x.seen = some (phase, running, address)) :
    ∃ e handed, x = .action e ∧ e.result = .ok (.session handed) ∧ handed.client.phase = phase ∧
      handed.client.isRunning = running ∧ (handed.client.uri? "/main.py").isSome = address := by
  cases x with
  | call => cases h
  | action e =>
      rw [seen] at h
      rcases hok : e.result with stop | answer
      · rw [hok] at h
        cases h
      · rw [hok] at h
        cases answer with
        | session handed =>
            cases h
            exact ⟨e, handed, rfl, hok, rfl, rfl, rfl⟩
        | polled | closed => cases h

/-- The second time, the client that is handed out takes no notification. -/
theorem handedOut_over :
    ∃ earlier e handed, handedOutTwice = earlier ++ [.action e] ∧ e.result = .ok (.session handed) ∧
      handed.client.phase = .shuttingDown ∧
        handed.client.SaysNotReady (.closeDocument "/main.py") := by
  have hseen : handedOutTwice.map Occurrence.seen =
      [some (.initialized, true, true), none, some (.shuttingDown, true, true)] := by
    decide +kernel
  obtain ⟨first, rest, hevents, -, hrest⟩ := List.map_eq_cons_iff.mp hseen
  obtain ⟨call, rest, rfl, -, hrest⟩ := List.map_eq_cons_iff.mp hrest
  obtain ⟨last, rest, rfl, hlast, hnil⟩ := List.map_eq_cons_iff.mp hrest
  obtain rfl := List.map_eq_nil_iff.mp hnil
  obtain ⟨e, handed, rfl, hok, hphase, hrunning, haddress⟩ := Occurrence.of_seen hlast
  obtain ⟨uri, huri⟩ := Option.isSome_iff_exists.mp haddress
  obtain ⟨hready, -, hrefuses⟩ := run_shared _ _ _ _ _ [first, call] e [] handed hevents hok
  have htells : handed.client.TellsNamed (.closeDocument "/main.py") := ⟨rfl, _, uri, rfl, huri⟩
  refine ⟨[first, call], e, handed, hevents, hok, hphase, ?_⟩
  refine (hrefuses _ htells).mpr ⟨?_, hrunning⟩
  by_contra hnot
  exact nomatch hphase.symm.trans (hready.mpr hnot).1

end Fleet

end LanguageClient
