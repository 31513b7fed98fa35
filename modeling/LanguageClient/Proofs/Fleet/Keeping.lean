import LanguageClient.Proofs.Fleet.Image

/-!
# Sessions that keep their servers

A session keeps its server through all that a fleet does with it: introducing it, polling it, asking
it about a document and shutting it down neither stop it nor change its number, and end by a fault only
if the server is to blame, or an obstacle to its introduction (`Session.Ran.introduced`,
`Session.Ran.polled`, `Session.Ran.called`, `Session.Ran.shutDown`).
-/

namespace LanguageClient

namespace Client

variable {σ : Type} [Peer σ]

/-- The client has kept its server, and the server is to blame for a fault. -/
structure Minded {α : Type} (c : Client (Tracked σ)) (result : Except (Stop ClientError) α)
    (c' : Client (Tracked σ)) : Prop where
  kept : Kept c'
  number_eq : c'.number = c.number
  blame : ∀ f, Attempt.fault? result = some f → c'.connection.peer.Faulty f

variable {c : Client (Tracked σ)}

/-- A call that does not poll blames the server for its faults, unless a path has no URI. -/
theorem minded_perform (h : Kept c) (call : Call) (hclose : call ≠ .close) (hpoll : call ≠ .poll)
    (hpath : ∀ path, call.path? = some path → c.uri? path ≠ none) :
    Minded c (c.perform call).1 (c.perform call).2 := by
  obtain ⟨hkept, hblame⟩ := h.did (perform_did c call) hclose hpath
  exact ⟨hkept, c.number_perform call, fun f hf =>
    (hblame f hf).resolve_right fun hnot => hpoll hnot.1⟩

theorem minded_handshake (h : Kept c) (params : Payload) :
    Minded c (handshake params c).1 (handshake params c).2 := by
  obtain ⟨hkept, hnumber, hblame⟩ := minded_perform h (.handshake params) (fun h => nomatch h)
    (fun h => nomatch h) (fun path h => nomatch h)
  exact ⟨hkept, hnumber, fun f hf => hblame f ((Attempt.fault?_map _ _).trans hf)⟩

theorem minded_confirm (h : Kept c) : Minded c (confirm c).1 (confirm c).2 := by
  obtain ⟨hkept, hnumber, hblame⟩ := minded_perform h .confirm (fun h => nomatch h)
    (fun h => nomatch h) (fun path h => nomatch h)
  exact ⟨hkept, hnumber, fun f hf => hblame f ((Attempt.fault?_map _ _).trans hf)⟩

theorem minded_shutdown (h : Kept c) : Minded c (shutdown c).1 (shutdown c).2 := by
  obtain ⟨hkept, hnumber, hblame⟩ := minded_perform h .shutdown (fun h => nomatch h)
    (fun h => nomatch h) (fun path h => nomatch h)
  exact ⟨hkept, hnumber, fun f hf => hblame f ((Attempt.fault?_map _ _).trans hf)⟩

/-- Asking for an event blames the server for its faults, and for addresses that are none. -/
theorem kept_poll (h : Kept c) :
    Kept (poll c).2 ∧ (poll c).2.number = c.number ∧
      ∀ f, Attempt.fault? (poll c).1 = some f → (poll c).2.connection.peer.Faulty f ∨
        ∃ e, (poll c).2.connection.peer.Misaddressed e ∧ f = .malformedUri e := by
  obtain ⟨hkept, hblame⟩ := h.did (perform_did c .poll) (fun h => nomatch h) (fun path h => nomatch h)
  exact ⟨hkept, c.number_perform .poll, fun f hf =>
    (hblame f ((Attempt.fault?_map _ _).trans hf)).imp_right And.right⟩

/-- A client that announces itself meets no fault. -/
theorem kept_announce (h : Kept c) (params : Payload) :
    Kept (announce params c).2 ∧ Attempt.fault? (announce params c).1 = none := by
  rcases announce_carries params c with ⟨e, hrefused⟩ |
    ⟨outcome, d, result, hcarries, hinbox, hfault, hannounce⟩
  · rw [hrefused]
    exact ⟨h, rfl⟩
  · rw [hannounce]
    let c' := { c with phase := .initializing, nextId := c.nextId + 1, connection := d }
    refine ⟨(h.carries c' hcarries Traffic.not_isTermination_of_write (fun h => nomatch h) ?_).1,
      hfault⟩
    exact fun m hmem => List.mem_append_left _ (hinbox ▸ hmem)

theorem number_introduce (c : Client (Tracked σ)) (params : Payload) (obstacle : Option Fault) :
    (Fleet.introduce params obstacle c).2.number = c.number :=
  number_of_mirrors (fun n => mirrors_image _
    (Fleet.mirrors_introduce (Tracked.alike_under n) id [] params obstacle)) c

/-- Where there is an obstacle to the introduction, it is that which is to blame. -/
theorem kept_introduce (h : Kept c) (params : Payload) (obstacle : Option Fault) :
    Kept (Fleet.introduce params obstacle c).2 ∧
      ∀ f, Attempt.fault? (Fleet.introduce params obstacle c).1 = some f →
        (Fleet.introduce params obstacle c).2.connection.peer.Faulty f ∨ obstacle = some f := by
  cases obstacle with
  | none =>
      have hfirst := minded_handshake h params
      rw [Fleet.introduce]
      rcases hhandshake : handshake params c with ⟨stop | done, c₁⟩
      · rw [hhandshake] at hfirst
        rw [Attempt.bind_of_error hhandshake]
        refine ⟨hfirst.kept, fun f hf => Or.inl (hfirst.blame f ?_)⟩
        cases stop with
        | failed e => cases hf
        | faulted g => exact hf
      · rw [hhandshake] at hfirst
        rw [Attempt.bind_of_ok hhandshake]
        have hsecond := minded_confirm hfirst.kept
        exact ⟨hsecond.kept, fun f hf => Or.inl (hsecond.blame f hf)⟩
  | some g =>
      obtain ⟨hkept, hfault⟩ := kept_announce h params
      rw [Fleet.introduce]
      rcases hannounce : announce params c with ⟨(e | f) | done, c₁⟩
      · rw [hannounce] at hkept
        rw [Attempt.bind_of_error hannounce]
        exact ⟨hkept, fun f hf => nomatch hf⟩
      · rw [hannounce] at hfault
        cases hfault
      · rw [hannounce] at hkept
        rw [Attempt.bind_of_ok hannounce]
        exact ⟨hkept, fun f hf => Or.inr hf⟩

end Client

namespace Session

variable {η σ : Type} {session session' : Session (Tracked σ)}
  {site site' : Site (Counting η) (Tracked σ)}

/-- The server of the session. -/
def server (session : Session (Tracked σ)) : Tracked σ := session.client.connection.peer

/-- The session has kept its server. -/
structure Holds (session session' : Session (Tracked σ)) : Prop where
  kept : session'.client.Kept
  number_eq : session'.server.number = session.server.number

/-- The session has kept its server, and the server is to blame for a fault. -/
structure Minded {α : Type} (session : Session (Tracked σ)) (result : Except (Stop ClientError) α)
    (session' : Session (Tracked σ)) : Prop extends Holds session session' where
  blame : ∀ f, Attempt.fault? result = some f → session'.server.Faulty f

/-- The session has kept its server, and the server is to blame for a fault, if only by the address of
diagnostics. -/
structure Served {α : Type} (session : Session (Tracked σ)) (result : Except (Stop ClientError) α)
    (session' : Session (Tracked σ)) : Prop extends Holds session session' where
  blame : ∀ f, Attempt.fault? result = some f → session'.server.Faulty f ∨
    ∃ e, session'.server.Misaddressed e ∧ f = .malformedUri e

/-- The session has kept its server, and the server is to blame for a fault, unless there was an
obstacle. -/
structure Introduced {α : Type} (session : Session (Tracked σ))
    (result : Except (Stop ClientError) α) (session' : Session (Tracked σ)) : Prop
    extends Holds session session' where
  blame : ∀ f, Attempt.fault? result = some f →
    session'.server.Faulty f ∨ session.obstacle? = some f

variable {α : Type} {action : Operation (Tracked σ) α} {result : Except (Stop ClientError) α}

theorem Minded.served (h : session.Minded result session') : session.Served result session' :=
  ⟨h.toHolds, fun f hf => Or.inl (h.blame f hf)⟩

/-- Working with a client launches nothing. -/
theorem Ran.launches_eq (h : session.Ran action site result session' site') :
    site'.host.launches = site.host.launches := by
  rw [h.host_eq]

/-- Handing over the journal changes nothing of the server. -/
theorem Ran.server_eq (h : session.Ran action site result session' site') :
    session'.server = (action session.client).2.connection.peer := by
  rw [server, h.client_eq]
  rfl

theorem Ran.kept (h : session.Ran action site result session' site')
    (hkept : (action session.client).2.Kept) : session'.client.Kept := by
  obtain ⟨hopen, hunstopped, hinStep⟩ := hkept
  rw [h.client_eq]
  exact ⟨hopen, hunstopped, hinStep⟩

theorem Ran.minded (h : session.Ran action site result session' site')
    (haction : session.client.Minded (action session.client).1 (action session.client).2) :
    session.Minded result session' := by
  obtain ⟨hkept, hnumber, hblame⟩ := haction
  rw [← h.result_eq, ← h.server_eq] at hblame
  exact ⟨⟨h.kept hkept, (congrArg Tracked.number h.server_eq).trans hnumber⟩, hblame⟩

variable [Peer σ]

theorem Ran.introduced {params : Payload} {result : Except (Stop ClientError) Unit}
    (h : session.Ran (Fleet.introduce params session.obstacle?) site result session' site')
    (hkept : session.client.Kept) : session.Introduced result session' := by
  obtain ⟨hkept', hblame⟩ := Client.kept_introduce hkept params session.obstacle?
  have hnumber := session.client.number_introduce params session.obstacle?
  rw [← h.result_eq, ← h.server_eq] at hblame
  exact ⟨⟨h.kept hkept', (congrArg Tracked.number h.server_eq).trans hnumber⟩, hblame⟩

theorem Ran.shutDown {result : Except (Stop ClientError) Unit}
    (h : session.Ran Client.shutdown site result session' site') (hkept : session.client.Kept) :
    session.Minded result session' :=
  h.minded (Client.minded_shutdown hkept)

/-- A call about documents that have URIs. -/
theorem Ran.called (h : session.Ran action site result session' site')
    (hkept : session.client.Kept) (call : Client.Call) (answer : α → Client.Answer)
    (haction : session.client.perform call = Client.outcomeOf answer (action session.client))
    (hclose : call ≠ .close) (hpoll : call ≠ .poll)
    (hpath : ∀ path, call.path? = some path → session.client.uri? path ≠ none) :
    session.Minded result session' := by
  obtain ⟨hkept', hnumber, hblame⟩ := Client.minded_perform hkept call hclose hpoll hpath
  rw [haction] at hkept' hnumber hblame
  exact h.minded ⟨hkept', hnumber, fun f hf => hblame f ((Attempt.fault?_map _ _).trans hf)⟩

theorem Ran.polled {result : Except (Stop ClientError) (Option ServerEvent)}
    (h : session.Ran Client.poll site result session' site') (hkept : session.client.Kept) :
    session.Served result session' := by
  obtain ⟨hkept, hnumber, hblame⟩ := Client.kept_poll hkept
  rw [← h.result_eq, ← h.server_eq] at hblame
  exact ⟨⟨h.kept hkept, (congrArg Tracked.number h.server_eq).trans hnumber⟩, hblame⟩

end Session

end LanguageClient
