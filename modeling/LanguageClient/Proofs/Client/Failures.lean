import LanguageClient.Proofs.Client.Lifecycle
import LanguageClient.Script.Server

/-!
# Calls that fail

A call that fails leaves the session as it was, so that it can be made again.  Nothing is learned
from it and nothing is lost: the messages that came in meanwhile wait behind those that were there.
Main statement: `run_intact`.

```text
the phase                 stays, but a first request has begun the session
what is known             stays
the messages kept         stay, and those that were read are added;
                          asking for an event has taken the first one
```

## Strategy

A response is learned from in two cases (`concluded_cases`), and in both the call has succeeded.  So
a failed call leaves behind a client that has asked, and no more (`concluded_of_error`).
-/

namespace LanguageClient.Client

open LanguageClient.Connection

variable {σ : Type} [Peer σ]

omit [Peer σ] in
/-- Nothing is learned from a response that the call cannot use. -/
theorem concluded_of_error {call : Call} {response : ReadResult} {stop : Stop ClientError}
    (h : call.conclusion response = .error stop) (c : Client σ) :
    c.concluded call response = c := by
  rcases c.concluded_cases call response with
    hsame | ⟨params, m, r, rfl, rfl, hresult, -⟩ | ⟨-, hdone, -⟩
  · exact hsame
  · rw [Call.conclusion, Call.verdict, hresult] at h
    cases h
  · rw [hdone] at h
    cases h

omit [Peer σ] in
/-- Asking changes the phase of a first request only. -/
theorem asked_eq (c : Client σ) (call : Call) :
    c.asked call = { c with phase := (c.asked call).phase, nextId := c.nextId + 1 } ∧
      ((c.asked call).phase = c.phase ∨
        (∃ params, call = .handshake params) ∧ (c.asked call).phase = .initializing) := by
  cases call with
  | handshake params => exact ⟨rfl, Or.inr ⟨⟨params, rfl⟩, rfl⟩⟩
  | _ => exact ⟨rfl, Or.inl rfl⟩

/-- A first request is made of a client whose session has not been opened. -/
theorem phase_of_handshake {c : Client (Watched σ)} {params : Payload} {said : Method × Json}
    (h : c.says? (.handshake params) = some said) :
    c.phase = .uninitialized ∨ c.phase = .initializing := by
  by_contra hphase
  rw [says?, if_neg hphase] at h
  cases h

namespace Event

/-- The session is after the call what it was before, and nothing that came in is lost. -/
structure LeavesIntact (e : Event σ) : Prop where
  isInitialized : e.after.isInitialized = e.before.isInitialized
  offersHover : e.after.offersHover = e.before.offersHover
  serverInfo : e.after.serverInfo = e.before.serverInfo
  /-- A first request begins the session, whatever comes of it. -/
  phase : e.after.phase = e.before.phase ∨
    (∃ params, e.call = .handshake params) ∧
      e.before.phase = .uninitialized ∧ e.after.phase = .initializing
  inbox : (e.call = .poll → e.before.phase = .closed) →
    e.after.connection.inbox = e.before.connection.inbox ++ e.read.filter (·.has "method")
  /-- Asking for an event takes the first message, also if it is no event. -/
  polled : e.call = .poll → e.before.phase ≠ .closed →
    e.after.connection.inbox = (e.before.connection.inbox ++ e.read.filter (·.has "method")).tail

omit [Peer σ] in
/-- Nothing at all has changed. -/
theorem LeavesIntact.refl (call : Call) (c : Client (Watched σ))
    (result : Except (Stop ClientError) Answer) (hpoll : call = .poll → c.phase = .closed) :
    LeavesIntact ⟨call, c, result, c⟩ where
  isInitialized := rfl
  offersHover := rfl
  serverInfo := rfl
  phase := Or.inl rfl
  inbox _ := by
    rw [read, List.drop_length]
    exact (List.append_nil _).symm
  polled hcall hopen := absurd (hpoll hcall) hopen

/-- **A call that fails leaves the session intact.** -/
theorem leavesIntact_of_error {e : Event σ} (h : e.Happens) {stop : Stop ClientError}
    (hresult : e.result = .error stop) : e.LeavesIntact := by
  obtain ⟨call, before, result, after⟩ := e
  change Did before call result after at h
  dsimp only at hresult
  cases h with
  | refused _ hpoll => exact .refl call before _ hpoll
  | unnamed _ hpath =>
      refine .refl call before _ fun hcall => ?_
      rw [hcall] at hpath
      cases hpath
  | told | closed | numbered => cases hresult
  | @untold method params d outcome error hspeaks hkind houtcome hcarries hinbox =>
      refine ⟨rfl, rfl, rfl, Or.inl rfl, fun _ => ?_, fun (hcall : call = .poll) => ?_⟩
      · rw [read_eq hcarries]
        exact hinbox.trans (List.append_nil _).symm
      · rw [hcall] at hspeaks
        cases hspeaks
  | @asked method params response d outcome t hspeaks hkind hcalled =>
      rw [concluded_of_error hresult]
      obtain ⟨hasked, hphase⟩ := before.asked_eq call
      refine ⟨?_, ?_, ?_, ?_, fun _ => ?_, fun (hcall : call = .poll) => ?_⟩
      · rw [hasked]
      · rw [hasked]
      · rw [hasked]
      · rcases hphase with hsame | ⟨⟨params, rfl⟩, hbegun⟩
        · exact Or.inl hsame
        · rcases phase_of_handshake hspeaks with hbefore | hbefore
          · exact Or.inr ⟨⟨params, rfl⟩, hbefore, hbegun⟩
          · exact Or.inl (hbegun.trans hbefore.symm)
      · rw [read_eq hcalled.carries]
        exact hcalled.inbox_eq
      · rw [hcall] at hkind
        cases hkind
  | @polled next d t hcall hopen hpassed =>
      refine ⟨rfl, rfl, rfl, Or.inl rfl, fun hclosed => absurd (hclosed hcall) hopen, fun _ _ => ?_⟩
      rw [read_eq hpassed.carries]
      exact hpassed.inbox_eq

end Event

/-- A server that has something to say before it turns down the first request. -/
def unwilling : Script where
  start := []
  rules := [("initialize", [[.send (.object [("method", .ofString "window/logMessage")]),
    .replyError (.object [("code", .int 1)])]])]

/-- The first request to it. -/
def turnedDown : Event ScriptedServer :=
  (attach (.of (ScriptedServer.start unwilling)) 1 "/" .zero 1).eventOf (.handshake (.map []))

end LanguageClient.Client
