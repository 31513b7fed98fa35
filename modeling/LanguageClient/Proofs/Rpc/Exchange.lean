import LanguageClient.Proofs.Rpc.Reading
import LanguageClient.Rpc.Exchange

/-!
# One exchange

What can be seen of a connection from outside is its inbox, the messages that it has read, and the
warnings in its log.  Every operation moves these in one of a few ways (`Step`), whatever the peer
does; `Operation.step` is the only place where the operations are opened.

## Strategy

Writing, waiting and failing move nothing (`Moves c c' c.inbox [] []`).  A poll cycle reads at most
one message (`Polled`), and what becomes of it depends on the operation.
-/

namespace LanguageClient

/-- The message that was read. -/
def Entry.received? : Entry → Option Members
  | traffic .receive message => some message
  | _ => none

/-- The text of a warning. -/
def Entry.warning? : Entry → Option Text
  | remark .warning text => some text
  | _ => none

/-- The failure says that a response was not the one awaited. -/
def Stop.refusesResponse : Stop RpcError → Bool
  | failed (.unsolicited _) => true
  | _ => false

namespace Frame

/-! ## Parts -/

theorem Part.entries_of_ok {part : Part} {message : Members} (h : part.result = .ok message) :
    part.entries = [.traffic .receive message] := by
  cases part with
  | malformed e => cases h
  | body bytes =>
      rw [Part.result] at h
      rw [Part.entries]
      cases hread : readBody bytes with
      | ok m =>
          rw [hread] at h
          cases h
          rfl
      | error e =>
          rw [hread] at h
          cases h

/-- A part that is no message shows as no message and as no warning. -/
theorem Part.entries_of_error {part : Part} {e : Stop RpcError} (h : part.result = .error e) :
    part.entries.filterMap Entry.received? = [] ∧ part.entries.filterMap Entry.warning? = [] ∧
      e.refusesResponse = false := by
  cases part with
  | malformed error =>
      cases h
      exact ⟨rfl, rfl, rfl⟩
  | body bytes =>
      rw [Part.result] at h
      rw [Part.entries]
      cases hread : readBody bytes with
      | ok m =>
          rw [hread] at h
          cases h
      | error flaw =>
          rw [hread] at h
          cases h
          rcases flaw with _ | (_ | _) | _ <;> exact ⟨rfl, rfl, rfl⟩

end Frame

namespace Connection

open LanguageClient.Frame

variable {σ : Type}

/-! ## What can be seen -/

/-- The messages that have been read, in order. -/
def received (c : Connection σ) : List Members := c.journal.filterMap Entry.received?

/-- The warnings in the log, in order. -/
def warnings (c : Connection σ) : List Text := c.journal.filterMap Entry.warning?

/-- From `c` to `c'` messages were read and warnings logged, and the inbox became another. -/
structure Moves (c c' : Connection σ) (inbox read : List Members) (warned : List Text) : Prop where
  inbox_eq : c'.inbox = inbox
  received_eq : c'.received = c.received ++ read
  warnings_eq : c'.warnings = c.warnings ++ warned

section Moves

variable {c c₁ c₂ : Connection σ} {inbox inbox' read read' : List Members}
  {warned warned' : List Text}

theorem Moves.of_journal {entries : Journal} (hinbox : c₁.inbox = inbox)
    (hjournal : c₁.journal = c.journal ++ entries) :
    Moves c c₁ inbox (entries.filterMap Entry.received?) (entries.filterMap Entry.warning?) :=
  ⟨hinbox, by rw [received, hjournal, List.filterMap_append]; rfl,
    by rw [warnings, hjournal, List.filterMap_append]; rfl⟩

theorem Moves.of_same (hinbox : c₁.inbox = c.inbox) (hjournal : c₁.journal = c.journal) :
    Moves c c₁ c.inbox [] [] :=
  ⟨hinbox, by rw [received, received, hjournal, List.append_nil],
    by rw [warnings, warnings, hjournal, List.append_nil]⟩

theorem Moves.of_silent {entries : Journal} (hinbox : c₁.inbox = c.inbox)
    (hjournal : c₁.journal = c.journal ++ entries)
    (hreceived : entries.filterMap Entry.received? = [])
    (hwarned : entries.filterMap Entry.warning? = []) : Moves c c₁ c.inbox [] [] := by
  have hmoves := Moves.of_journal hinbox hjournal
  rwa [hreceived, hwarned] at hmoves

theorem Moves.of_warning {text : Text} (hinbox : c₁.inbox = inbox)
    (hjournal : c₁.journal = c.journal ++ [.remark .warning text]) :
    Moves c c₁ inbox [] [text] :=
  .of_journal hinbox hjournal

theorem Moves.trans (h : Moves c c₁ inbox read warned) (h' : Moves c₁ c₂ inbox' read' warned') :
    Moves c c₂ inbox' (read ++ read') (warned ++ warned') :=
  ⟨h'.inbox_eq, by rw [h'.received_eq, h.received_eq, List.append_assoc],
    by rw [h'.warnings_eq, h.warnings_eq, List.append_assoc]⟩

end Moves

/-! ## One poll cycle -/

/-- What a poll cycle does: it reads a message, or nothing shows of it but its failure. -/
inductive Polled (c : Connection σ) : ReadResult → Connection σ → Prop
  | message {c' : Connection σ} {m : Members} (h : Moves c c' c.inbox [m] []) :
      Polled c (.ok m) c'
  | nothing {c' : Connection σ} {e : Stop RpcError} (h : Moves c c' c.inbox [] [])
      (he : e.refusesResponse = false) : Polled c (.error e) c'

theorem polled_took {c c' : Connection σ} (part : Part) (rest : Bytes)
    (hinbox : c'.inbox = c.inbox) (hjournal : c'.journal = c.journal) :
    Polled c part.result (c'.took part rest) := by
  have hmoves : Moves c (c'.took part rest) c.inbox (part.entries.filterMap Entry.received?)
      (part.entries.filterMap Entry.warning?) :=
    .of_journal hinbox (by rw [took, hjournal])
  cases hresult : part.result with
  | ok m =>
      rw [Part.entries_of_ok hresult] at hmoves
      exact .message hmoves
  | error e =>
      obtain ⟨hreceived, hwarned, he⟩ := Part.entries_of_error hresult
      rw [hreceived, hwarned] at hmoves
      exact .nothing hmoves he

variable [Peer σ]

theorem ReadStep.polled {c c' : Connection σ} {result : ReadResult} (h : ReadStep c result c') :
    Polled c result c' := by
  cases h with
  | buffered htake => exact polled_took _ _ rfl rfl
  | completed hnone hread htake => exact polled_took _ _ rfl rfl
  | kept => exact .nothing (.of_same rfl rfl) rfl
  | @refused outcome peer e hnone hread hfailure =>
      refine .nothing (.of_same rfl rfl) ?_
      cases outcome with
      | data bytes => cases hfailure
      | wouldBlock | ended | failed error | closed =>
          cases hfailure
          rfl

/-- A wait changes nothing but the peer. -/
theorem awaitOutput_cases (c : Connection σ) :
    ∃ peer, awaitOutput c = (.ok (), { c with peer := peer }) ∨
      ∃ e : Stop RpcError, awaitOutput c = (.error e, { c with peer := peer }) ∧
        e.refusesResponse = false := by
  unfold awaitOutput
  simp only [Attempt.bind_apply, Attempt.get_apply]
  by_cases hready : isReady c.buffer
  · -- a part in the buffer needs no wait
    exact ⟨c.peer, Or.inl (by rw [if_pos hready]; rfl)⟩
  · rw [if_neg hready]
    rcases hawait : Peer.await c.pollTimeout c.peer with ⟨readiness, peer⟩
    refine ⟨peer, ?_⟩
    cases readiness with
    | ready => exact Or.inl (by simp [Attempt.bind_apply])
    | quiet | interrupted | closed =>
        exact Or.inr ⟨_, by simp [Attempt.bind_apply]; rfl, rfl⟩

theorem readOne_polled (c : Connection σ) : Polled c (readOne c).1 (readOne c).2 := by
  unfold readOne
  obtain ⟨peer, hok | ⟨e, herror, he⟩⟩ := awaitOutput_cases c
  · rw [Attempt.bind_of_ok hok]
    have hwait : Moves c { c with peer := peer } c.inbox [] [] := .of_same rfl rfl
    have hpolled := (readNext_step { c with peer := peer }).polled
    rcases hread : readNext { c with peer := peer } with ⟨result, c'⟩
    rw [hread] at hpolled
    cases hpolled with
    | message h =>
        rw [Attempt.bind_of_ok (Attempt.outcome_of_ok hread)]
        exact .message (hwait.trans h)
    | @nothing _ e h he =>
        cases e with
        | faulted f =>
            rw [Attempt.bind_of_error (Attempt.outcome_of_faulted hread)]
            exact .nothing (hwait.trans h) rfl
        | failed e =>
            rw [Attempt.bind_of_ok (Attempt.outcome_of_failed hread)]
            -- that nothing was found is reported in another way
            cases e with
            | wouldBlock => exact .nothing (hwait.trans h) rfl
            | _ => exact .nothing (hwait.trans h) he
  · rw [Attempt.bind_of_error herror]
    exact .nothing (.of_same rfl rfl) he

/-- A write changes nothing that can be seen here. -/
theorem send_cases (method : Text) (message : Members) (c : Connection σ) :
    ∃ c', Moves c c' c.inbox [] [] ∧
      (send method message c = (.ok (), c') ∨
        ∃ cause, send method message c = (.error (.failed (.unsent method cause)), c')) := by
  unfold send
  rcases hwrite : Peer.write (Frame.encode (.obj message)) c.peer with ⟨outcome, peer⟩
  simp only [Attempt.bind_apply, Attempt.get_apply, Attempt.set_apply, hwrite]
  cases outcome with
  | accepted =>
      refine ⟨_, ?_, Or.inl rfl⟩
      exact .of_silent rfl rfl rfl rfl
  | broken | failed e | closed =>
      refine ⟨_, ?_, Or.inr ⟨_, rfl⟩⟩
      exact .of_silent rfl rfl rfl rfl

/-! ## Operations -/

/-- What the user of a connection may do. -/
inductive Operation where
  | call (id : Json) (method : Text) (params : Json)
  | receive (id : Json)
  | next
  | notify (method : Text) (params : Json)

/-- How an operation ends: with a message, with nothing, or early. -/
inductive Outcome where
  | returned (message : Members)
  | nothing
  | stopped (stop : Stop RpcError)

/-- The id of the response that the operation waits for. -/
def Operation.awaits? : Operation → Option Json
  | call id _ _ | receive id => some id
  | next | notify _ _ => none

def Outcome.of {α : Type} (value : α → Outcome) : Except (Stop RpcError) α → Outcome
  | .ok a => value a
  | .error stop => stopped stop

/-- The operation returns no message and refuses none. -/
def Outcome.isIdle : Outcome → Bool
  | returned _ => false
  | nothing => true
  | stopped stop => !stop.refusesResponse

/-- Does the operation. -/
def perform (c : Connection σ) : Operation → Outcome × Connection σ
  | .call id method params =>
    (.of .returned (call id method params c).1, (call id method params c).2)
  | .receive id => (.of .returned (receive id c).1, (receive id c).2)
  | .next => (.of (fun message => message.elim .nothing .returned) (next c).1, (next c).2)
  | .notify method params =>
    (.of (fun _ => .nothing) (notify method params c).1, (notify method params c).2)

/-- The warning about a response to another request. -/
def unknownResponse (answered id : Json) : Text :=
  "Received response for unknown request ID: " ++ answered.worded ++ " (waiting for " ++
    id.worded ++ ")"

/-- The warning about a response that nobody waits for. -/
def lateResponse (answered : Json) : Text :=
  "Dropping late response for request ID: " ++ answered.worded

/-- All that an operation can do. -/
inductive Step (op : Operation) (c : Connection σ) : Outcome → Connection σ → Prop
  /-- No message is read or returned. -/
  | idle {outcome : Outcome} {c' : Connection σ} (hidle : outcome.isIdle = true)
      (h : Moves c c' c.inbox [] []) : Step op c outcome c'
  /-- A message that is not awaited is kept for later. -/
  | kept {id : Json} {m : Members} {c' : Connection σ} (hawaits : op.awaits? = some id)
      (hmethod : m.has "method" = true) (h : Moves c c' (c.inbox ++ [m]) [m] []) :
      Step op c (.stopped (.failed .noResponse)) c'
  /-- The awaited response is returned. -/
  | answered {id : Json} {m : Members} {c' : Connection σ} (hawaits : op.awaits? = some id)
      (hmethod : m.has "method" = false) (hid : (responseId m).same id = true)
      (h : Moves c c' c.inbox [m] []) : Step op c (.returned m) c'
  /-- Another response is refused. -/
  | refused {id : Json} {m : Members} {c' : Connection σ} (hawaits : op.awaits? = some id)
      (hmethod : m.has "method" = false) (hid : (responseId m).same id = false)
      (h : Moves c c' c.inbox [m] [unknownResponse (responseId m) id]) :
      Step op c (.stopped (.failed (.unsolicited (responseId m)))) c'
  /-- The first message of the inbox is returned. -/
  | taken {m : Members} {rest : List Members} {c' : Connection σ} (hnext : op = .next)
      (hinbox : c.inbox = m :: rest) (h : Moves c c' rest [] []) : Step op c (.returned m) c'
  /-- The inbox is empty, and the message that is read is returned. -/
  | passed {m : Members} {c' : Connection σ} (hnext : op = .next) (hinbox : c.inbox = [])
      (hmethod : m.has "method" = true) (h : Moves c c' [] [m] []) : Step op c (.returned m) c'
  /-- The inbox is empty, and the response that is read is dropped. -/
  | dropped {m : Members} {c' : Connection σ} (hnext : op = .next) (hinbox : c.inbox = [])
      (hmethod : m.has "method" = false) (h : Moves c c' [] [m] [lateResponse (responseId m)]) :
      Step op c .nothing c'

omit [Peer σ] in
/-- What moves nothing may come first. -/
theorem Step.of_moves {op : Operation} {c c₁ c' : Connection σ} {outcome : Outcome}
    (hfirst : Moves c c₁ c.inbox [] []) (h : Step op c₁ outcome c') : Step op c outcome c' := by
  have hinbox := hfirst.inbox_eq
  cases h with
  | idle hidle h => exact .idle hidle (hinbox ▸ hfirst.trans h)
  | kept hawaits hmethod h => exact .kept hawaits hmethod (hinbox ▸ hfirst.trans h)
  | answered hawaits hmethod hid h =>
      exact .answered hawaits hmethod hid (hinbox ▸ hfirst.trans h)
  | refused hawaits hmethod hid h => exact .refused hawaits hmethod hid (hinbox ▸ hfirst.trans h)
  | taken hnext hcons h => exact .taken hnext (hinbox ▸ hcons) (hfirst.trans h)
  | passed hnext hnil hmethod h => exact .passed hnext (hinbox ▸ hnil) hmethod (hfirst.trans h)
  | dropped hnext hnil hmethod h => exact .dropped hnext (hinbox ▸ hnil) hmethod (hfirst.trans h)

/-! ## Poll cycles for a response -/

/-- What becomes of the message that was read while a response is awaited. -/
theorem receive_of_message {c c₁ : Connection σ} {m : Members} (hread : readOne c = (.ok m, c₁))
    (id : Json) :
    receive id c =
      if m.has "method" then
        (.error (.failed .noResponse), { c₁ with inbox := c₁.inbox ++ [m] })
      else if (responseId m).same id then (.ok m, c₁)
      else
        (.error (.failed (.unsolicited (responseId m))),
          { c₁ with
            journal := c₁.journal ++ [.remark .warning (unknownResponse (responseId m) id)] }) := by
  unfold receive
  rw [Attempt.bind_of_ok hread]
  cases hmethod : m.has "method" with
  | true => simp [Attempt.bind_apply]
  | false =>
      cases hid : (responseId m).same id with
      | true => simp [hid]
      | false => simp [hid, Attempt.bind_apply, remark, note, unknownResponse]

theorem next_of_message {c c₁ : Connection σ} {m : Members} (hinbox : c.inbox = [])
    (hread : readOne c = (.ok m, c₁)) :
    next c =
      if m.has "method" then (.ok (some m), c₁)
      else
        (.ok none,
          { c₁ with journal := c₁.journal ++ [.remark .warning (lateResponse (responseId m))] }) := by
  unfold next
  simp only [Attempt.bind_apply, Attempt.get_apply, hinbox, Attempt.outcome_of_ok hread]
  cases hmethod : m.has "method" with
  | true => simp
  | false => simp [Attempt.bind_apply, remark, note, lateResponse]

theorem receive_step {op : Operation} {id : Json} (hawaits : op.awaits? = some id)
    (c : Connection σ) :
    Step op c (.of .returned (receive id c).1) (receive id c).2 := by
  have hpolled := readOne_polled c
  rcases hread : readOne c with ⟨result, c₁⟩
  rw [hread] at hpolled
  cases hpolled with
  | @nothing _ e h he =>
      have hreceive : receive id c = (.error e, c₁) := Attempt.bind_of_error hread _
      rw [hreceive]
      exact .idle (by simp [Outcome.of, Outcome.isIdle, he]) h
  | @message _ m h =>
      rw [receive_of_message hread]
      cases hmethod : m.has "method" with
      | true =>
          rw [if_pos rfl]
          exact .kept hawaits hmethod ⟨by rw [h.inbox_eq], h.received_eq, h.warnings_eq⟩
      | false =>
          rw [if_neg Bool.false_ne_true]
          cases hid : (responseId m).same id with
          | true =>
              rw [if_pos rfl]
              exact .answered hawaits hmethod hid h
          | false =>
              rw [if_neg Bool.false_ne_true]
              exact .refused hawaits hmethod hid (h.trans (.of_warning h.inbox_eq rfl))

theorem next_step (c : Connection σ) :
    Step .next c (c.perform .next).1 (c.perform .next).2 := by
  simp only [perform]
  cases hinbox : c.inbox with
  | cons m rest =>
      have hnext : next c = (.ok (some m), { c with inbox := rest }) := by
        unfold next
        simp only [Attempt.bind_apply, Attempt.get_apply, hinbox]
        rfl
      rw [hnext]
      exact .taken rfl hinbox ⟨rfl, by simp [received], by simp [warnings]⟩
  | nil =>
      have hpolled := readOne_polled c
      rcases hread : readOne c with ⟨result, c₁⟩
      rw [hread] at hpolled
      cases hpolled with
      | @nothing _ e h he =>
          unfold next
          simp only [Attempt.bind_apply, Attempt.get_apply, hinbox]
          cases e with
          | faulted f =>
              rw [Attempt.outcome_of_faulted hread]
              exact .idle rfl h
          | failed e =>
              rw [Attempt.outcome_of_failed hread]
              -- a poll cycle itself refuses no response
              cases e with
              | unsolicited answered => cases he
              | _ => exact .idle rfl h
      | @message _ m h =>
          rw [hinbox] at h
          rw [next_of_message hinbox hread]
          cases hmethod : m.has "method" with
          | true =>
              rw [if_pos rfl]
              exact .passed rfl hinbox hmethod h
          | false =>
              rw [if_neg Bool.false_ne_true]
              exact .dropped rfl hinbox hmethod (h.trans (.of_warning h.inbox_eq rfl))

/-- Once the request has gone out, its response is waited for. -/
theorem call_of_sent {id : Json} {method : Text} {params : Json} {c c₁ : Connection σ}
    (hsend : request id method params c = (.ok (), c₁)) :
    call id method params c = receive id c₁ :=
  Attempt.bind_of_ok hsend _

theorem call_of_unsent {id : Json} {method : Text} {params : Json} {c c₁ : Connection σ}
    {stop : Stop RpcError} (hsend : request id method params c = (.error stop, c₁)) :
    call id method params c = (.error stop, c₁) :=
  Attempt.bind_of_error hsend _

/-- **Whatever the peer does, an operation does one of the steps.** -/
theorem perform_step (c : Connection σ) (op : Operation) :
    Step op c (c.perform op).1 (c.perform op).2 := by
  cases op with
  | next => exact next_step c
  | receive id => exact receive_step rfl c
  | call id method params =>
      obtain ⟨c₁, hsent, hok | ⟨cause, herror⟩⟩ :=
        send_cases method (outgoing (some id) method params) c
      · simp only [perform, call_of_sent hok]
        exact (receive_step rfl c₁).of_moves hsent
      · simp only [perform, call_of_unsent herror]
        exact .idle rfl hsent
  | notify method params =>
      simp only [perform, notify]
      obtain ⟨c₁, hsent, hok | ⟨cause, herror⟩⟩ :=
        send_cases method (outgoing none method params) c
      · rw [hok]
        exact .idle rfl hsent
      · rw [herror]
        exact .idle rfl hsent

end Connection

end LanguageClient
