import LanguageClient.Client.Basic
import LanguageClient.Proofs.Rpc.Waiting

/-!
# The calls of a client

A client is used by calls.  What a call has to say to the server is known before it is made
(`says?`): a method and parameters once the call is past its guards, and nothing otherwise.  `Did`
lists all that a call can do, and `perform_did` is the only place where the operations of a client
are opened.

```text
nothing to say            the call is refused and nothing changes
a notification            one attempt to write it
a request                 one attempt to write it, under the next id, and a wait for its response
asking for an event       the next message, and what it is
closing, taking an id     no traffic
```
-/

namespace LanguageClient.Client

open LanguageClient.Connection

/-- What the user of a client may do. -/
inductive Call where
  | handshake (params : Payload)
  | confirm
  | shutdown
  | close
  | changeConfiguration (settings : Payload)
  | openDocument (path : Text) (language text : Payload)
  | changeDocument (version : Payload) (path : Text) (text : Payload)
  | closeDocument (path : Text)
  | hover (path : Text) (place : BufferPosition)
  | poll
  | takeId

/-- What a call gives that does not stop early. -/
inductive Answer where
  | done
  | hover (found : Option Hover)
  | event (event : Option ServerEvent)
  | id (id : Nat)

namespace Call

/-- The call asks the server something. -/
def isRequest : Call → Bool
  | handshake _ | shutdown | hover .. => true
  | _ => false

/-- The document that the call is about. -/
def path? : Call → Option Text
  | openDocument path _ _ | changeDocument _ path _ | closeDocument path | hover path _ => some path
  | _ => none

/-- How the call fails that asked and got no usable answer. -/
def failure (cause : Cause) : Call → ClientError
  | handshake _ => .handshake cause
  | shutdown => .shutdown cause
  | _ => .hover cause

end Call

variable {σ : Type}

/-! ## Making a call -/

/-- The outcome of an operation as that of a call. -/
def outcomeOf {α : Type} (answer : α → Answer)
    (outcome : Except (Stop ClientError) α × Client σ) :
    Except (Stop ClientError) Answer × Client σ :=
  (outcome.1.map answer, outcome.2)

/-- Makes a call. -/
def perform [Peer σ] (c : Client σ) : Call → Except (Stop ClientError) Answer × Client σ
  | .handshake params => outcomeOf (fun _ => .done) (handshake params c)
  | .confirm => outcomeOf (fun _ => .done) (confirm c)
  | .shutdown => outcomeOf (fun _ => .done) (shutdown c)
  | .close => (.ok .done, c.close)
  | .changeConfiguration settings => outcomeOf (fun _ => .done) (changeConfiguration settings c)
  | .openDocument path language text =>
    outcomeOf (fun _ => .done) (openDocument path language text c)
  | .changeDocument version path text =>
    outcomeOf (fun _ => .done) (changeDocument version path text c)
  | .closeDocument path => outcomeOf (fun _ => .done) (closeDocument path c)
  | .hover path place => outcomeOf .hover (hover path place c)
  | .poll => outcomeOf .event (poll c)
  | .takeId => outcomeOf .id (takeId c)

/-! ## What a call has to say -/

/-- The URI by which the server knows a document, if its path has one. -/
def uri? (c : Client σ) (path : Text) : Option Payload :=
  (Uri.ofPath (Path.absolute c.workingDirectory path)).toOption.map .text

/-- The session is open and the server runs. -/
def isOpen [Peer σ] (c : Client σ) : Prop := c.isRunning = true ∧ c.phase = .initialized

instance [Peer σ] (c : Client σ) : Decidable c.isOpen := inferInstanceAs (Decidable (_ ∧ _))

/-- What is said of a document. -/
def aboutDocument (c : Client σ) : Call → Option Payload
  | .openDocument path language text => (c.uri? path).map fun uri =>
    Layout.openParams.build [("text_document", Layout.documentItem.build
      [("uri", uri), ("language_id", language), ("version", .int 1), ("text", text)])]
  | .changeDocument version path text => (c.uri? path).map fun uri =>
    Layout.changeParams.build
      [("text_document", Layout.versionedIdentifier.build [("uri", uri), ("version", version)]),
        ("content_changes", .list [Layout.contentChange.build [("text", text)]])]
  | .closeDocument path => (c.uri? path).map fun uri =>
    Layout.closeParams.build
      [("text_document", Layout.documentIdentifier.build [("uri", uri)])]
  | .hover path place => (c.uri? path).map fun uri =>
    Layout.hoverParams.build
      [("text_document", Layout.documentIdentifier.build [("uri", uri)]),
        ("position", Layout.position.build
          [("line", .ofJson place.toPosition.line),
            ("character", .ofJson place.toPosition.character)])]
  | _ => none

/-- What a call has to say to the server once it is past its guards. -/
def says? [Peer σ] (c : Client σ) (call : Call) : Option (Method × Json) :=
  match call with
  | .handshake params =>
    if c.phase = .uninitialized ∨ c.phase = .initializing then some (.handshake, params.encode)
    else none
  | .confirm =>
    if c.isRunning = true ∧ c.phase = .initializing then
      some (.initialized, (Layout.initializedParams.build []).encode)
    else none
  | .shutdown => if c.isOpen then some (.shutdown, .null) else none
  | .changeConfiguration settings =>
    if c.isOpen then
      some (.didChangeConfiguration,
        (Layout.configurationParams.build [("settings", settings)]).encode)
    else none
  | .openDocument .. =>
    if c.isOpen then (c.aboutDocument call).map fun p => (.didOpen, p.encode) else none
  | .changeDocument .. =>
    if c.isOpen then (c.aboutDocument call).map fun p => (.didChange, p.encode) else none
  | .closeDocument .. =>
    if c.isOpen then (c.aboutDocument call).map fun p => (.didClose, p.encode) else none
  | .hover .. =>
    if c.isOpen ∧ c.offersHover = true then (c.aboutDocument call).map fun p => (.hover, p.encode)
    else none
  | .close | .poll | .takeId => none

/-! ## What a response comes to -/

/-- The result of the first request, as far as the response carries it. -/
def handshakeResult (m : Members) : Except Cause InitializeResult :=
  match accepted (.ok m) with
  | .error cause => .error cause
  | .ok m => (InitializeResult.decode ((m.get? "result").getD .null)).mapError .badResult

/-- The answer that a response gives to the call. -/
def Call.verdict (m : Members) : Call → Except Cause Answer
  | .handshake _ => (handshakeResult m).map fun _ => .done
  | .shutdown =>
    match accepted (.ok m) with
    | .error cause => .error cause
    | .ok m => ((Message.shutdownAnswer m).mapError .badAnswer).map fun _ => .done
  | _ =>
    match accepted (.ok m) with
    | .error cause => .error cause
    | .ok m => ((Message.hoverAnswer m).mapError .badAnswer).map .hover

/-- How a call ends that has asked; the exchange gave the response, or it failed. -/
def Call.conclusion (call : Call) : ReadResult → Except (Stop ClientError) Answer
  | .ok m => (call.verdict m).mapError fun cause => .failed (call.failure cause)
  | .error (.failed e) => .error (.failed (call.failure (.exchange e)))
  | .error (.faulted f) => .error (.faulted f)

/-- The server says that it answers hover requests. -/
def offers (r : InitializeResult) : Bool :=
  match r.capabilities.hoverProvider with
  | some (.bool true) => true
  | _ => false

/-- The client that has asked: an id is taken, and a session that asks for the first time begins. -/
def asked (c : Client σ) : Call → Client σ
  | .handshake _ => { c with phase := .initializing, nextId := c.nextId + 1 }
  | _ => { c with nextId := c.nextId + 1 }

/-- The client that has its answer. -/
def learned (c : Client σ) (m : Members) : Call → Client σ
  | .handshake _ =>
    match handshakeResult m with
    | .ok r => { c with offersHover := offers r, serverInfo := r.serverInfo }
    | .error _ => c
  | .shutdown =>
    match Call.shutdown.verdict m with
    | .ok _ => { c with phase := .shuttingDown }
    | .error _ => c
  | _ => c

/-- The client at the end of a call that has asked. -/
def concluded (c : Client σ) (call : Call) : ReadResult → Client σ
  | .ok m => c.learned m call
  | .error _ => c

/-- The client that has told the server something. -/
def told (c : Client σ) : Call → Client σ
  | .confirm => { c with isInitialized := true, phase := .initialized }
  | _ => c

/-! ## All that a call can do -/

variable [Peer σ]

/-- What asking for an event gives, by what came in and by whether the server still runs. -/
def polledResult (c : Client σ) :
    Except (Stop RpcError) (Option Members) → Except (Stop ClientError) Answer
  | .ok (some m) => (interpret m c).1.map fun e => .event (some e)
  | .ok none => if c.isRunning then .ok (.event none) else .error (.failed .crashed)
  | .error (.failed e) =>
    if c.isRunning then .error (.failed (.exchange e)) else .error (.failed .crashed)
  | .error (.faulted f) => .error (.faulted f)

/-- All that a call can do. -/
inductive Did (c : Client (Watched σ)) (call : Call) :
    Except (Stop ClientError) Answer → Client (Watched σ) → Prop
  /-- It is refused on the spot. -/
  | refused {e : ClientError} (hspeaks : c.says? call = none)
      (hpoll : call = .poll → c.phase = .closed) (hclose : call ≠ .close) (hid : call ≠ .takeId) :
      Did c call (.error (.failed e)) c
  /-- The path of the document cannot be written as a URI. -/
  | unnamed {path : Text} {e : Utf8.EncodeError} (hspeaks : c.says? call = none)
      (hpath : call.path? = some path) (huri : c.uri? path = none) :
      Did c call (.error (.faulted (.notEncodable e))) c
  /-- The server is told something. -/
  | told {method : Method} {params : Json} {d : Connection (Watched σ)} {outcome : WriteOutcome}
      (hspeaks : c.says? call = some (method, params)) (hkind : call.isRequest = false)
      (houtcome : outcome.isAccepted = true)
      (hcarries : Carries c.connection d (.write (outgoing none method.wireName params) outcome))
      (hinbox : d.inbox = c.connection.inbox) :
      Did c call (.ok .done) { c.told call with connection := d }
  /-- What there was to tell did not go out. -/
  | untold {method : Method} {params : Json} {d : Connection (Watched σ)} {outcome : WriteOutcome}
      {e : ClientError} (hspeaks : c.says? call = some (method, params))
      (hkind : call.isRequest = false) (houtcome : outcome.isAccepted = false)
      (hcarries : Carries c.connection d (.write (outgoing none method.wireName params) outcome))
      (hinbox : d.inbox = c.connection.inbox) :
      Did c call (.error (.failed e)) { c with connection := d }
  /-- The server is asked something, under the next id. -/
  | asked {method : Method} {params : Json} {result : ReadResult} {d : Connection (Watched σ)}
      {outcome : WriteOutcome} {t : Traffic} (hspeaks : c.says? call = some (method, params))
      (hkind : call.isRequest = true)
      (hcalled :
        Called (.int c.nextId) method.wireName params c.connection result d outcome t) :
      Did c call (call.conclusion result)
        { (c.asked call).concluded call result with connection := d }
  /-- The next message is asked for. -/
  | polled {next : Except (Stop RpcError) (Option Members)} {d : Connection (Watched σ)}
      {t : Traffic} (hcall : call = .poll) (hopen : c.phase ≠ .closed)
      (hpassed : Passed c.connection next d t) :
      Did c call (polledResult { c with connection := d } next) { c with connection := d }
  | closed (hcall : call = .close) : Did c call (.ok .done) c.close
  | numbered (hcall : call = .takeId) :
      Did c call (.ok (.id c.nextId)) { c with nextId := c.nextId + 1 }

/-! ## What all calls have in common -/

omit [Peer σ] in
theorem asked_nextId (c : Client σ) (call : Call) : (c.asked call).nextId = c.nextId + 1 := by
  cases call <;> rfl

theorem shutdown_verdict {m : Members} {answer : Answer}
    (h : Call.shutdown.verdict m = .ok answer) : answer = .done := by
  rw [Call.verdict] at h
  rcases haccepted : accepted (.ok m) with cause | m'
  · rw [haccepted] at h
    cases h
  · rw [haccepted] at h
    dsimp only at h
    cases hanswer : Message.shutdownAnswer m' with
    | error e => rw [hanswer] at h; cases h
    | ok done => rw [hanswer] at h; cases h; rfl

omit [Peer σ] in
/-- A response is learned from in two cases. -/
theorem concluded_cases (c : Client σ) (call : Call) (response : ReadResult) :
    c.concluded call response = c ∨
      (∃ params m r, call = .handshake params ∧ response = .ok m ∧ handshakeResult m = .ok r ∧
        c.concluded call response = { c with offersHover := offers r, serverInfo := r.serverInfo }) ∨
      call = .shutdown ∧ call.conclusion response = .ok .done ∧
        c.concluded call response = { c with phase := .shuttingDown } := by
  cases response with
  | error stop => exact Or.inl rfl
  | ok m =>
      cases call with
      | handshake params =>
          cases hresult : handshakeResult m with
          | error cause => exact Or.inl (by rw [concluded, learned, hresult])
          | ok r =>
              exact Or.inr (Or.inl ⟨params, m, r, rfl, rfl, hresult, by
                rw [concluded, learned, hresult]⟩)
      | shutdown =>
          cases hverdict : Call.shutdown.verdict m with
          | error cause => exact Or.inl (by rw [concluded, learned, hverdict])
          | ok answer =>
              refine Or.inr (Or.inr ⟨rfl, ?_, by rw [concluded, learned, hverdict]⟩)
              rw [Call.conclusion, hverdict, shutdown_verdict hverdict]
              rfl
      | _ => exact Or.inl rfl

omit [Peer σ] in
theorem concluded_nextId (c : Client σ) (call : Call) (response : ReadResult) :
    (c.concluded call response).nextId = c.nextId := by
  rcases c.concluded_cases call response with h | ⟨_, _, _, _, _, _, h⟩ | ⟨_, _, h⟩ <;> rw [h]

theorem close_eq (c : Client σ) :
    c.close.connection = c.connection ∨
      c.close.connection = { c.connection with peer := Peer.terminate c.connection.peer } := by
  unfold close
  by_cases hphase : c.phase = .closed
  · exact Or.inl (by rw [if_pos hphase])
  · exact Or.inr (by rw [if_neg hphase])

/-- The message by which a call says something. -/
def message (c : Client σ) (call : Call) (method : Method) (params : Json) : Members :=
  outgoing (if call.isRequest then some (.int c.nextId) else none) method.wireName params

section

variable {c c' : Client (Watched σ)} {call : Call} {result : Except (Stop ClientError) Answer}

omit [Peer σ] in
theorem sent_of_told {method : Method} {params : Json} {d : Connection (Watched σ)}
    {outcome : WriteOutcome} (hkind : call.isRequest = false)
    (hcarries : Carries c.connection d (.write (outgoing none method.wireName params) outcome)) :
    d.sent = c.connection.sent ++
      if outcome.isAccepted then [c.message call method params] else [] := by
  rw [hcarries.sent_eq, Traffic.sent_write, message, hkind]
  rfl

omit [Peer σ] in
/-- Nothing goes out while a response is waited for. -/
theorem sent_of_asked {method : Method} {params : Json} {response : ReadResult}
    {d : Connection (Watched σ)} {outcome : WriteOutcome} {t : Traffic}
    (hkind : call.isRequest = true)
    (hcalled : Called (.int c.nextId) method.wireName params c.connection response d outcome t) :
    d.sent = c.connection.sent ++
      if outcome.isAccepted then [c.message call method params] else [] := by
  rw [hcalled.carries.sent_eq, Traffic.sent_append, hcalled.sent_eq, Traffic.sent_write,
    List.append_nil, message, hkind]
  rfl

theorem close_sent (c : Client (Watched σ)) : c.close.connection.sent = c.connection.sent := by
  rcases c.close_eq with h | h
  · rw [h]
  · rw [h]
    rfl

/-- **All traffic is accounted for.**  A call writes first, if at all, and only listens then. -/
theorem Did.inTurn (h : Did c call result c') :
    ∃ t, InTurn c.connection c'.connection t := by
  cases h with
  | refused | unnamed | numbered => exact ⟨.none, .of_none (.refl c.connection)⟩
  | told _ _ _ hcarries | untold _ _ _ hcarries => exact ⟨_, .of_attempt hcarries⟩
  | asked _ _ hcalled => exact ⟨_, hcalled.inTurn⟩
  | polled _ _ hpassed => exact ⟨_, .of_listening hpassed.carries hpassed.listening⟩
  | closed =>
      rcases c.close_eq with h | h
      · rw [h]
        exact ⟨.none, .of_none (.refl c.connection)⟩
      · rw [h]
        exact ⟨⟨[.terminated], [], []⟩, .of_writing (.terminated c.connection)
          (fun _ hmem => List.mem_singleton.mp hmem ▸ rfl) rfl⟩

/-- A call with nothing to say writes nothing, and only asking for an event reads. -/
theorem Did.contacts_of_silent (h : Did c call result c') (hspeaks : c.says? call = none) :
    c'.connection.peer.contacts = c.connection.peer.contacts ∨
      (call = .close ∧
        c'.connection.peer.contacts = c.connection.peer.contacts ++ [.terminated]) ∨
      call = .poll ∧ c.phase ≠ .closed ∧ ∃ contacts,
        c'.connection.peer.contacts = c.connection.peer.contacts ++ contacts ∧
          ∀ contact ∈ contacts, contact.isListening = true := by
  cases h with
  | refused | unnamed | numbered => exact Or.inl rfl
  | told hsome | untold hsome | asked hsome => rw [hspeaks] at hsome; cases hsome
  | polled hcall hopen hpassed =>
      exact Or.inr (Or.inr ⟨hcall, hopen, _, hpassed.carries.contacts_eq, hpassed.listening⟩)
  | closed hcall =>
      rcases c.close_eq with h | h
      · exact Or.inl (by rw [h])
      · exact Or.inr (Or.inl ⟨hcall, by rw [h]; rfl⟩)

/-- What goes out is what the call has to say. -/
theorem Did.sent_eq (h : Did c call result c') :
    c'.connection.sent = c.connection.sent ∨
      ∃ method params, c.says? call = some (method, params) ∧
        c'.connection.sent = c.connection.sent ++ [c.message call method params] := by
  cases h with
  | refused | unnamed | numbered => exact Or.inl rfl
  | told hspeaks hkind houtcome hcarries =>
      have hsent := sent_of_told hkind hcarries
      rw [houtcome] at hsent
      exact Or.inr ⟨_, _, hspeaks, hsent⟩
  | untold _ hkind houtcome hcarries =>
      have hsent := sent_of_told hkind hcarries
      rw [houtcome] at hsent
      exact Or.inl (hsent.trans (List.append_nil _))
  | @asked _ _ _ _ outcome _ hspeaks hkind hcalled =>
      have hsent := sent_of_asked hkind hcalled
      cases houtcome : outcome.isAccepted with
      | true =>
          rw [houtcome] at hsent
          exact Or.inr ⟨_, _, hspeaks, hsent⟩
      | false =>
          rw [houtcome] at hsent
          exact Or.inl (hsent.trans (List.append_nil _))
  | polled hcall hopen hpassed => exact Or.inl hpassed.sent_eq
  | closed => exact Or.inl c.close_sent

/-- **A call that is past its guards asks once, and ends by what the exchange gives.** -/
theorem Did.asked_inv (h : Did c call result c') {method : Method} {params : Json}
    (hkind : call.isRequest = true) (hspeaks : c.says? call = some (method, params)) :
    ∃ response d outcome t,
      Called (.int c.nextId) method.wireName params c.connection response d outcome t ∧
        result = call.conclusion response ∧
          c' = { (c.asked call).concluded call response with connection := d } := by
  cases h with
  | refused hnone | unnamed hnone => rw [hspeaks] at hnone; cases hnone
  | told _ hnot | untold _ hnot => rw [hkind] at hnot; cases hnot
  | asked hspeaks' _ hcalled =>
      -- what is asked is what there is to say
      obtain ⟨rfl, rfl⟩ := Prod.mk.inj (Option.some.inj (hspeaks.symm.trans hspeaks'))
      exact ⟨_, _, _, _, hcalled, rfl, rfl⟩
  | polled hcall | closed hcall | numbered hcall => rw [hcall] at hkind; cases hkind

/-- A request that is not past its guards changes nothing; it ends by a fault only if its document
cannot be named. -/
theorem Did.refused_inv (h : Did c call result c') (hkind : call.isRequest = true)
    (hspeaks : c.says? call = none) :
    c' = c ∧ ∃ stop, result = .error stop ∧
      ((∃ e, stop = .failed e) ∨ ∃ path, call.path? = some path ∧ c.uri? path = none) := by
  cases h with
  | refused => exact ⟨rfl, _, rfl, Or.inl ⟨_, rfl⟩⟩
  | unnamed _ hpath huri => exact ⟨rfl, _, rfl, Or.inr ⟨_, hpath, huri⟩⟩
  | told hsome | untold hsome | asked hsome => rw [hspeaks] at hsome; cases hsome
  | polled hcall | closed hcall | numbered hcall => rw [hcall] at hkind; cases hkind

/-- **Asking for an event passes on the next message, unless the session is closed.** -/
theorem Did.polled_inv (h : Did c call result c') (hcall : call = .poll) :
    (c.phase = .closed ∧ (∃ e, result = .error (.failed e)) ∧ c' = c) ∨
      ∃ next d t, c.phase ≠ .closed ∧ Passed c.connection next d t ∧
        result = polledResult { c with connection := d } next ∧ c' = { c with connection := d } := by
  cases h with
  | refused _ hpoll => exact Or.inl ⟨hpoll hcall, ⟨_, rfl⟩, rfl⟩
  | unnamed _ hpath => rw [hcall] at hpath; cases hpath
  | told hspeaks | untold hspeaks => rw [hcall] at hspeaks; cases hspeaks
  | asked _ hkind => rw [hcall] at hkind; cases hkind
  | polled _ hopen hpassed => exact Or.inr ⟨_, _, _, hopen, hpassed, rfl, rfl⟩
  | closed hclose => rw [hcall] at hclose; cases hclose
  | numbered hid => rw [hcall] at hid; cases hid

/-- Closing does nothing but close. -/
theorem Did.closed_inv (h : Did c call result c') (hcall : call = .close) :
    result = .ok .done ∧ c' = c.close := by
  cases h with
  | refused _ _ hnot => exact absurd hcall hnot
  | unnamed _ hpath => rw [hcall] at hpath; cases hpath
  | told hspeaks | untold hspeaks | asked hspeaks => rw [hcall] at hspeaks; cases hspeaks
  | polled hpoll | numbered hpoll => rw [hcall] at hpoll; cases hpoll
  | closed => exact ⟨rfl, rfl⟩

/-- Only the answer to a first request says whether there are hovers. -/
theorem Did.offersHover_eq (h : Did c call result c') (hcall : ∀ params, call ≠ .handshake params) :
    c'.offersHover = c.offersHover := by
  cases h with
  | refused | unnamed | untold | polled | numbered => rfl
  | told => cases call <;> rfl
  | @asked method params response d =>
      have hasked : (c.asked call).offersHover = c.offersHover := by cases call <;> rfl
      show ((c.asked call).concluded call response).offersHover = _
      rcases (c.asked call).concluded_cases call response with
        h | ⟨params, _, _, hfirst, _⟩ | ⟨_, _, h⟩
      · rw [h, hasked]
      · exact absurd hfirst (hcall params)
      · rw [h, ← hasked]
  | closed =>
      unfold close
      split <;> rfl

theorem Did.nextId_le (h : Did c call result c') : c.nextId ≤ c'.nextId := by
  cases h with
  | refused | unnamed | untold | polled => exact Nat.le_refl _
  | told => cases call <;> exact Nat.le_refl _
  | @asked method params response d =>
      show c.nextId ≤ ((c.asked call).concluded call response).nextId
      rw [concluded_nextId, asked_nextId]
      exact Nat.le_succ _
  | closed =>
      unfold close
      split <;> exact Nat.le_refl _
  | numbered => exact Nat.le_succ _

theorem Did.nextId_eq (h : Did c call result c') (hkind : call.isRequest = true)
    (hspeaks : (c.says? call).isSome = true) : c'.nextId = c.nextId + 1 := by
  obtain ⟨⟨method, params⟩, hspeaks⟩ := Option.isSome_iff_exists.mp hspeaks
  obtain ⟨response, d, outcome, t, -, -, rfl⟩ := h.asked_inv hkind hspeaks
  show ((c.asked call).concluded call response).nextId = _
  rw [concluded_nextId, asked_nextId]

end

end LanguageClient.Client
