import LanguageClient.Proofs.Client.Calls

/-!
# The operations of a client as calls

Main statement: `perform_did`.  Whatever the server does, a call of a client is one of the few things
that `Did` lists.

## Strategy

An operation is a sequence of guards, at most one exchange, and what is made of its outcome.  The
guards are compared with `says?`; the exchange is known from `Called` and `Passed`, which a remark in
the journal does not disturb (`Remarked`).
-/

namespace LanguageClient.Client

open LanguageClient.Connection

variable {σ : Type} [Peer σ]

/-! ## Parts of calls -/

/-- The outcome of an attempt, with its failure as a value. -/
def settled {ε ε' α : Type} : Except (Stop ε) α → Except (Stop ε') (Except ε α)
  | .ok a => .ok (.ok a)
  | .error (.failed e) => .ok (.error e)
  | .error (.faulted f) => .error (.faulted f)

omit [Peer σ] in
theorem exchange_apply {α : Type} (action : Exchange σ α) (c : Client σ) :
    exchange action c =
      (settled (action c.connection).1, { c with connection := (action c.connection).2 }) := by
  unfold exchange Attempt.onPart Attempt.outcome
  rcases action c.connection with ⟨(e | f) | a, d⟩ <;> rfl

theorem checkReady_of_open {c : Client σ} (h : c.isOpen) (method : Text) :
    checkReady method c = (.ok (), c) := by
  unfold checkReady
  simp [Attempt.bind_apply, h.1, h.2]

theorem checkReady_of_not_open {c : Client σ} (h : ¬c.isOpen) (method : Text) :
    ∃ e, checkReady method c = (.error (.failed e), c) := by
  unfold checkReady
  by_cases hrunning : c.isRunning = true
  · have hphase : c.phase ≠ .initialized := fun hphase => h ⟨hrunning, hphase⟩
    exact ⟨_, by simp [Attempt.bind_apply, hrunning, hphase]; rfl⟩
  · exact ⟨_, by simp [Attempt.bind_apply, hrunning]; rfl⟩

omit [Peer σ] in
theorem documentUri_of_some {c : Client σ} {path : Text} {uri : Payload}
    (h : c.uri? path = some uri) : documentUri path c = (.ok uri, c) := by
  unfold documentUri
  rw [uri?] at h
  simp only [Attempt.bind_apply, Attempt.get_apply]
  cases hpath : Uri.ofPath (Path.absolute c.workingDirectory path) with
  | error e => rw [hpath] at h; cases h
  | ok text => rw [hpath] at h; cases h; rfl

omit [Peer σ] in
theorem documentUri_of_none {c : Client σ} {path : Text} (h : c.uri? path = none) :
    ∃ e, documentUri path c = (.error (.faulted (.notEncodable e)), c) := by
  unfold documentUri
  rw [uri?] at h
  simp only [Attempt.bind_apply, Attempt.get_apply]
  cases hpath : Uri.ofPath (Path.absolute c.workingDirectory path) with
  | error e => exact ⟨e, rfl⟩
  | ok text => rw [hpath] at h; cases h

/-- A notification is one attempt to write it. -/
theorem exchange_notify (method : Text) (params : Json) (c : Client (Watched σ)) :
    ∃ outcome d, Carries c.connection d (.write (outgoing none method params) outcome) ∧
      d.inbox = c.connection.inbox ∧
      (outcome.isAccepted = true ∧
          exchange (Connection.notify method params) c =
            (.ok (.ok ()), { c with connection := d }) ∨
        outcome.isAccepted = false ∧ ∃ e,
          exchange (Connection.notify method params) c =
            (.ok (.error e), { c with connection := d })) := by
  obtain ⟨outcome, d, hcarries, hinbox, hsend⟩ :=
    send_carries method (outgoing none method params) c.connection
  refine ⟨outcome, d, hcarries, hinbox, ?_⟩
  rw [exchange_apply, Connection.notify]
  rcases hsend with ⟨houtcome, hsend⟩ | ⟨houtcome, cause, hsend⟩
  · exact Or.inl ⟨houtcome, by rw [hsend]; rfl⟩
  · exact Or.inr ⟨houtcome, _, by rw [hsend]; rfl⟩

/-- Nothing is done to the connection but, possibly, a remark in its journal. -/
inductive Remarked (d : Connection σ) : Connection σ → Prop
  | not : Remarked d d
  | once (level : Level) (text : Text) :
      Remarked d { d with journal := d.journal ++ [.remark level text] }

/-- The remark on a request that failed. -/
def requestRemark (method : Method) (id : Nat) (e : RpcError) : Text :=
  method.wireName ++ " request (id=" ++ Text.ofNat id ++ ") failed: " ++ e.message

/-- A request takes an id, and makes its exchange; a failure of the exchange is remarked on. -/
theorem request_remarked (method : Method) (params : Json) (c : Client σ) :
    let called := callRepeatedly c.cycles (.int c.nextId) method.wireName params c.connection
    ∃ d, Remarked called.2 d ∧ request method params c =
      (settled called.1, { c with nextId := c.nextId + 1, connection := d }) := by
  have htake : takeId c = (.ok c.nextId, { c with nextId := c.nextId + 1 }) := rfl
  unfold request
  rw [Attempt.bind_of_ok htake, Attempt.bind_of_ok (Attempt.get_apply _)]
  rcases hcall : callRepeatedly c.cycles (.int c.nextId) method.wireName params c.connection with
    ⟨(e | f) | m, d⟩
  · refine ⟨_, .once .error (requestRemark method c.nextId e), ?_⟩
    simp only [Attempt.bind_apply, exchange_apply, hcall, settled]
    rfl
  · refine ⟨_, .not, ?_⟩
    simp only [Attempt.bind_apply, exchange_apply, hcall, settled]
  · refine ⟨_, .not, ?_⟩
    simp only [Attempt.bind_apply, exchange_apply, hcall, settled]
    rfl

theorem request_apply (method : Method) (params : Json) (c : Client (Watched σ)) :
    ∃ result d outcome t,
      Called (.int c.nextId) method.wireName params c.connection result d outcome t ∧
        request method params c =
          (settled result, { c with nextId := c.nextId + 1, connection := d }) := by
  obtain ⟨outcome, t, hcalled⟩ :=
    callRepeatedly_called c.cycles (.int c.nextId) method.wireName params c.connection
  obtain ⟨d, hremarked, hrequest⟩ := request_remarked method params c
  refine ⟨_, d, outcome, t, ?_, hrequest⟩
  cases hremarked with
  | not => exact hcalled
  | once level text => exact hcalled.remarked level text

omit [Peer σ] in
/-- What is learned does not depend on the connection. -/
theorem learned_of_connection (c : Client σ) (d d' : Connection σ) (m : Members) (call : Call) :
    { ({ c with connection := d }).learned m call with connection := d' } =
      { c.learned m call with connection := d' } := by
  cases call with
  | handshake params =>
      simp only [learned]
      cases handshakeResult m <;> rfl
  | shutdown =>
      simp only [learned]
      cases Call.shutdown.verdict m <;> rfl
  | _ => rfl

/-! ## One lemma for each kind of call -/

/-- A call that only tells something. -/
theorem did_of_notify {c : Client (Watched σ)} {call : Call} {method : Method} {params : Payload}
    (hspeaks : c.says? call = if c.isOpen then some (method, params.encode) else none)
    (hkind : call.isRequest = false) (htold : ∀ c : Client (Watched σ), c.told call = c)
    (hpoll : call ≠ .poll) (hclose : call ≠ .close) (hid : call ≠ .takeId) :
    Did c call (outcomeOf (fun _ => .done) (notify method params c)).1
      (outcomeOf (fun _ => Answer.done) (notify method params c)).2 := by
  unfold notify
  by_cases hopen : c.isOpen
  · rw [if_pos hopen] at hspeaks
    rw [Attempt.bind_of_ok (checkReady_of_open hopen _)]
    obtain ⟨outcome, d, hcarries, hinbox, ⟨houtcome, hsend⟩ | ⟨houtcome, e, hsend⟩⟩ :=
      exchange_notify method.wireName params.encode c
    · rw [Attempt.bind_of_ok hsend]
      have hdid := Did.told hspeaks hkind houtcome hcarries hinbox
      rw [htold] at hdid
      exact hdid
    · rw [Attempt.bind_of_ok hsend]
      exact .untold hspeaks hkind houtcome hcarries hinbox
  · rw [if_neg hopen] at hspeaks
    obtain ⟨e, hcheck⟩ := checkReady_of_not_open hopen method.wireName
    rw [Attempt.bind_of_error hcheck]
    exact .refused hspeaks (fun h => absurd h hpoll) hclose hid

/-- A call that asks something, and makes what it can of the response. -/
theorem did_of_request {c : Client (Watched σ)} {call : Call} {method : Method} {params : Json}
    (c₀ : Client (Watched σ)) (hspeaks : c.says? call = some (method, params))
    (hkind : call.isRequest = true)
    (hconnection : c₀.connection = c.connection) (hid : c₀.nextId = c.nextId)
    (hasked : ∀ d : Connection (Watched σ), { c₀ with nextId := c₀.nextId + 1, connection := d } =
      { c.asked call with connection := d })
    {α : Type} {answer : α → Answer}
    {react : Except RpcError Members → Operation (Watched σ) α}
    (herror : ∀ e (c : Client (Watched σ)),
      react (.error e) c = (.error (.failed (call.failure (.exchange e))), c))
    (hok : ∀ m (c : Client (Watched σ)), ∃ d, Remarked c.connection d ∧
      outcomeOf answer (react (.ok m) c) =
        (call.conclusion (.ok m), { c.learned m call with connection := d })) :
    Did c call (outcomeOf answer ((request method params >>= react) c₀)).1
      (outcomeOf answer ((request method params >>= react) c₀)).2 := by
  obtain ⟨result, d, outcome, t, hcalled, hrequest⟩ := request_apply method params c₀
  rw [hconnection, hid] at hcalled
  rw [hasked] at hrequest
  rcases result with (e | f) | m
  · rw [Attempt.bind_of_ok hrequest, herror]
    exact .asked hspeaks hkind hcalled
  · rw [Attempt.bind_of_error hrequest]
    exact .asked hspeaks hkind hcalled
  · rw [Attempt.bind_of_ok hrequest]
    obtain ⟨d', hd, hanswer⟩ := hok m { c.asked call with connection := d }
    rw [hanswer, learned_of_connection]
    cases hd with
    | not => exact .asked hspeaks hkind hcalled
    | once level text => exact .asked hspeaks hkind (hcalled.remarked level text)

theorem did_handshake (c : Client (Watched σ)) (params : Payload) :
    Did c (.handshake params) (outcomeOf (fun _ => .done) (handshake params c)).1
      (outcomeOf (fun _ => Answer.done) (handshake params c)).2 := by
  unfold handshake
  by_cases hphase : c.phase = .uninitialized ∨ c.phase = .initializing
  · have hguard : ¬(c.phase ≠ .uninitialized ∧ c.phase ≠ .initializing) := by
      rintro ⟨huninitialized, hinitializing⟩
      rcases hphase with h | h
      · exact huninitialized h
      · exact hinitializing h
    have hspeaks : c.says? (.handshake params) = some (.handshake, params.encode) := if_pos hphase
    simp only [Attempt.bind_of_ok (Attempt.get_apply c), if_neg hguard,
      Attempt.bind_of_ok (Attempt.set_apply c _)]
    refine did_of_request { c with phase := .initializing } hspeaks rfl rfl rfl (fun _ => rfl)
      (fun e c => rfl) fun m c => ?_
    simp only [learned, Call.conclusion, Call.verdict, handshakeResult]
    rcases accepted (.ok m) with cause | answer
    · exact ⟨c.connection, .not, rfl⟩
    · dsimp only
      rcases InitializeResult.decode ((answer.get? "result").getD .null) with e | r
      · exact ⟨c.connection, .not, rfl⟩
      · -- a server without capabilities is remarked on
        by_cases hempty : r.capabilities.all.isEmpty
        · refine ⟨_, .once .warning "Server returned no capabilities", ?_⟩
          simp only [hempty, if_true]
          rfl
        · refine ⟨_, .not, ?_⟩
          simp only [hempty]
          rfl
  · have hguard : c.phase ≠ .uninitialized ∧ c.phase ≠ .initializing := not_or.mp hphase
    simp only [Attempt.bind_apply, Attempt.get_apply, if_pos hguard]
    exact .refused (if_neg hphase) (by rintro ⟨⟩) (by rintro ⟨⟩) (by rintro ⟨⟩)

/-- A client announces itself in no more than one attempt to write its first request. -/
theorem announce_carries (params : Payload) (c : Client (Watched σ)) :
    (∃ e, announce params c = (.error (.failed e), c)) ∨
      ∃ outcome d result,
        Carries c.connection d
          (.write (outgoing (some (.int c.nextId)) Method.handshake.wireName params.encode) outcome) ∧
        d.inbox = c.connection.inbox ∧ Attempt.fault? result = none ∧
        announce params c =
          (result, { c with phase := .initializing, nextId := c.nextId + 1, connection := d }) := by
  unfold announce
  rw [Attempt.bind_of_ok (Attempt.get_apply c)]
  by_cases hphase : c.phase ≠ .uninitialized ∧ c.phase ≠ .initializing
  · rw [if_pos hphase]
    exact Or.inl ⟨_, Attempt.bind_of_error (Attempt.fail_apply c _) _⟩
  · simp only [if_neg hphase, Attempt.bind_of_ok (Attempt.set_apply c _)]
    have htake : takeId { c with phase := .initializing } =
        (.ok c.nextId, { c with phase := .initializing, nextId := c.nextId + 1 }) := rfl
    obtain ⟨outcome, d, hcarries, hinbox, ⟨-, hsend⟩ | ⟨-, cause, hsend⟩⟩ :=
      send_carries Method.handshake.wireName
        (outgoing (some (.int c.nextId)) Method.handshake.wireName params.encode) c.connection
    · refine Or.inr ⟨outcome, d, .ok (), hcarries, hinbox, rfl, ?_⟩
      rw [Attempt.bind_of_ok htake]
      simp only [Attempt.bind_apply, exchange_apply, Connection.request, hsend, settled]
      rfl
    · let e : RpcError := .unsent Method.handshake.wireName cause
      refine Or.inr ⟨outcome, _, .error (.failed (.handshake (.exchange e))),
        hcarries.remarked .error (requestRemark .handshake c.nextId e), hinbox, rfl, ?_⟩
      rw [Attempt.bind_of_ok htake]
      simp only [Attempt.bind_apply, exchange_apply, Connection.request, hsend, settled]
      rfl

theorem did_shutdown (c : Client (Watched σ)) :
    Did c .shutdown (outcomeOf (fun _ => .done) (shutdown c)).1
      (outcomeOf (fun _ => Answer.done) (shutdown c)).2 := by
  unfold shutdown
  by_cases hopen : c.isOpen
  · have hspeaks : c.says? .shutdown = some (.shutdown, .null) := if_pos hopen
    rw [Attempt.bind_of_ok (checkReady_of_open hopen _)]
    refine did_of_request c hspeaks rfl rfl rfl (fun _ => rfl) (fun e c => rfl) fun m c => ?_
    refine ⟨c.connection, .not, ?_⟩
    simp only [learned, Call.conclusion, Call.verdict]
    rcases accepted (.ok m) with cause | answer
    · rfl
    · dsimp only
      cases Message.shutdownAnswer answer with
      | error e => rfl
      | ok done => rfl
  · obtain ⟨e, hcheck⟩ := checkReady_of_not_open hopen Method.shutdown.wireName
    rw [Attempt.bind_of_error hcheck]
    exact .refused (if_neg hopen) (by rintro ⟨⟩) (by rintro ⟨⟩) (by rintro ⟨⟩)

theorem did_hover (c : Client (Watched σ)) (path : Text) (place : BufferPosition) :
    Did c (.hover path place) (outcomeOf .hover (hover path place c)).1
      (outcomeOf Answer.hover (hover path place c)).2 := by
  have hrefused : ∀ {e : ClientError}, ¬(c.isOpen ∧ c.offersHover = true) →
      Did c (.hover path place) (.error (.failed e)) c := fun hguard =>
    .refused (if_neg hguard) (fun h => nomatch h) (fun h => nomatch h) (fun h => nomatch h)
  unfold hover
  rw [Attempt.bind_of_ok (Attempt.get_apply c)]
  by_cases hrunning : c.isRunning = true
  · by_cases hoffers : c.offersHover = true
    · simp only [hrunning, hoffers, Bool.not_true, Bool.false_eq_true, if_false]
      by_cases hopen : c.isOpen
      · rw [Attempt.bind_of_ok (checkReady_of_open hopen _)]
        have hspeaks : c.says? (.hover path place) =
            (c.aboutDocument (.hover path place)).map fun p => (.hover, p.encode) :=
          if_pos ⟨hopen, hoffers⟩
        rw [aboutDocument] at hspeaks
        cases huri : c.uri? path with
        | none =>
            obtain ⟨e, hdocument⟩ := documentUri_of_none huri
            rw [huri] at hspeaks
            rw [Attempt.bind_of_error hdocument]
            exact .unnamed hspeaks rfl huri
        | some uri =>
            rw [huri] at hspeaks
            rw [Attempt.bind_of_ok (documentUri_of_some huri)]
            refine did_of_request c hspeaks rfl rfl rfl (fun _ => rfl) (fun e c => rfl) fun m c => ?_
            refine ⟨c.connection, .not, ?_⟩
            simp only [learned, Call.conclusion, Call.verdict]
            rcases accepted (.ok m) with cause | answer
            · rfl
            · dsimp only
              cases Message.hoverAnswer answer with
              | error e => rfl
              | ok found => rfl
      · obtain ⟨e, hcheck⟩ := checkReady_of_not_open hopen Method.hover.wireName
        rw [Attempt.bind_of_error hcheck]
        exact hrefused fun h => hopen h.1
    · simp only [hrunning, hoffers, Bool.not_true, Bool.false_eq_true, if_false]
      exact hrefused fun h => hoffers h.2
  · simp only [hrunning]
    exact hrefused fun h => hrunning h.1.1

/-- A call that tells something of a document. -/
theorem did_of_document {c : Client (Watched σ)} {call : Call} {path : Text} {method : Method}
    {build : Payload → Payload} {operation : Operation (Watched σ) Unit}
    (hoperation : operation = do
      let uri ← documentUri path
      notify method (build uri))
    (hspeaks : c.says? call =
      if c.isOpen then ((c.uri? path).map build).map fun p => (method, p.encode) else none)
    (hpath : call.path? = some path) (hkind : call.isRequest = false)
    (htold : ∀ c : Client (Watched σ), c.told call = c) :
    Did c call (outcomeOf (fun _ => .done) (operation c)).1
      (outcomeOf (fun _ => Answer.done) (operation c)).2 := by
  rw [hoperation]
  cases huri : c.uri? path with
  | none =>
      obtain ⟨e, hdocument⟩ := documentUri_of_none huri
      rw [huri] at hspeaks
      rw [Attempt.bind_of_error hdocument]
      exact .unnamed (by simpa using hspeaks) hpath huri
  | some uri =>
      rw [huri] at hspeaks
      rw [Attempt.bind_of_ok (documentUri_of_some huri)]
      have hnamed : ∀ other : Call, other.path? = none → call ≠ other := by
        rintro other hother rfl
        rw [hpath] at hother
        cases hother
      exact did_of_notify hspeaks hkind htold (hnamed .poll rfl) (hnamed .close rfl)
        (hnamed .takeId rfl)

theorem did_confirm (c : Client (Watched σ)) :
    Did c .confirm (outcomeOf (fun _ => .done) (confirm c)).1
      (outcomeOf (fun _ => Answer.done) (confirm c)).2 := by
  have hrefused : ∀ {e : ClientError}, ¬(c.isRunning = true ∧ c.phase = .initializing) →
      Did c .confirm (.error (.failed e)) c := fun hguard =>
    .refused (if_neg hguard) (fun h => nomatch h) (fun h => nomatch h) (fun h => nomatch h)
  unfold confirm
  rw [Attempt.bind_of_ok (Attempt.get_apply c)]
  by_cases hrunning : c.isRunning = true
  · by_cases hphase : c.phase = .initializing
    · have hspeaks : c.says? .confirm =
          some (.initialized, (Layout.initializedParams.build []).encode) :=
        if_pos ⟨hrunning, hphase⟩
      simp only [hrunning, hphase, Bool.not_true, Bool.false_eq_true, if_false, ne_eq,
        not_true_eq_false]
      obtain ⟨outcome, d, hcarries, hinbox, ⟨houtcome, hsend⟩ | ⟨houtcome, e, hsend⟩⟩ :=
        exchange_notify Method.initialized.wireName (Layout.initializedParams.build []).encode c
      · rw [Attempt.bind_of_ok hsend]
        exact .told hspeaks rfl houtcome hcarries hinbox
      · rw [Attempt.bind_of_ok hsend]
        exact .untold hspeaks rfl houtcome hcarries hinbox
    · simp only [hrunning, hphase, Bool.not_true, Bool.false_eq_true, if_false, ne_eq,
        not_false_eq_true, if_true]
      exact hrefused fun h => hphase h.2
  · simp only [hrunning]
    exact hrefused fun h => hrunning h.1

/-! ## Events -/

omit [Peer σ] in
/-- What a notification is does not depend on the client, which at most remarks on it. -/
theorem event_apply (method : Method) (m : Members) :
    ∃ result, ∀ c : Client σ, ∃ d, Remarked c.connection d ∧
      event method m c = (result, { c with connection := d }) := by
  cases method with
  | showMessage =>
      unfold event
      cases Message.serverMessage m with
      | error e => exact ⟨_, fun c => ⟨_, .not, rfl⟩⟩
      | ok message => exact ⟨_, fun c => ⟨_, .not, rfl⟩⟩
  | logMessage =>
      unfold event
      cases Message.serverMessage m with
      | error e => exact ⟨_, fun c => ⟨_, .not, rfl⟩⟩
      | ok message => exact ⟨_, fun c => ⟨_, .once (levelOf message.type) _, rfl⟩⟩
  | publishDiagnostics =>
      unfold event
      rcases Message.diagnostics m with flaw | (e | diagnostics)
      · exact ⟨_, fun c => ⟨_, .not, rfl⟩⟩
      · exact ⟨_, fun c => ⟨_, .not, rfl⟩⟩
      · rcases subjectOf m with flaw | path
        · exact ⟨_, fun c => ⟨_, .not, rfl⟩⟩
        · exact ⟨_, fun c => ⟨_, .not, rfl⟩⟩
  | _ => exact ⟨_, fun c => ⟨_, .not, rfl⟩⟩

omit [Peer σ] in
theorem interpret_apply (m : Members) :
    ∃ result, ∀ c : Client σ, ∃ d, Remarked c.connection d ∧
      interpret m c = (result, { c with connection := d }) := by
  unfold interpret
  rcases Message.classify (.obj m) with e | kind
  · exact ⟨_, fun c => ⟨_, .not, rfl⟩⟩
  · rcases Message.method (.obj m) with e | method
    · exact ⟨_, fun c => ⟨_, .not, rfl⟩⟩
    · by_cases hkind : kind = .request
      · subst hkind
        exact ⟨_, fun c => ⟨_, .not, rfl⟩⟩
      · obtain ⟨result, hevent⟩ := event_apply (σ := σ) method m
        refine ⟨result, fun c => ?_⟩
        obtain ⟨d, hd, h⟩ := hevent c
        exact ⟨d, hd, by simp [Attempt.ofExcept, Attempt.bind_apply, hkind, h]⟩

omit [Peer σ] in
theorem method_of_nameless {m : Members} (h : Message.namesMethod m = false) :
    ∃ e, Message.method (.obj m) = .error e := by
  unfold Message.namesMethod at h
  cases hget : Members.get? m "method" with
  | none => exact ⟨_, by simp only [Message.method, Json.member?, hget]; rfl⟩
  | some name =>
      rw [hget] at h
      cases name with
      | str => cases h
      | _ => exact ⟨_, by simp only [Message.method, Json.member?, hget]; rfl⟩

omit [Peer σ] in
/-- An event is made of a message that names its method and has no id. -/
theorem interpret_ok {m : Members} {c : Client σ} {found : ServerEvent}
    (h : (interpret m c).1 = .ok found) :
    Message.namesMethod m = true ∧ m.has "id" = false := by
  unfold interpret at h
  cases hnames : Message.namesMethod m with
  | false =>
      obtain ⟨e, hmethod⟩ := method_of_nameless hnames
      rw [hmethod] at h
      cases hclassify : Message.classify (.obj m) with
      | error e => rw [hclassify] at h; cases h
      | ok kind => rw [hclassify] at h; cases h
  | true =>
      refine ⟨rfl, Bool.eq_false_iff.mpr fun hid => ?_⟩
      have hclassify : Message.classify (.obj m) = .ok .request := by
        simp [Message.classify, hnames, hid]
      rw [hclassify] at h
      cases hmethod : Message.method (.obj m) with
      | error e => rw [hmethod] at h; cases h
      | ok method => rw [hmethod] at h; cases h

theorem did_poll (c : Client (Watched σ)) :
    Did c .poll (outcomeOf .event (poll c)).1 (outcomeOf Answer.event (poll c)).2 := by
  unfold poll
  rw [Attempt.bind_of_ok (Attempt.get_apply c)]
  by_cases hphase : c.phase = .closed
  · simp only [hphase, if_true]
    exact .refused rfl (fun _ => hphase) (fun h => nomatch h) (fun h => nomatch h)
  · simp only [hphase, if_false]
    obtain ⟨t, hpassed⟩ := next_passed c.connection
    have hexchange := exchange_apply (Connection.next (σ := Watched σ)) c
    rcases hnext : Connection.next c.connection with ⟨(e | f) | (_ | m), d⟩
    · rw [hnext] at hpassed hexchange
      rw [Attempt.bind_of_ok hexchange]
      have hpolled := Did.polled rfl hphase hpassed
      by_cases hrunning : ({ c with connection := d } : Client (Watched σ)).isRunning = true
      · simp only [polledResult, hrunning, if_true] at hpolled
        simp only [Attempt.bind_apply, Attempt.get_apply, hrunning]
        exact hpolled
      · simp only [polledResult, hrunning] at hpolled
        simp only [Attempt.bind_apply, Attempt.get_apply, hrunning]
        exact hpolled
    · rw [hnext] at hpassed hexchange
      rw [Attempt.bind_of_error hexchange]
      exact .polled rfl hphase hpassed
    · rw [hnext] at hpassed hexchange
      rw [Attempt.bind_of_ok hexchange]
      have hpolled := Did.polled rfl hphase hpassed
      by_cases hrunning : ({ c with connection := d } : Client (Watched σ)).isRunning = true
      · simp only [polledResult, hrunning, if_true] at hpolled
        simp only [Attempt.bind_apply, Attempt.get_apply, hrunning]
        exact hpolled
      · simp only [polledResult, hrunning] at hpolled
        simp only [Attempt.bind_apply, Attempt.get_apply, hrunning]
        exact hpolled
    · rw [hnext] at hpassed hexchange
      rw [Attempt.bind_of_ok hexchange]
      obtain ⟨result, hinterpret⟩ := interpret_apply (σ := Watched σ) m
      obtain ⟨d', hd, hrun⟩ := hinterpret { c with connection := d }
      have hpassed' : Passed c.connection (.ok (some m)) d' t := by
        cases hd with
        | not => exact hpassed
        | once level text => exact hpassed.remarked level text
      have hpolled := Did.polled rfl hphase hpassed'
      -- the message is the same, whatever has been remarked
      obtain ⟨_, -, hrun'⟩ := hinterpret { c with connection := d' }
      simp only [polledResult, hrun'] at hpolled
      simp only [Attempt.bind_apply, hrun]
      cases result with
      | ok e => exact hpolled
      | error stop => exact hpolled

/-- **All that the calls of a client can do.** -/
theorem perform_did (c : Client (Watched σ)) (call : Call) :
    Did c call (c.perform call).1 (c.perform call).2 := by
  cases call with
  | handshake params => exact did_handshake c params
  | confirm => exact did_confirm c
  | shutdown => exact did_shutdown c
  | close => exact .closed rfl
  | changeConfiguration settings =>
      exact did_of_notify rfl rfl (fun _ => rfl) (fun h => nomatch h) (fun h => nomatch h)
        (fun h => nomatch h)
  | openDocument | changeDocument | closeDocument =>
      exact did_of_document rfl rfl rfl rfl fun _ => rfl
  | hover path place => exact did_hover c path place
  | poll => exact did_poll c
  | takeId => exact .numbered rfl

end LanguageClient.Client
