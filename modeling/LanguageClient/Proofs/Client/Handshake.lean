import LanguageClient.Proofs.Client.Correlation
import LanguageClient.Proofs.Client.Lifecycle
import LanguageClient.Script.Server

/-!
# What an open session rests on

A session is opened by two calls: the first request, and then the notification that it is open.  The
notification is allowed as soon as the first request has been attempted, whatever came of it.  What
the client knows of the server it has from a first request that succeeded.  Main statement:
`run_confirmed`; `confirmed_unanswered` is a session that was opened without an answer.

## Strategy

The message by which a session is opened has a cause, the call that wrote it (`history_cause`), and so
has the phase in which this call is allowed.
-/

namespace LanguageClient.Client

open LanguageClient.Connection

variable {σ : Type} [Peer σ]

/-! ## The answer to the first request -/

omit [Peer σ] in
theorem accepted_of_hasError {m : Members} (h : m.has "error" = true) :
    ∃ cause, accepted (.ok m) = .error cause := by
  simp only [accepted, Message.hasError, h, if_true]
  cases Message.error (.obj m) with
  | error e => exact ⟨_, rfl⟩
  | ok e => exact ⟨_, rfl⟩

omit [Peer σ] in
theorem accepted_of_not_hasError {m : Members} (h : m.has "error" = false) :
    accepted (.ok m) = .ok m := by
  simp [accepted, Message.hasError, h]

omit [Peer σ] in
theorem handshakeResult_eq_ok {m : Members} {r : InitializeResult} :
    handshakeResult m = .ok r ↔
      m.has "error" = false ∧ InitializeResult.decode ((m.get? "result").getD .null) = .ok r := by
  unfold handshakeResult
  cases herror : m.has "error" with
  | true =>
      obtain ⟨cause, hcause⟩ := accepted_of_hasError herror
      rw [hcause]
      exact ⟨(fun h => nomatch h), (fun h => nomatch h.1)⟩
  | false =>
      rw [accepted_of_not_hasError herror]
      dsimp only
      cases InitializeResult.decode ((m.get? "result").getD .null) with
      | error e => exact ⟨(fun h => nomatch h), (fun h => nomatch h.2)⟩
      | ok r' =>
          refine ⟨fun h => ⟨rfl, ?_⟩, fun h => ?_⟩
          · cases h
            rfl
          · cases h.2
            rfl

omit [Peer σ] in
theorem conclusion_handshake_ok {m : Members} {params : Payload} :
    (Call.handshake params).conclusion (.ok m) = .ok .done ↔
      ∃ r, m.has "error" = false ∧
        InitializeResult.decode ((m.get? "result").getD .null) = .ok r := by
  simp only [← handshakeResult_eq_ok, Call.conclusion, Call.verdict]
  cases handshakeResult m with
  | error cause =>
      constructor
      · intro h
        cases h
      · rintro ⟨r, h⟩
        cases h
  | ok r => exact ⟨fun _ => ⟨r, rfl⟩, fun _ => rfl⟩

/-- A first request comes to what its response says, and to nothing without one. -/
theorem Event.handshake_outcome {e : Event σ} (h : e.Happens) {params : Payload}
    (hcall : e.call = .handshake params) :
    (∀ m ∈ e.read, Answers (.int e.before.nextId) m →
      e.result = (Call.handshake params).conclusion (.ok m) ∧
        e.after.offersHover = (e.before.learned m (.handshake params)).offersHover) ∧
    ((∀ m ∈ e.read, ¬Answers (.int e.before.nextId) m) →
      e.result ≠ .ok .done ∧ e.after.offersHover = e.before.offersHover) := by
  have hkind : e.call.isRequest = true := by rw [hcall]; rfl
  cases hspeaks : e.before.says? e.call with
  | none =>
      -- a refused request reads nothing
      obtain ⟨hafter, stop, hresult, -⟩ := h.refused_inv hkind hspeaks
      refine ⟨fun m hmem => ?_, fun _ => ⟨?_, by rw [hafter]⟩⟩
      · rw [Event.read, hafter, List.drop_length] at hmem
        exact absurd hmem List.not_mem_nil
      · rw [hresult]
        intro hok
        cases hok
  | some said =>
      have hasks : e.asks? = some e.before.nextId := if_pos ⟨hkind, by rw [hspeaks]; rfl⟩
      obtain ⟨-, hheeds⟩ := Event.asksOnce_and_heeds h hasks
      rw [← hcall]
      refine ⟨fun m hmem hanswers => ?_, fun hnone => ?_⟩
      · obtain ⟨hresult, hlearned⟩ := hheeds.answered m hmem hanswers
        refine ⟨hresult, ?_⟩
        rw [hlearned, hcall, learned, learned]
        cases handshakeResult m <;> rfl
      · obtain ⟨⟨stop, hresult⟩, hsame⟩ := hheeds.unanswered hnone
        refine ⟨?_, by rw [hsame, hcall]; rfl⟩
        rw [hresult]
        rcases stop with error | f
        · rintro ⟨⟩
        · rintro ⟨⟩

/-- **The first request succeeds if and only if it is answered by what can be decoded.** -/
theorem Event.handshake_ok_iff {e : Event σ} (h : e.Happens) {params : Payload}
    (hcall : e.call = .handshake params) :
    e.result = .ok .done ↔ ∃ m r, m ∈ e.read ∧ Answers (.int e.before.nextId) m ∧
      m.has "error" = false ∧ InitializeResult.decode ((m.get? "result").getD .null) = .ok r := by
  obtain ⟨hanswered, hunanswered⟩ := Event.handshake_outcome h hcall
  constructor
  · intro hok
    by_cases hanswer : ∃ m ∈ e.read, Answers (.int e.before.nextId) m
    · obtain ⟨m, hmem, hanswers⟩ := hanswer
      have hresult := (hanswered m hmem hanswers).1
      obtain ⟨r, hr⟩ := conclusion_handshake_ok.mp (hresult.symm.trans hok)
      exact ⟨m, r, hmem, hanswers, hr⟩
    · have hfailed := hunanswered fun m hmem hanswers => hanswer ⟨m, hmem, hanswers⟩
      exact absurd hok hfailed.1
  · rintro ⟨m, r, hmem, hanswers, hr⟩
    exact (hanswered m hmem hanswers).1.trans (conclusion_handshake_ok.mpr ⟨r, hr⟩)

/-! ## Causes -/

/-- The server has been told that the session is open. -/
def Opened (c : Client (Watched σ)) : Prop :=
  ∃ m ∈ c.connection.sent, m.get? "method" = some (.str Method.initialized.wireName)

omit [Peer σ] in
theorem initialized_of_wireName {method : Method}
    (h : method.wireName = Method.initialized.wireName) : method = .initialized := by
  cases method with
  | initialized => rfl
  | _ => exact absurd h (by decide)

omit [Peer σ] in
theorem SaysMethods.initialized_mem_iff {messages : List Members} {methods : List Method}
    (h : SaysMethods messages methods) :
    (∃ m ∈ messages, m.get? "method" = some (.str Method.initialized.wireName)) ↔
      .initialized ∈ methods := by
  have hmap : (∃ m ∈ messages, m.get? "method" = some (.str Method.initialized.wireName)) ↔
      some (.str Method.initialized.wireName) ∈ messages.map fun m : Members => m.get? "method" :=
    List.mem_map.symm
  rw [hmap, h, List.mem_map]
  constructor
  · rintro ⟨method, hmem, hname⟩
    injection hname with hname
    injection hname with hname
    rwa [← initialized_of_wireName hname]
  · exact fun hmem => ⟨_, hmem, rfl⟩

omit [Peer σ] in
theorem Speaks.opened {c : Client (Watched σ)} (h : Speaks c) (hphase : c.phase = .initialized) :
    Opened c := by
  obtain ⟨methods, hspeaks, hspoken⟩ := h
  rw [hphase] at hspoken
  obtain ⟨n, later, rfl, -⟩ := hspoken
  exact hspeaks.initialized_mem_iff.mpr (by simp)

omit [Peer σ] in
theorem Progress.of_initialized {call : Call} {result : Except (Stop ClientError) Answer}
    {phase phase' : Phase} {methods : List Method} (h : Progress call result phase phase' methods)
    (hmem : .initialized ∈ methods) :
    call = .confirm ∧ result = .ok .done ∧ phase = .initializing := by
  cases h with
  | idle | close => exact absurd hmem List.not_mem_nil
  | handshake _ _ hmethods =>
      rcases hmethods with rfl | rfl
      · exact absurd hmem List.not_mem_nil
      · exact nomatch List.mem_singleton.mp hmem
  | confirm hcall hresult => exact ⟨hcall, hresult, rfl⟩
  | work hwork =>
      rw [← List.mem_singleton.mp hmem] at hwork
      cases hwork
  | shutdown => exact nomatch List.mem_singleton.mp hmem

/-- That a session is open is said by the call that says it, after the first request. -/
theorem cause_of_opened {c : Client (Watched σ)} {steps : List (Step σ)}
    (h : Opened (c.history steps).2) :
    Opened c ∨ ∃ earlier e later, (c.history steps).1 = (c.history earlier).1 ++ e :: later ∧
      e.before = (c.history earlier).2 ∧ e.call = .confirm ∧ e.result = .ok .done ∧
        e.before.phase = .initializing := by
  refine history_cause (fun e hhappens hafter => ?_) (fun c change h => h) h
  obtain ⟨messages, methods, hsent, hspeaks, hprogress⟩ := hhappens.progress
  obtain ⟨m, hmem, hmethod⟩ := hafter
  rw [hsent] at hmem
  rcases List.mem_append.mp hmem with hmem | hmem
  · exact Or.inl ⟨m, hmem, hmethod⟩
  · exact Or.inr (hprogress.of_initialized (hspeaks.initialized_mem_iff.mp ⟨m, hmem, hmethod⟩))

/-- The event is a first request that was attempted. -/
def Event.Attempts (e : Event σ) : Prop :=
  ∃ params id, e.call = .handshake params ∧ e.asks? = some id ∧ e.AsksOnce id

omit [Peer σ] in
theorem Progress.of_initializing {call : Call} {result : Except (Stop ClientError) Answer}
    {phase phase' : Phase} {methods : List Method} (h : Progress call result phase phase' methods)
    (hphase' : phase' = .initializing) :
    phase = .initializing ∨ ∃ params, call = .handshake params ∧
      (phase = .uninitialized ∨ phase = .initializing) := by
  cases h with
  | idle => exact Or.inl hphase'
  | handshake hcall hphase => exact Or.inr ⟨_, hcall, hphase⟩
  | confirm | work | shutdown | close => cases hphase'

/-- A session begins with an attempt at the first request. -/
theorem cause_of_initializing {c : Client (Watched σ)} {steps : List (Step σ)}
    (h : (c.history steps).2.phase = .initializing) :
    c.phase = .initializing ∨ ∃ e ∈ (c.history steps).1, e.Attempts := by
  have hcause := history_cause (P := fun c => c.phase = .initializing) (Q := Event.Attempts)
    (fun e hhappens hafter => ?_) (fun c change h => h) h
  · rcases hcause with hc | ⟨earlier, e, later, hevents, -, hattempts⟩
    · exact Or.inl hc
    · exact Or.inr ⟨e, by rw [hevents]; simp, hattempts⟩
  · obtain ⟨_, _, -, -, hprogress⟩ := hhappens.progress
    rcases hprogress.of_initializing hafter with hbefore | ⟨params, hcall, hphase⟩
    · exact Or.inl hbefore
    · have hspeaks : e.before.says? e.call = some (.handshake, params.encode) := by
        rw [hcall]
        exact if_pos hphase
      have hasks : e.asks? = some e.before.nextId :=
        if_pos ⟨by rw [hcall]; rfl, by rw [hspeaks]; rfl⟩
      exact Or.inr ⟨params, _, hcall, hasks, (Event.asksOnce_and_heeds hhappens hasks).1⟩

/-- The event is a first request that was answered by a server that answers hovers. -/
def Event.LearnsHover (e : Event σ) : Prop :=
  ∃ params m r, e.call = .handshake params ∧ e.result = .ok .done ∧ m ∈ e.read ∧
    Answers (.int e.before.nextId) m ∧ m.has "error" = false ∧
    InitializeResult.decode ((m.get? "result").getD .null) = .ok r ∧
    r.capabilities.hoverProvider = some (.bool true)

omit [Peer σ] in
theorem hoverProvider_of_offers {r : InitializeResult} (h : offers r = true) :
    r.capabilities.hoverProvider = some (.bool true) := by
  unfold offers at h
  split at h
  · assumption
  · cases h

theorem Event.learnsHover_of_after {e : Event σ} (hhappens : e.Happens) {params : Payload}
    (hcall : e.call = .handshake params) (hafter : e.after.offersHover = true) :
    e.before.offersHover = true ∨ e.LearnsHover := by
  obtain ⟨hanswered, hunanswered⟩ := Event.handshake_outcome hhappens hcall
  by_cases hanswer : ∃ m ∈ e.read, Answers (.int e.before.nextId) m
  · obtain ⟨m, hmem, hanswers⟩ := hanswer
    obtain ⟨hresult, hlearned⟩ := hanswered m hmem hanswers
    rw [hlearned, learned] at hafter
    cases hr : handshakeResult m with
    | error cause =>
        rw [hr] at hafter
        exact Or.inl hafter
    | ok r =>
        rw [hr] at hafter
        obtain ⟨herror, hdecode⟩ := handshakeResult_eq_ok.mp hr
        exact Or.inr ⟨params, m, r, hcall,
          hresult.trans (conclusion_handshake_ok.mpr ⟨r, herror, hdecode⟩), hmem, hanswers,
          herror, hdecode, hoverProvider_of_offers hafter⟩
  · obtain ⟨-, hsame⟩ := hunanswered fun m hmem hanswers => hanswer ⟨m, hmem, hanswers⟩
    rw [hsame] at hafter
    exact Or.inl hafter

/-- What the client knows of hovers it was told by the answer to a first request. -/
theorem cause_of_offersHover {c : Client (Watched σ)} {steps : List (Step σ)}
    (h : (c.history steps).2.offersHover = true) :
    c.offersHover = true ∨ ∃ e ∈ (c.history steps).1, e.LearnsHover := by
  have hcause := history_cause (P := fun c => c.offersHover = true) (Q := Event.LearnsHover)
    (fun e hhappens hafter => ?_) (fun c change h => h) h
  · rcases hcause with hc | ⟨earlier, e, later, hevents, -, hlearns⟩
    · exact Or.inl hc
    · exact Or.inr ⟨e, by rw [hevents]; simp, hlearns⟩
  · by_cases hcall : ∃ params, e.call = .handshake params
    · obtain ⟨params, hcall⟩ := hcall
      exact Event.learnsHover_of_after hhappens hcall hafter
    · rw [hhappens.offersHover_eq fun params heq => hcall ⟨params, heq⟩] at hafter
      exact Or.inl hafter

/-- **An open session rests on a first request that was attempted, and hovers on one that was
answered.**  Whatever is called, and whatever the server does: while the session is open the server
has been told so, by a call that succeeded and before which a first request was attempted; what came
of it does not matter.  A first request succeeds if and only if a response with its id, read
meanwhile, has no error and a result that can be decoded.  The client takes hovers to be offered only
if such a response said so. -/
theorem run_confirmed (peer : σ) (processId : Nat) (workingDirectory : Text)
    (pollTimeout : Binary64) (cycles : Int) (steps : List (Step σ)) :
    let run := run peer processId workingDirectory pollTimeout cycles steps
    (run.2.phase = .initialized → Opened run.2) ∧
    (Opened run.2 → ∃ earlier e later, run.1 = earlier ++ e :: later ∧
      e.call = .confirm ∧ e.result = .ok .done ∧ ∃ first ∈ earlier, first.Attempts) ∧
    (∀ e ∈ run.1, ∀ params, e.call = .handshake params →
      (e.result = .ok .done ↔ ∃ m r, m ∈ e.read ∧ Answers (.int e.before.nextId) m ∧
        m.has "error" = false ∧
          InitializeResult.decode ((m.get? "result").getD .null) = .ok r)) ∧
    (run.2.offersHover = true → ∃ e ∈ run.1, e.LearnsHover) := by
  intro run
  refine ⟨fun hphase => ?_, fun hopened => ?_, fun e hmem params hcall => ?_, fun hoffers => ?_⟩
  · have hstart : Speaks (attach (.of peer) processId workingDirectory pollTimeout cycles) :=
      ⟨[], rfl, rfl⟩
    exact (speaks_stable.history hstart steps).2.opened hphase
  · rcases cause_of_opened hopened with
      hstart | ⟨steps', e, later, hevents, hbefore, hcall, hok, hphase⟩
    · obtain ⟨m, hmem, -⟩ := hstart
      exact absurd hmem List.not_mem_nil
    · rw [hbefore] at hphase
      rcases cause_of_initializing hphase with hstart | hattempt
      · cases hstart
      · exact ⟨_, e, later, hevents, hcall, hok, hattempt⟩
  · exact Event.handshake_ok_iff (history_happens _ steps e hmem) hcall
  · rcases cause_of_offersHover hoffers with hstart | hlearns
    · cases hstart
    · exact hlearns

/-- A server that never says anything is told all the same that the session is open. -/
def unansweredRun : List (Event ScriptedServer) × Client (Watched ScriptedServer) :=
  run (ScriptedServer.start ⟨[], []⟩) 1 "/" .zero 1
    [.call (.handshake (Layout.initializeParams.build [])), .call .confirm]

theorem confirmed_unanswered :
    unansweredRun.2.phase = .initialized ∧
      ¬∃ e ∈ unansweredRun.1, (∃ params, e.call = .handshake params) ∧ e.result = .ok .done := by
  have hfailed : ∀ e ∈ unansweredRun.1,
      e.call.method? = some .handshake → e.result.isOk = false := by decide +kernel
  refine ⟨by decide +kernel, ?_⟩
  rintro ⟨e, hmem, ⟨params, hcall⟩, hok⟩
  have hnot := hfailed e hmem (by rw [hcall]; rfl)
  rw [hok] at hnot
  cases hnot

end LanguageClient.Client
