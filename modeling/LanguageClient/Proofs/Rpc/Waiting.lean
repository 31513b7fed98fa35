import LanguageClient.Proofs.Rpc.Traffic

/-!
# Waiting for a response, and for the next message

A request is written by one attempt, and then only listened for, however many poll cycles it takes.
What it comes to is decided by the messages that were read meanwhile: it is answered by the one that
carries its id, and that one is the last to be read (`Called`).  The next message is the first of
those that are kept and those that were read (`Passed`).

## Strategy

The traffic of an operation is that of its steps (`Listens`).  What becomes of a message is known from
`Step`, for one poll cycle; `Waited` adds this up over the cycles.
-/

namespace LanguageClient.Connection

variable {σ : Type}

/-- The message is a response with that id. -/
def Answers (id : Json) (m : Members) : Prop :=
  m.has "method" = false ∧ (responseId m).same id = true

/-! ## Poll cycles -/

/-- From `c` to `c'` messages were read while the response with an id was waited for. -/
structure Waited (id : Json) (c : Connection σ) (result : ReadResult) (c' : Connection σ)
    (read : List Members) : Prop where
  inbox_eq : c'.inbox = c.inbox ++ read.filter (·.has "method")
  received_eq : c'.received = c.received ++ read
  ok_iff : ∀ m, result = .ok m ↔ m ∈ read ∧ Answers id m

namespace Waited

variable {id : Json} {c c₁ c₂ : Connection σ} {stop : Stop RpcError} {result : ReadResult}
  {read read' : List Members}

theorem of_stop (c : Connection σ) : Waited id c (.error stop) c [] where
  inbox_eq := (List.append_nil _).symm
  received_eq := (List.append_nil _).symm
  ok_iff _ := ⟨(fun h => nomatch h), fun h => absurd h.1 List.not_mem_nil⟩

/-- What was read before a cycle that went on is no answer. -/
theorem trans (h : Waited id c (.error stop) c₁ read) (h' : Waited id c₁ result c₂ read') :
    Waited id c result c₂ (read ++ read') where
  inbox_eq := by rw [h'.inbox_eq, h.inbox_eq, List.filter_append, List.append_assoc]
  received_eq := by rw [h'.received_eq, h.received_eq, List.append_assoc]
  ok_iff m := by
    refine (h'.ok_iff m).trans ⟨fun ⟨hmem, hm⟩ => ⟨List.mem_append_right _ hmem, hm⟩, ?_⟩
    rintro ⟨hmem, hm⟩
    rcases List.mem_append.mp hmem with hmem | hmem
    · exact nomatch (h.ok_iff m).mpr ⟨hmem, hm⟩
    · exact ⟨hmem, hm⟩

end Waited

variable [Peer σ]

theorem receive_waited (id : Json) (c : Connection σ) :
    ∃ read, Waited id c (receive id c).1 (receive id c).2 read := by
  have hstep : Step (.receive id) c _ _ := receive_step rfl c
  generalize (receive id c).1 = result at hstep
  generalize (receive id c).2 = c' at hstep
  generalize houtcome : Outcome.of .returned result = outcome at hstep
  cases hstep with
  | idle hidle h =>
      refine ⟨[], by rw [h.inbox_eq]; simp, h.received_eq, fun m => ⟨?_, fun h => ?_⟩⟩
      · rintro rfl
        rw [← houtcome] at hidle
        cases hidle
      · exact absurd h.1 List.not_mem_nil
  | @kept _ m _ hawaits hmethod h =>
      refine ⟨[m], by rw [h.inbox_eq]; simp [hmethod], h.received_eq, fun m' => ⟨?_, ?_⟩⟩
      · rintro rfl
        cases houtcome
      · rintro ⟨hmem, hanswers⟩
        obtain rfl := List.mem_singleton.mp hmem
        rw [hanswers.1] at hmethod
        cases hmethod
  | @answered _ m _ hawaits hmethod hid h =>
      cases hawaits
      obtain rfl : result = .ok m := by
        cases result with
        | ok m' => cases houtcome; rfl
        | error stop => cases houtcome
      refine ⟨[m], by rw [h.inbox_eq]; simp [hmethod], h.received_eq, fun m' => ⟨?_, ?_⟩⟩
      · rintro heq
        cases heq
        exact ⟨List.mem_singleton.mpr rfl, hmethod, hid⟩
      · rintro ⟨hmem, -⟩
        rw [List.mem_singleton.mp hmem]
  | @refused _ m _ hawaits hmethod hid h =>
      cases hawaits
      refine ⟨[m], by rw [h.inbox_eq]; simp [hmethod], h.received_eq, fun m' => ⟨?_, ?_⟩⟩
      · rintro rfl
        cases houtcome
      · rintro ⟨hmem, hanswers⟩
        obtain rfl := List.mem_singleton.mp hmem
        rw [hanswers.2] at hid
        cases hid
  | taken hnext | passed hnext | dropped hnext => cases hnext

/-- Once there is an answer, nothing more is asked. -/
theorem keepReceiving_of_ok (id : Json) (cycles : Nat) (m : Members) (c : Connection σ) :
    keepReceiving id cycles (.ok m) c = (.ok m, c) := by
  cases cycles <;> rfl

/-- A poll cycle for a response, and `more` further ones as far as they may help. -/
def wait (more : Nat) (id : Json) : Exchange σ Members := do
  keepReceiving id more (← (receive id).outcome)

/-- A cycle goes before those that follow it. -/
theorem wait_of_more {id : Json} {more : Nat}
    (hmore : ∀ (e : RpcError) (c : Connection σ),
      ∃ read, Waited id c (keepReceiving id more (.error e) c).1
        (keepReceiving id more (.error e) c).2 read) (c : Connection σ) :
    ∃ read, Waited id c (wait more id c).1 (wait more id c).2 read := by
  unfold wait
  obtain ⟨read, hread⟩ := receive_waited id c
  rcases hreceive : receive id c with ⟨(e | f) | m, c₁⟩
  · rw [hreceive] at hread
    rw [Attempt.bind_of_ok (Attempt.outcome_of_failed hreceive)]
    obtain ⟨read', hread'⟩ := hmore e c₁
    exact ⟨read ++ read', hread.trans hread'⟩
  · rw [hreceive] at hread
    rw [Attempt.bind_of_error (Attempt.outcome_of_faulted hreceive)]
    exact ⟨read, hread⟩
  · rw [hreceive] at hread
    rw [Attempt.bind_of_ok (Attempt.outcome_of_ok hreceive), keepReceiving_of_ok]
    exact ⟨read, hread⟩

theorem keepReceiving_waited (id : Json) (cycles : Nat) (e : RpcError) (c : Connection σ) :
    ∃ read, Waited id c (keepReceiving id cycles (.error e) c).1
      (keepReceiving id cycles (.error e) c).2 read := by
  induction cycles generalizing e c with
  | zero => exact ⟨[], .of_stop c⟩
  | succ cycles ih =>
      rw [keepReceiving]
      by_cases hretry : e.isRetryable = true
      · rw [if_pos hretry]
        exact wait_of_more ih c
      · rw [if_neg hretry]
        exact ⟨[], .of_stop c⟩

/-- **What all poll cycles together have read decides the answer.** -/
theorem wait_waited (more : Nat) (id : Json) (c : Connection σ) :
    ∃ read, Waited id c (wait more id c).1 (wait more id c).2 read :=
  wait_of_more (keepReceiving_waited id more) c

/-! ## Traffic -/

theorem listens_readOne : Listens (readOne : Exchange (Watched σ) Members) := by
  unfold readOne
  refine listens_awaitOutput.bind fun _ => listens_readNext.outcome.bind fun result => ?_
  rcases result with e | m
  · cases e with
    | _ => exact listens_fail _
  · exact listens_pure m

theorem listens_receive (id : Json) : Listens (receive id : Exchange (Watched σ) Members) := by
  intro c
  obtain ⟨t, ht⟩ := listens_readOne c
  rcases hread : readOne c with ⟨stop | m, c₁⟩
  · rw [hread] at ht
    rw [show receive id c = (.error stop, c₁) from Attempt.bind_of_error hread _]
    exact ⟨t, ht⟩
  · rw [hread] at ht
    rw [receive_of_message hread]
    -- what becomes of the message concerns the inbox and the log
    have hlater : ∀ {result : ReadResult} {c₂ : Connection (Watched σ)},
        Carries c₁ c₂ .none → Attempt.fault? result = none → ∃ t, Hears c result c₂ t :=
      fun hcarries hfault => ⟨t ++ .none, ht.trans rfl (.of_silent hcarries hfault)⟩
    split
    · exact hlater (.of_silent rfl rfl (List.append_nil _).symm rfl rfl) rfl
    · split
      · exact ⟨t, ht⟩
      · exact hlater (.of_silent rfl rfl rfl rfl rfl) rfl

theorem listens_keepReceiving (id : Json) (cycles : Nat) (last : Except RpcError Members) :
    Listens (keepReceiving id cycles last : Exchange (Watched σ) Members) := by
  induction cycles generalizing last with
  | zero =>
      cases last with
      | ok m => exact listens_pure m
      | error e => exact listens_fail e
  | succ cycles ih =>
      cases last with
      | ok m => exact listens_pure m
      | error e =>
          rw [keepReceiving]
          by_cases hretry : e.isRetryable = true
          · rw [if_pos hretry]
            exact (listens_receive id).outcome.bind ih
          · rw [if_neg hretry]
            exact listens_fail e

theorem listens_wait (more : Nat) (id : Json) :
    Listens (wait more id : Exchange (Watched σ) Members) :=
  (listens_receive id).outcome.bind fun last => listens_keepReceiving id more last

theorem next_of_cons {c : Connection σ} {m : Members} {rest : List Members}
    (hinbox : c.inbox = m :: rest) : next c = (.ok (some m), { c with inbox := rest }) := by
  unfold next
  simp only [Attempt.bind_apply, Attempt.get_apply, hinbox]
  rfl

theorem listens_next : Listens (next : Exchange (Watched σ) (Option Members)) := by
  intro c
  cases hinbox : c.inbox with
  | cons m rest =>
      rw [next_of_cons hinbox]
      exact ⟨.none, .of_silent (.of_silent rfl rfl (List.append_nil _).symm rfl rfl) rfl⟩
  | nil =>
      unfold next
      simp only [Attempt.bind_of_ok (Attempt.get_apply c), hinbox]
      refine (listens_readOne.outcome.bind fun result => ?_) c
      rcases result with e | m
      · cases e with
        | timeout => exact listens_pure none
        | _ => exact listens_fail _
      · cases hmethod : m.has "method" with
        | true => simpa [hmethod] using listens_pure (some m)
        | false =>
            simpa [hmethod] using (listens_remark .warning _).bind fun _ =>
              listens_pure (none : Option Members)

/-! ## Requests -/

/-- What a request comes to that is written once and waited for: `t` is the traffic of the wait. -/
structure Called (id : Json) (method : Text) (params : Json) (c : Connection (Watched σ))
    (result : ReadResult) (c' : Connection (Watched σ)) (outcome : WriteOutcome) (t : Traffic) :
    Prop where
  inTurn : InTurn c c' (.write (outgoing (some id) method params) outcome ++ t)
  listening : ∀ contact ∈ t.contacts, contact.isListening = true
  sent_eq : t.sent = []
  inbox_eq : c'.inbox = c.inbox ++ t.read.filter (·.has "method")
  /-- It is answered if and only if a response with its id was read. -/
  ok_iff : ∀ m, result = .ok m ↔ m ∈ t.read ∧ Answers id m
  fault_eq : Attempt.fault? result = t.fault?
  /-- A request that did not go out is not waited for. -/
  unsent : outcome.isAccepted = false → t = .none

omit [Peer σ] in
theorem Called.carries {id : Json} {method : Text} {params : Json} {c c' : Connection (Watched σ)}
    {result : ReadResult} {outcome : WriteOutcome} {t : Traffic}
    (h : Called id method params c result c' outcome t) :
    Carries c c' (.write (outgoing (some id) method params) outcome ++ t) :=
  h.inTurn.carries

omit [Peer σ] in
/-- A wait that follows a write. -/
theorem Called.of_hears {id : Json} {method : Text} {params : Json}
    {c c₁ c₂ : Connection (Watched σ)} {result : ReadResult} {read : List Members} {t : Traffic}
    {outcome : WriteOutcome} (houtcome : outcome.isAccepted = true)
    (hcarries : Carries c c₁ (.write (outgoing (some id) method params) outcome))
    (hinbox : c₁.inbox = c.inbox) (hwaited : Waited id c₁ result c₂ read)
    (hhears : Hears c₁ result c₂ t) : Called id method params c result c₂ outcome t := by
  have hread : t.read = read := hhears.carries.read_eq hwaited.received_eq
  exact {
    inTurn := .of_write hcarries hhears.carries hhears.listening
    listening := hhears.listening
    sent_eq := hhears.carries.sent_eq_nil hhears.listening
    inbox_eq := by rw [hwaited.inbox_eq, hinbox, hread]
    ok_iff := fun m => by rw [hread]; exact hwaited.ok_iff m
    fault_eq := hhears.fault_eq
    unsent := fun h => by rw [h] at houtcome; cases houtcome }

omit [Peer σ] in
theorem Called.remarked {id : Json} {method : Text} {params : Json} {c d : Connection (Watched σ)}
    {result : ReadResult} {outcome : WriteOutcome} {t : Traffic}
    (h : Called id method params c result d outcome t) (level : Level) (text : Text) :
    Called id method params c result { d with journal := d.journal ++ [.remark level text] }
      outcome t :=
  { h with inTurn := h.inTurn.remarked level text }

omit [Peer σ] in
/-- A request that did not go out has no answer. -/
theorem Called.isAccepted_of_ok {id : Json} {method : Text} {params : Json}
    {c d : Connection (Watched σ)} {m : Members} {outcome : WriteOutcome} {t : Traffic}
    (h : Called id method params c (.ok m) d outcome t) : outcome.isAccepted = true := by
  by_contra hnot
  have hmem := ((h.ok_iff m).mp rfl).1
  rw [h.unsent (Bool.eq_false_iff.mpr hnot)] at hmem
  exact absurd hmem List.not_mem_nil

/-- A request that went out is waited for. -/
theorem callRepeatedly_of_sent {cycles : Nat} {id : Json} {method : Text} {params : Json}
    {c c₁ : Connection σ} (hsend : request id method params c = (.ok (), c₁)) :
    callRepeatedly cycles id method params c = wait (cycles - 1) id c₁ := by
  unfold callRepeatedly wait
  simp only [Attempt.bind_apply, Attempt.outcome, call_of_sent hsend]

/-- A request that did not go out is not. -/
theorem callRepeatedly_of_unsent {cycles : Nat} {id : Json} {method : Text} {params : Json}
    {c c₁ : Connection σ} {cause : WriteError}
    (hsend : request id method params c = (.error (.failed (.unsent method cause)), c₁)) :
    callRepeatedly cycles id method params c = (.error (.failed (.unsent method cause)), c₁) := by
  unfold callRepeatedly
  rw [Attempt.bind_of_ok (Attempt.outcome_of_failed (call_of_unsent hsend))]
  cases cycles - 1 <;> rfl

/-- **A request is written once, and answered by the response that carries its id, if at all.** -/
theorem callRepeatedly_called (cycles : Nat) (id : Json) (method : Text) (params : Json)
    (c : Connection (Watched σ)) :
    ∃ outcome t, Called id method params c (callRepeatedly cycles id method params c).1
      (callRepeatedly cycles id method params c).2 outcome t := by
  obtain ⟨outcome, c₁, hcarries, hinbox, ⟨houtcome, hsend⟩ | ⟨houtcome, cause, hsend⟩⟩ :=
    send_carries method (outgoing (some id) method params) c
  · rw [callRepeatedly_of_sent hsend]
    obtain ⟨read, hwaited⟩ := wait_waited (cycles - 1) id c₁
    obtain ⟨t, hhears⟩ := listens_wait (cycles - 1) id c₁
    exact ⟨outcome, t, .of_hears houtcome hcarries hinbox hwaited hhears⟩
  · rw [callRepeatedly_of_unsent hsend]
    refine ⟨outcome, .none, ?_⟩
    exact {
      inTurn := .of_attempt hcarries
      listening := fun _ h => absurd h List.not_mem_nil
      sent_eq := rfl
      inbox_eq := by rw [hinbox]; exact (List.append_nil _).symm
      ok_iff := fun m => ⟨(fun h => nomatch h), fun h => absurd h.1 List.not_mem_nil⟩
      fault_eq := rfl
      unsent := fun _ => rfl }

/-! ## The next message -/

/-- What asking for the next message comes to. -/
structure Passed (c : Connection (Watched σ)) (result : Except (Stop RpcError) (Option Members))
    (c' : Connection (Watched σ)) (t : Traffic) : Prop extends Hears c result c' t where
  /-- It is the first of the messages kept and those read. -/
  head_eq :
    result.toOption.join = (c.inbox ++ t.read.filter (·.has "method")).head?
  inbox_eq : c'.inbox = (c.inbox ++ t.read.filter (·.has "method")).tail
  /-- A response that was read is dropped. -/
  dropped : ∀ m ∈ t.read, m.has "method" = false → result = .ok none

omit [Peer σ] in
theorem Passed.sent_eq {c d : Connection (Watched σ)}
    {result : Except (Stop RpcError) (Option Members)} {t : Traffic} (h : Passed c result d t) :
    d.sent = c.sent := by
  rw [h.carries.sent_eq, h.carries.sent_eq_nil h.listening, List.append_nil]

omit [Peer σ] in
theorem Passed.remarked {c d : Connection (Watched σ)}
    {result : Except (Stop RpcError) (Option Members)} {t : Traffic} (h : Passed c result d t)
    (level : Level) (text : Text) :
    Passed c result { d with journal := d.journal ++ [.remark level text] } t :=
  { h with carries := h.carries.remarked level text }

theorem next_passed (c : Connection (Watched σ)) :
    ∃ t, Passed c (next c).1 (next c).2 t := by
  obtain ⟨t, ht⟩ := listens_next c
  suffices h : (next c).1.toOption.join = (c.inbox ++ t.read.filter (·.has "method")).head? ∧
      (next c).2.inbox = (c.inbox ++ t.read.filter (·.has "method")).tail ∧
      ∀ m ∈ t.read, m.has "method" = false → (next c).1 = .ok none from
    ⟨t, ht, h.1, h.2.1, h.2.2⟩
  cases hinbox : c.inbox with
  | cons m rest =>
      rw [next_of_cons hinbox] at ht ⊢
      -- nothing is read while there are messages to take
      have hread : t.read = [] := ht.carries.read_eq (List.append_nil _).symm
      rw [hread]
      exact ⟨rfl, by simp, fun m hm => absurd hm List.not_mem_nil⟩
  | nil =>
      have hstep := next_step c
      rcases hnext : next c with ⟨result, c'⟩
      rw [hnext] at ht
      simp only [perform, hnext] at hstep ⊢
      generalize houtcome :
        Outcome.of (fun message : Option Members => message.elim .nothing .returned) result =
          outcome at hstep
      cases hstep with
      | idle hidle h =>
          rw [ht.carries.read_eq h.received_eq, h.inbox_eq, hinbox]
          refine ⟨?_, rfl, fun m hm => absurd hm List.not_mem_nil⟩
          rcases result with stop | (_ | m)
          · rfl
          · rfl
          · rw [← houtcome] at hidle
            cases hidle
      | kept hawaits | answered hawaits | refused hawaits => cases hawaits
      | taken _ hcons => rw [hinbox] at hcons; cases hcons
      | @passed m _ _ _ hmethod h =>
          rw [ht.carries.read_eq h.received_eq, h.inbox_eq]
          obtain rfl : result = .ok (some m) := by
            rcases result with stop | (_ | m')
            · cases houtcome
            · cases houtcome
            · cases houtcome
              rfl
          refine ⟨by simp [hmethod, Except.toOption], by simp [hmethod], fun m' hm' hnone => ?_⟩
          rw [List.mem_singleton.mp hm', hmethod] at hnone
          cases hnone
      | @dropped m _ _ _ hmethod h =>
          rw [ht.carries.read_eq h.received_eq, h.inbox_eq]
          obtain rfl : result = .ok none := by
            rcases result with stop | (_ | m')
            · cases houtcome
            · rfl
            · cases houtcome
          exact ⟨by simp [hmethod, Except.toOption], by simp [hmethod], fun _ _ _ => rfl⟩

end LanguageClient.Connection
