import LanguageClient.Proofs.Client.History

/-!
# The lifecycle of a session

What a client writes over its whole life follows a grammar, whatever is called and whatever fails in
between:

```text
initialize*  ( nothing | initialized ( didOpen | didChange | didClose | didChangeConfiguration
                                       | hover | shutdown )* )
```

Main statement: `run_speaks`, which also says that nothing is written once the session is over.

## Strategy

A call moves the client from phase to phase and lets out at most one method.  The few ways in which
this happens are an automaton (`Progress`), and what has been written so far is a word that fits the
phase (`Spoken`).
-/

namespace LanguageClient

/-- The method is only written while a session is open. -/
def Method.isWork : Method → Bool
  | shutdown | didChangeConfiguration | didOpen | didChange | didClose | hover => true
  | handshake | initialized | showMessage | logMessage | publishDiagnostics => false

/-- The method may be written in the phase. -/
inductive Phase.Allows : Phase → Method → Prop
  | handshake {phase : Phase} (hphase : phase = .uninitialized ∨ phase = .initializing) :
      Allows phase .handshake
  | initialized {phase : Phase} (hphase : phase = .initializing) : Allows phase .initialized
  | work {phase : Phase} {method : Method} (hphase : phase = .initialized)
      (hmethod : method.isWork = true) : Allows phase method

/-- No method is written in a phase after the session. -/
theorem Phase.Allows.ne {phase : Phase} {method : Method} (h : phase.Allows method) :
    phase ≠ .shuttingDown ∧ phase ≠ .closed := by
  cases h with
  | handshake hphase => rcases hphase with rfl | rfl <;> decide
  | initialized hphase | work hphase => rw [hphase]; decide

namespace Client

open LanguageClient.Connection

/-- The method by which the call says what it has to say. -/
def Call.method? : Call → Option Method
  | handshake _ => some .handshake
  | confirm => some .initialized
  | shutdown => some .shutdown
  | changeConfiguration _ => some .didChangeConfiguration
  | openDocument .. => some .didOpen
  | changeDocument .. => some .didChange
  | closeDocument _ => some .didClose
  | hover .. => some .hover
  | close | poll | takeId => none

variable {σ : Type} [Peer σ]

/-! ## From phase to phase -/

/-- How a call moves a client from phase to phase, and which methods it lets out. -/
inductive Progress (call : Call) (result : Except (Stop ClientError) Answer) :
    Phase → Phase → List Method → Prop
  | idle (phase : Phase) : Progress call result phase phase []
  | handshake {params : Payload} {phase : Phase} {methods : List Method}
      (hcall : call = .handshake params) (hphase : phase = .uninitialized ∨ phase = .initializing)
      (hmethods : methods = [] ∨ methods = [.handshake]) :
      Progress call result phase .initializing methods
  | confirm (hcall : call = .confirm) (hresult : result = .ok .done) :
      Progress call result .initializing .initialized [.initialized]
  | work {method : Method} (hmethod : method.isWork = true) :
      Progress call result .initialized .initialized [method]
  | shutdown (hcall : call = .shutdown) (hresult : result = .ok .done) :
      Progress call result .initialized .shuttingDown [.shutdown]
  | close (hcall : call = .close) (phase : Phase) : Progress call result phase .closed []

section

variable {c c' : Client (Watched σ)} {call : Call} {result : Except (Stop ClientError) Answer}
  {method : Method} {params : Json}

/-- What a call says, it says by its own method, in a phase that allows it. -/
theorem allows_of_says? (h : c.says? call = some (method, params)) :
    call.method? = some method ∧ c.phase.Allows method := by
  unfold says? at h
  cases call with
  | handshake =>
      dsimp only at h
      split at h
      · rename_i hphase
        cases h
        exact ⟨rfl, .handshake hphase⟩
      · cases h
  | confirm =>
      dsimp only at h
      split at h
      · rename_i hguard
        cases h
        exact ⟨rfl, .initialized hguard.2⟩
      · cases h
  | shutdown | changeConfiguration =>
      dsimp only at h
      split at h
      · rename_i hopen
        cases h
        exact ⟨rfl, .work hopen.2 rfl⟩
      · cases h
  | openDocument | changeDocument | closeDocument =>
      dsimp only at h
      split at h
      · rename_i hopen
        obtain ⟨p, -, hp⟩ := Option.map_eq_some_iff.mp h
        cases hp
        exact ⟨rfl, .work hopen.2 rfl⟩
      · cases h
  | hover =>
      dsimp only at h
      split at h
      · rename_i hguard
        obtain ⟨p, -, hp⟩ := Option.map_eq_some_iff.mp h
        cases hp
        exact ⟨rfl, .work hguard.1.2 rfl⟩
      · cases h
  | close | poll | takeId => cases h

/-- The methods of some messages are these. -/
def SaysMethods (messages : List Members) (methods : List Method) : Prop :=
  messages.map (·.get? "method") = methods.map fun method => some (.str method.wireName)

omit [Peer σ] in
theorem saysMethods_nil : SaysMethods [] [] := rfl

omit [Peer σ] in
theorem saysMethods_message (c : Client σ) (call : Call) (method : Method) (params : Json) :
    SaysMethods [c.message call method params] [method] := by
  unfold SaysMethods message
  cases call.isRequest <;> rfl

theorem progress_of_told (hspeaks : c.says? call = some (method, params))
    (hkind : call.isRequest = false) :
    Progress call (.ok .done) c.phase (c.told call).phase [method] := by
  obtain ⟨hmethod, hallows⟩ := allows_of_says? hspeaks
  cases hallows with
  | handshake =>
      cases call with
      | handshake => cases hkind
      | _ => cases hmethod
  | initialized hphase =>
      cases call with
      | confirm => exact hphase ▸ .confirm rfl rfl
      | _ => cases hmethod
  | work hphase hwork =>
      have htold : c.told call = c := by
        cases call with
        | confirm => cases hmethod; cases hwork
        | _ => rfl
      rw [htold, hphase]
      exact .work hwork

theorem progress_of_asked {response : ReadResult} {d : Connection (Watched σ)}
    {outcome : WriteOutcome} {t : Traffic} (hspeaks : c.says? call = some (method, params))
    (hkind : call.isRequest = true)
    (hcalled : Called (.int c.nextId) method.wireName params c.connection response d outcome t) :
    Progress call (call.conclusion response) c.phase
      ((c.asked call).concluded call response).phase
      (if outcome.isAccepted then [method] else []) := by
  obtain ⟨hmethod, hallows⟩ := allows_of_says? hspeaks
  have hlearned := (c.asked call).concluded_cases call response
  cases hallows with
  | handshake hphase =>
      obtain ⟨first, rfl⟩ : ∃ first, call = .handshake first := by
        cases call with
        | handshake first => exact ⟨first, rfl⟩
        | _ => cases hmethod
      -- whatever the response says, the phase is that of a session about to be opened
      have hafter : ((c.asked (.handshake first)).concluded (.handshake first) response).phase =
          .initializing := by
        rcases hlearned with h | ⟨_, _, _, _, _, _, h⟩ | ⟨hcall, _⟩
        · rw [h]; rfl
        · rw [h]; rfl
        · cases hcall
      rw [hafter]
      refine .handshake rfl hphase ?_
      cases outcome.isAccepted with
      | true => exact Or.inr rfl
      | false => exact Or.inl rfl
  | initialized =>
      cases call with
      | confirm => cases hkind
      | _ => cases hmethod
  | work hphase hwork =>
      have hasked : (c.asked call).phase = .initialized := by
        cases call with
        | handshake => cases hmethod; cases hwork
        | _ => exact hphase
      rcases hlearned with h | ⟨_, _, _, rfl, _⟩ | ⟨rfl, hdone, h⟩
      · rw [h, hasked, hphase]
        cases outcome.isAccepted with
        | true => exact .work hwork
        | false => exact .idle _
      · cases hmethod
        cases hwork
      · -- only a request that went out has been answered
        obtain ⟨m, rfl⟩ : ∃ m, response = .ok m := by
          rcases response with (e | f) | m
          · cases hdone
          · cases hdone
          · exact ⟨m, rfl⟩
        cases hmethod
        rw [h, hphase, hcalled.isAccepted_of_ok]
        exact .shutdown rfl hdone

theorem close_phase (c : Client (Watched σ)) : c.close.phase = .closed := by
  unfold close
  by_cases hclosed : c.phase = .closed
  · rw [if_pos hclosed]
    exact hclosed
  · rw [if_neg hclosed]

/-- **A call makes progress in the lifecycle.** -/
theorem Did.progress (h : Did c call result c') :
    ∃ messages methods, c'.connection.sent = c.connection.sent ++ messages ∧
      SaysMethods messages methods ∧ Progress call result c.phase c'.phase methods := by
  have hidle : ∀ {c' : Client (Watched σ)}, c'.connection.sent = c.connection.sent →
      c'.phase = c.phase → ∃ messages methods,
        c'.connection.sent = c.connection.sent ++ messages ∧ SaysMethods messages methods ∧
          Progress call result c.phase c'.phase methods := fun hsent hphase =>
    ⟨[], [], by rw [hsent, List.append_nil], saysMethods_nil, hphase ▸ .idle _⟩
  cases h with
  | refused | unnamed | numbered => exact hidle rfl rfl
  | told hspeaks hkind houtcome hcarries =>
      have hsent := sent_of_told hkind hcarries
      rw [houtcome] at hsent
      exact ⟨_, _, hsent, saysMethods_message .., progress_of_told hspeaks hkind⟩
  | untold _ hkind houtcome hcarries =>
      have hsent := sent_of_told hkind hcarries
      rw [houtcome] at hsent
      exact hidle (hsent.trans (List.append_nil _)) rfl
  | @asked _ _ _ _ outcome _ hspeaks hkind hcalled =>
      refine ⟨_, _, sent_of_asked hkind hcalled, ?_, progress_of_asked hspeaks hkind hcalled⟩
      cases outcome.isAccepted with
      | true => exact saysMethods_message ..
      | false => exact saysMethods_nil
  | polled hcall hopen hpassed => exact hidle hpassed.sent_eq rfl
  | closed hcall =>
      refine ⟨[], [], ?_, saysMethods_nil, c.close_phase ▸ .close hcall _⟩
      rw [c.close_sent, List.append_nil]

end

/-! ## What has been said -/

/-- First requests, and possibly that the session is open and then only work. -/
def IsWord (methods : List Method) : Prop :=
  ∃ n work, methods = List.replicate n .handshake ++ work ∧
    (work = [] ∨ ∃ later, work = .initialized :: later ∧ ∀ method ∈ later, method.isWork = true)

/-- The words that can have been said in a phase. -/
def Spoken (methods : List Method) : Phase → Prop
  | .uninitialized => methods = []
  | .initializing => ∃ n, methods = List.replicate n .handshake
  | .initialized | .shuttingDown =>
    ∃ n later, methods = List.replicate n .handshake ++ .initialized :: later ∧
      ∀ method ∈ later, method.isWork = true
  | .closed => IsWord methods

theorem Spoken.isWord {methods : List Method} {phase : Phase} (h : Spoken methods phase) :
    IsWord methods := by
  cases phase with
  | uninitialized =>
      obtain rfl : methods = [] := h
      exact ⟨0, [], rfl, Or.inl rfl⟩
  | initializing =>
      obtain ⟨n, rfl⟩ := h
      exact ⟨n, [], (List.append_nil _).symm, Or.inl rfl⟩
  | initialized | shuttingDown =>
      obtain ⟨n, later, rfl, hwork⟩ := h
      exact ⟨n, _, rfl, Or.inr ⟨later, rfl, hwork⟩⟩
  | closed => exact h

theorem Spoken.append_work {methods : List Method} {method : Method}
    (h : Spoken methods .initialized) (hmethod : method.isWork = true) :
    Spoken (methods ++ [method]) .initialized := by
  obtain ⟨n, later, rfl, hlater⟩ := h
  refine ⟨n, later ++ [method], List.append_assoc .., fun next hmem => ?_⟩
  rcases List.mem_append.mp hmem with hmem | hmem
  · exact hlater next hmem
  · rw [List.mem_singleton.mp hmem]
    exact hmethod

/-- **What is said next fits what has been said.** -/
theorem Spoken.progress {call : Call} {result : Except (Stop ClientError) Answer}
    {phase phase' : Phase} {methods next : List Method} (h : Spoken methods phase)
    (hprogress : Progress call result phase phase' next) : Spoken (methods ++ next) phase' := by
  cases hprogress with
  | idle =>
      rw [List.append_nil]
      exact h
  | handshake _ hphase hnext =>
      obtain ⟨n, rfl⟩ : ∃ n, methods = List.replicate n .handshake := by
        rcases hphase with rfl | rfl
        · exact ⟨0, h⟩
        · exact h
      rcases hnext with rfl | rfl
      · exact ⟨n, List.append_nil _⟩
      · exact ⟨n + 1, List.replicate_succ'.symm⟩
  | confirm =>
      obtain ⟨n, rfl⟩ := h
      exact ⟨n, [], rfl, fun _ hmem => absurd hmem List.not_mem_nil⟩
  | work hwork => exact h.append_work hwork
  | shutdown => exact h.append_work rfl
  | close =>
      rw [List.append_nil]
      exact h.isWord

/-- What the client has said fits its phase. -/
def Speaks (c : Client (Watched σ)) : Prop :=
  ∃ methods, SaysMethods c.connection.sent methods ∧ Spoken methods c.phase

theorem speaks_stable : Stable (Speaks (σ := σ)) := by
  refine ⟨fun e hhappens ⟨methods, hspeaks, hspoken⟩ => ?_, fun c change h => h⟩
  obtain ⟨messages, next, hsent, hnext, hprogress⟩ := hhappens.progress
  refine ⟨methods ++ next, ?_, hspoken.progress hprogress⟩
  rw [SaysMethods, hsent, List.map_append, List.map_append, hspeaks, hnext]

/-! ## The end of a session -/

/-- The event ends the session. -/
def Event.Ends (e : Event σ) : Prop :=
  e.call = .shutdown ∧ e.result = .ok .done ∨ e.call = .close

/-- The session is over. -/
def IsOver (c : Client (Watched σ)) : Prop := c.phase = .shuttingDown ∨ c.phase = .closed

theorem Progress.of_over {call : Call} {result : Except (Stop ClientError) Answer}
    {phase phase' : Phase} {methods : List Method} (h : Progress call result phase phase' methods)
    (hover : phase = .shuttingDown ∨ phase = .closed) : phase' = phase ∨ phase' = .closed := by
  cases h with
  | idle => exact Or.inl rfl
  | handshake _ hphase =>
      rcases hover with rfl | rfl <;> rcases hphase with hphase | hphase <;> cases hphase
  | confirm | work | shutdown => rcases hover with hover | hover <;> cases hover
  | close => exact Or.inr rfl

theorem Did.phase_of_shutdown {c c' : Client (Watched σ)} {call : Call}
    {result : Except (Stop ClientError) Answer} (h : Did c call result c')
    (hcall : call = .shutdown) (hresult : result = .ok .done) : c'.phase = .shuttingDown := by
  cases h with
  | refused | unnamed | untold => cases hresult
  | told _ hkind => rw [hcall] at hkind; cases hkind
  | @asked method params response d =>
      subst hcall
      rcases response with (e | f) | m
      · cases hresult
      · cases hresult
      · show ((c.asked .shutdown).learned m .shutdown).phase = _
        rw [learned]
        cases hverdict : Call.shutdown.verdict m with
        | error cause => rw [Call.conclusion, hverdict] at hresult; cases hresult
        | ok answer => rfl
  | polled hpoll | closed hpoll | numbered hpoll => rw [hcall] at hpoll; cases hpoll

theorem Did.phase_of_close {c c' : Client (Watched σ)} {call : Call}
    {result : Except (Stop ClientError) Answer} (h : Did c call result c')
    (hcall : call = .close) : c'.phase = .closed := by
  rw [(h.closed_inv hcall).2]
  exact c.close_phase

theorem isOver_stable : Stable (IsOver (σ := σ)) := by
  refine ⟨fun e hhappens h => ?_, fun c change h => h⟩
  obtain ⟨_, _, -, -, hprogress⟩ := hhappens.progress
  rcases hprogress.of_over h with hsame | hclosed
  · rw [IsOver, hsame]
    exact h
  · exact Or.inr hclosed

theorem closed_stable : Stable fun c : Client (Watched σ) => c.phase = .closed := by
  refine ⟨fun e hhappens h => ?_, fun c change h => h⟩
  obtain ⟨_, _, -, -, hprogress⟩ := hhappens.progress
  rcases hprogress.of_over (Or.inr h) with hsame | hclosed
  · exact hsame.trans h
  · exact hclosed

theorem says?_of_isOver {c : Client (Watched σ)} (h : IsOver c) (call : Call) :
    c.says? call = none := by
  cases hspeaks : c.says? call with
  | none => rfl
  | some said =>
      obtain ⟨method, params⟩ := said
      obtain ⟨hshuttingDown, hclosed⟩ := (allows_of_says? hspeaks).2.ne
      rcases h with h | h
      · exact absurd h hshuttingDown
      · exact absurd h hclosed

/-- **The grammar of a session.**  Whatever is called, and whatever the server does: the messages that
reach the server are, by their methods, first requests, and possibly that the session is open and
then only work.  Once a shutdown has succeeded or the client has been closed, no later call writes,
and none reads but asking for an event, which reads nothing once the client is closed. -/
theorem run_speaks (peer : σ) (processId : Nat) (workingDirectory : Text)
    (pollTimeout : Binary64) (cycles : Int) (steps : List (Step σ)) :
    let run := run peer processId workingDirectory pollTimeout cycles steps
    run.2.connection.peer.contacts.filterMap Contact.accepted? =
      run.2.connection.sent.map (fun m => Frame.encode (.obj m)) ∧
    (∃ methods, SaysMethods run.2.connection.sent methods ∧ IsWord methods) ∧
    run.1.Pairwise fun e e' => e.Ends →
      e'.writes = [] ∧ (e'.call ≠ .poll ∨ e.call = .close → e'.reads = []) := by
  intro run
  obtain ⟨-, hdelivered⟩ := delivered_stable.history
    (c := attach (.of peer) processId workingDirectory pollTimeout cycles) rfl steps
  obtain ⟨-, methods, hspeaks, hspoken⟩ := speaks_stable.history
    (c := attach (.of peer) processId workingDirectory pollTimeout cycles) ⟨[], rfl, rfl⟩ steps
  refine ⟨hdelivered, ⟨methods, hspeaks, hspoken.isWord⟩, ?_⟩
  refine history_pairwise (fun e hhappens => ?_) _ steps
  by_cases hends : e.Ends
  -- that the session is over, and how, stays so
  · refine ⟨fun c => IsOver c ∧ (e.call = .close → c.phase = .closed), ⟨?_, ?_⟩, ?_, ?_⟩
    · exact fun e' hhappens' h => ⟨isOver_stable.call e' hhappens' h.1,
        fun hclose => closed_stable.call e' hhappens' (h.2 hclose)⟩
    · exact fun c change h => h
    · rcases hends with ⟨hcall, hresult⟩ | hclose
      · refine ⟨Or.inl (hhappens.phase_of_shutdown hcall hresult), fun hclose => ?_⟩
        rw [hcall] at hclose
        cases hclose
      · have hphase := hhappens.phase_of_close hclose
        exact ⟨Or.inr hphase, fun _ => hphase⟩
    · intro e' hhappens' ⟨hover, hclosed⟩ _
      have hspeaks := says?_of_isOver hover e'.call
      refine ⟨Event.writes_eq_nil hhappens' hspeaks, fun hreads => ?_⟩
      refine Event.reads_eq_nil hhappens' hspeaks fun hpoll => ?_
      rcases hreads with hnot | hclose
      · exact absurd hpoll hnot
      · exact hclosed hclose
  · exact ⟨fun _ => True, ⟨fun _ _ _ => trivial, fun _ _ _ => trivial⟩, trivial,
      fun _ _ _ h => absurd h hends⟩

end Client

end LanguageClient
