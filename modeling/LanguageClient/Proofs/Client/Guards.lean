import LanguageClient.Proofs.Client.Phases

/-!
# The guards of the calls

Most calls look at the client before they do anything.  What they may find is said by `refusal?`, in
the order in which they look.  Main statement: `run_guarded`.

```text
the first request           the phase
that the session is open    the server runs, the phase
work                        the server runs, the phase
hovers                      the server runs, it answers hovers, the phase
```

## Strategy

A call that is refused stops at its first step, so nothing has happened (`perform_of_refusal?`).  A
call that is past its guards may still fail, but with an error of the exchange or of the answer; no
such error says what a guard says (`isRefusal_of_admitted`).  That hovers are answered is what the
last first request was told before the call, and the events before a call are a run of their own
(`history_split`).
-/

namespace LanguageClient

/-- The error is one that a guard gives. -/
def ClientError.isRefusal : ClientError → Bool
  | crashed | notInitialized _ | hoverUnavailable => true
  | handshake (.phase _) | confirmation (.phase _) => true
  | _ => false

namespace Client

open LanguageClient.Connection

variable {σ : Type}

/-! ## Guards -/

/-- What a guard gives. -/
def demand (holds : Prop) [Decidable holds] (error : ClientError) : Option ClientError :=
  if holds then none else some error

section

variable {holds : Prop} [Decidable holds] {error error' : ClientError}

@[simp] theorem demand_eq_none : demand holds error = none ↔ holds := by
  unfold demand
  split <;> simp_all

@[simp] theorem demand_eq_some : demand holds error = some error' ↔ ¬holds ∧ error' = error := by
  unfold demand
  split <;> simp_all [eq_comm]

end

variable [Peer σ]

/-- What stands in the way of work, if anything does. -/
def unready? (c : Client σ) (method : Method) : Option ClientError :=
  (demand (c.isRunning = true) .crashed).or
    (demand (c.phase = .initialized) (.notInitialized method.wireName))

/-- What the guards of a call find, if they find anything. -/
def refusal? (c : Client σ) : Call → Option ClientError
  | .handshake _ =>
    demand (c.phase = .uninitialized ∨ c.phase = .initializing) (.handshake (.phase c.phase))
  | .confirm =>
    (demand (c.isRunning = true) .crashed).or
      (demand (c.phase = .initializing) (.confirmation (.phase c.phase)))
  | .hover _ _ =>
    (demand (c.isRunning = true) .crashed).or
      ((demand (c.offersHover = true) .hoverUnavailable).or (c.unready? .hover))
  | call => call.method?.bind c.unready?

theorem unready?_eq_none {c : Client σ} {method : Method} :
    c.unready? method = none ↔ c.isOpen := by
  simp [unready?, isOpen]

theorem unready?_eq_some {c : Client σ} {method : Method} {error : ClientError} :
    c.unready? method = some error ↔
      c.isRunning = false ∧ error = .crashed ∨
        c.isRunning = true ∧ c.phase ≠ .initialized ∧ error = .notInitialized method.wireName := by
  simp [unready?, Option.or_eq_some_iff]

theorem isRefusal_of_unready? {c : Client σ} {method : Method} {error : ClientError}
    (h : c.unready? method = some error) : error.isRefusal = true := by
  rcases unready?_eq_some.mp h with ⟨-, rfl⟩ | ⟨-, -, rfl⟩ <;> rfl

/-- What a guard gives says so. -/
theorem isRefusal_of_refusal? {c : Client σ} {call : Call} {error : ClientError}
    (h : c.refusal? call = some error) : error.isRefusal = true := by
  have hdemand : ∀ {holds : Prop} [Decidable holds] {given : ClientError},
      given.isRefusal = true → demand holds given = some error → error.isRefusal = true := by
    intro holds _ given hgiven hdemand
    rw [(demand_eq_some.mp hdemand).2]
    exact hgiven
  cases call with
  | handshake params => exact hdemand rfl h
  | confirm =>
      rcases Option.or_eq_some_iff.mp h with h | ⟨-, h⟩
      · exact hdemand rfl h
      · exact hdemand rfl h
  | hover path place =>
      rcases Option.or_eq_some_iff.mp h with h | ⟨-, h⟩
      · exact hdemand rfl h
      · rcases Option.or_eq_some_iff.mp h with h | ⟨-, h⟩
        · exact hdemand rfl h
        · exact isRefusal_of_unready? h
  | close | poll | takeId => cases h
  | _ => exact isRefusal_of_unready? h

/-! ## Calls that are refused -/

theorem checkReady_of_unready? {c : Client σ} {method : Method} {error : ClientError}
    (h : c.unready? method = some error) :
    checkReady method.wireName c = (.error (.failed error), c) := by
  unfold checkReady
  rcases unready?_eq_some.mp h with ⟨hrunning, rfl⟩ | ⟨hrunning, hphase, rfl⟩
  · simp [Attempt.bind_apply, hrunning]
  · simp [Attempt.bind_apply, hrunning, hphase]

theorem notify_of_unready? {c : Client σ} {method : Method} {error : ClientError}
    (h : c.unready? method = some error) (params : Payload) :
    notify method params c = (.error (.failed error), c) :=
  Attempt.bind_of_error (checkReady_of_unready? h) _

/-- A call that tells something of a document names the document first. -/
theorem told_of_unready? {c : Client σ} {method : Method} {error : ClientError}
    (h : c.unready? method = some error) {path : Text} {uri : Payload}
    (huri : c.uri? path = some uri) (build : Payload → Payload) :
    (documentUri path >>= fun uri => notify method (build uri)) c = (.error (.failed error), c) := by
  rw [Attempt.bind_of_ok (documentUri_of_some huri)]
  exact notify_of_unready? h _

theorem hover_of_refusal? {c : Client σ} {path : Text} {place : BufferPosition}
    {error : ClientError} (h : c.refusal? (.hover path place) = some error) :
    hover path place c = (.error (.failed error), c) := by
  unfold hover
  rw [Attempt.bind_of_ok (Attempt.get_apply c)]
  rcases Option.or_eq_some_iff.mp h with hdead | ⟨hrunning, h⟩
  · obtain ⟨hrunning, rfl⟩ := demand_eq_some.mp hdead
    simp [Attempt.bind_apply, hrunning]
  · have hrunning : c.isRunning = true := demand_eq_none.mp hrunning
    rcases Option.or_eq_some_iff.mp h with hunable | ⟨hoffers, hunready⟩
    · obtain ⟨hoffers, rfl⟩ := demand_eq_some.mp hunable
      simp [Attempt.bind_apply, hrunning, hoffers]
    · have hoffers : c.offersHover = true := demand_eq_none.mp hoffers
      simp [Attempt.bind_apply, hrunning, hoffers, checkReady_of_unready? hunready]

theorem confirm_of_refusal? {c : Client σ} {error : ClientError}
    (h : c.refusal? .confirm = some error) : confirm c = (.error (.failed error), c) := by
  unfold confirm
  rw [Attempt.bind_of_ok (Attempt.get_apply c)]
  rcases Option.or_eq_some_iff.mp h with hdead | ⟨hrunning, h⟩
  · obtain ⟨hrunning, rfl⟩ := demand_eq_some.mp hdead
    simp [Attempt.bind_apply, hrunning]
  · have hrunning : c.isRunning = true := demand_eq_none.mp hrunning
    obtain ⟨hphase, rfl⟩ := demand_eq_some.mp h
    simp [Attempt.bind_apply, hrunning, hphase]

/-- **A call that is refused has done nothing**, unless its document has to be named first and has no
name. -/
theorem perform_of_refusal? {c : Client σ} {call : Call} {error : ClientError}
    (h : c.refusal? call = some error) (hnamed : ¬c.TellsUnnamed call) :
    c.perform call = (.error (.failed error), c) := by
  have huri : call.isRequest = false → ∀ path, call.path? = some path →
      ∃ uri, c.uri? path = some uri := fun hkind path hpath => by
    by_contra hnone
    exact hnamed ⟨hkind, path, hpath, Option.eq_none_iff_forall_ne_some.mpr fun uri huri =>
      hnone ⟨uri, huri⟩⟩
  cases call with
  | handshake params =>
      obtain ⟨hphase, rfl⟩ := demand_eq_some.mp h
      have hguard : c.phase ≠ .uninitialized ∧ c.phase ≠ .initializing := not_or.mp hphase
      simp only [perform, handshake, Attempt.bind_apply, Attempt.get_apply, if_pos hguard]
      rfl
  | confirm => exact congrArg (outcomeOf _) (confirm_of_refusal? h)
  | shutdown => exact congrArg (outcomeOf _) (Attempt.bind_of_error (checkReady_of_unready? h) _)
  | changeConfiguration settings => exact congrArg (outcomeOf _) (notify_of_unready? h _)
  | openDocument path | changeDocument _ path | closeDocument path =>
      obtain ⟨uri, huri⟩ := huri rfl path rfl
      exact congrArg (outcomeOf _) (told_of_unready? h huri _)
  | hover path place => exact congrArg (outcomeOf _) (hover_of_refusal? h)
  | close | poll | takeId => cases h

/-! ## Calls that are past their guards -/

/-- What there is to tell is told, or it does not go out. -/
theorem isRefusal_of_notify {c : Client (Watched σ)} (h : c.isOpen) {method : Method}
    {params : Payload} {error : ClientError}
    (hresult : (notify method params c).1 = .error (.failed error)) : error.isRefusal = false := by
  unfold notify at hresult
  rw [Attempt.bind_of_ok (checkReady_of_open h _)] at hresult
  obtain ⟨outcome, d, -, -, ⟨-, hsend⟩ | ⟨-, e, hsend⟩⟩ :=
    exchange_notify method.wireName params.encode c
  · rw [Attempt.bind_of_ok hsend] at hresult
    cases hresult
  · rw [Attempt.bind_of_ok hsend] at hresult
    cases hresult
    rfl

theorem isRefusal_of_told {c : Client (Watched σ)} (h : c.isOpen) {method : Method} {path : Text}
    (build : Payload → Payload) {error : ClientError}
    (hresult : ((documentUri path >>= fun uri => notify method (build uri)) c).1 =
      .error (.failed error)) : error.isRefusal = false := by
  cases huri : c.uri? path with
  | none =>
      obtain ⟨e, hdocument⟩ := documentUri_of_none huri
      rw [Attempt.bind_of_error hdocument] at hresult
      cases hresult
  | some uri =>
      rw [Attempt.bind_of_ok (documentUri_of_some huri)] at hresult
      exact isRefusal_of_notify h hresult

omit [Peer σ] in
theorem accepted_ne_phase {m : Members} {phase : Phase} :
    accepted (.ok m) ≠ .error (.phase phase) := by
  unfold accepted
  dsimp only
  split
  · split <;> exact nofun
  · exact nofun

omit [Peer σ] in
/-- A response is not turned down for the phase of the client. -/
theorem verdict_ne_phase {call : Call} {m : Members} {phase : Phase} :
    call.verdict m ≠ .error (.phase phase) := by
  -- what is made of an accepted response fails by causes of its own
  have hmade : ∀ {α β γ : Type} (found : Except γ α) {wrap : γ → Cause} {answer : α → β},
      (∀ e, wrap e ≠ .phase phase) →
        (found.mapError wrap).map answer ≠ .error (.phase phase) := by
    intro α β γ found wrap answer hwrap h
    cases found with
    | ok a => cases h
    | error e => exact hwrap e (Except.error.inj h)
  cases haccepted : accepted (.ok m) with
  | error cause =>
      intro h
      have hcause : call.verdict m = .error cause := by
        cases call with
        | handshake => simp only [Call.verdict, handshakeResult, haccepted]; rfl
        | _ => simp only [Call.verdict, haccepted]
      rw [hcause] at h
      cases h
      exact accepted_ne_phase haccepted
  | ok m' =>
      cases call with
      | _ =>
        simp only [Call.verdict, handshakeResult, haccepted]
        refine hmade _ fun _ h => ?_
        cases h

/-- What comes of asking is no refusal. -/
theorem isRefusal_of_conclusion {call : Call} (hkind : call.isRequest = true) {response : ReadResult}
    {error : ClientError} (h : call.conclusion response = .error (.failed error)) :
    error.isRefusal = false := by
  have hcause : ∀ {cause : Cause}, (∀ phase, cause ≠ .phase phase) →
      (call.failure cause).isRefusal = false := by
    intro cause hcause
    cases call with
    | handshake => cases cause with
      | phase phase => exact absurd rfl (hcause phase)
      | _ => rfl
    | shutdown | hover => rfl
    | _ => cases hkind
  rcases response with (e | f) | m
  · cases h
    exact hcause nofun
  · cases h
  · rw [Call.conclusion] at h
    cases hverdict : call.verdict m with
    | ok answer => rw [hverdict] at h; cases h
    | error cause =>
        rw [hverdict] at h
        cases h
        exact hcause fun phase hphase => verdict_ne_phase (hverdict.trans (congrArg _ hphase))

theorem hover_admitted {c : Client σ} {path : Text} {place : BufferPosition}
    (h : c.refusal? (.hover path place) = none) : c.isOpen ∧ c.offersHover = true := by
  obtain ⟨-, h⟩ := Option.or_eq_none_iff.mp h
  obtain ⟨hoffers, hready⟩ := Option.or_eq_none_iff.mp h
  exact ⟨unready?_eq_none.mp hready, demand_eq_none.mp hoffers⟩

/-- A document without a name cannot be asked about, and that is a fault. -/
theorem hover_of_unnamed {c : Client σ} {path : Text} {place : BufferPosition}
    (h : c.refusal? (.hover path place) = none) (huri : c.uri? path = none) :
    ∃ e, (hover path place c).1 = .error (.faulted (.notEncodable e)) := by
  obtain ⟨hopen, hoffers⟩ := hover_admitted h
  obtain ⟨e, hdocument⟩ := documentUri_of_none huri
  refine ⟨e, ?_⟩
  unfold hover
  rw [Attempt.bind_of_ok (Attempt.get_apply c)]
  simp [Attempt.bind_apply, hopen.1, hoffers, checkReady_of_open hopen, hdocument]

/-- A request that is past its guards is made, if its document has a name. -/
theorem says?_of_admitted {c : Client σ} {call : Call} (h : c.refusal? call = none)
    (hkind : call.isRequest = true) :
    (∃ method params, c.says? call = some (method, params)) ∨
      ∃ path place, call = .hover path place ∧ c.uri? path = none := by
  cases call with
  | handshake params => exact Or.inl ⟨_, _, if_pos (demand_eq_none.mp h)⟩
  | shutdown => exact Or.inl ⟨_, _, if_pos (unready?_eq_none.mp h)⟩
  | hover path place =>
      cases huri : c.uri? path with
      | none => exact Or.inr ⟨path, place, rfl, huri⟩
      | some uri =>
          obtain ⟨params, hparams⟩ : ∃ params, c.aboutDocument (.hover path place) = some params :=
            ⟨_, by rw [aboutDocument, huri]; rfl⟩
          exact Or.inl ⟨.hover, params.encode, by
            rw [says?, if_pos (hover_admitted h), hparams]; rfl⟩
  | _ => cases hkind

/-- **A call that is past its guards is not refused**, whatever comes of it. -/
theorem isRefusal_of_admitted {c : Client (Watched σ)} {call : Call} (h : c.refusal? call = none)
    (hpoll : call ≠ .poll) {error : ClientError}
    (hresult : (c.perform call).1 = .error (.failed error)) : error.isRefusal = false := by
  have hrequest : call.isRequest = true → error.isRefusal = false := by
    intro hkind
    rcases says?_of_admitted h hkind with ⟨method, params, hspeaks⟩ | ⟨path, place, rfl, huri⟩
    · obtain ⟨response, _, _, _, -, hconclusion, -⟩ := (perform_did c call).asked_inv hkind hspeaks
      exact isRefusal_of_conclusion hkind (hconclusion.symm.trans hresult)
    · obtain ⟨e, hfaulted⟩ := hover_of_unnamed h huri
      rw [perform, outcomeOf, hfaulted] at hresult
      cases hresult
  have hdone : ∀ {outcome : Except (Stop ClientError) Unit × Client (Watched σ)},
      (outcomeOf (fun _ => Answer.done) outcome).1 = .error (.failed error) →
        outcome.1 = .error (.failed error) := by
    rintro ⟨(stop | done), c'⟩ h
    · cases h; rfl
    · cases h
  cases call with
  | handshake | shutdown | hover => exact hrequest rfl
  | confirm =>
      obtain ⟨hrunning, hphase⟩ := Option.or_eq_none_iff.mp h
      have hrunning : c.isRunning = true := demand_eq_none.mp hrunning
      have hphase : c.phase = .initializing := demand_eq_none.mp hphase
      replace hresult := hdone hresult
      unfold confirm at hresult
      obtain ⟨_, _, -, -, ⟨-, hsend⟩ | ⟨-, e, hsend⟩⟩ :=
        exchange_notify Method.initialized.wireName (Layout.initializedParams.build []).encode c
      · simp [Attempt.bind_apply, hrunning, hphase, hsend] at hresult
      · simp [Attempt.bind_apply, hrunning, hphase, hsend] at hresult
        rw [← hresult]
        rfl
  | changeConfiguration settings =>
      exact isRefusal_of_notify (unready?_eq_none.mp h) (hdone hresult)
  | openDocument | changeDocument | closeDocument =>
      exact isRefusal_of_told (unready?_eq_none.mp h) _ (hdone hresult)
  | close | takeId => cases hresult
  | poll => exact absurd rfl hpoll

/-- Hovers are asked about only where they may be. -/
theorem offersHover_of_says? {c : Client (Watched σ)} {call : Call} {params : Json}
    (h : c.says? call = some (.hover, params)) : c.isOpen ∧ c.offersHover = true := by
  obtain ⟨hmethod, -⟩ := allows_of_says? h
  obtain ⟨path, place, rfl⟩ : ∃ path place, call = .hover path place := by
    cases call with
    | hover path place => exact ⟨path, place, rfl⟩
    | _ => cases hmethod
  by_contra hnot
  rw [says?, if_neg hnot] at h
  cases h

/-! ## What is written -/

namespace Event

variable {e : Event σ}

/-- What a call has to say it tries to write, once. -/
theorem writes_of_says? (h : e.Happens) {method : Method} {params : Json}
    (hspeaks : e.before.says? e.call = some (method, params)) :
    ∃ outcome, e.writes =
      [(Frame.encode (.obj (e.before.message e.call method params)), outcome)] := by
  cases hkind : e.call.isRequest with
  | true =>
      have hasks : e.asks? = some e.before.nextId := if_pos ⟨hkind, by rw [hspeaks]; rfl⟩
      obtain ⟨method', params', outcome, hspeaks', hwrites⟩ := (asksOnce_and_heeds h hasks).1
      obtain ⟨rfl, rfl⟩ := Prod.mk.inj (Option.some.inj (hspeaks.symm.trans hspeaks'))
      exact ⟨outcome, by rw [hwrites, message, hkind]; rfl⟩
  | false =>
      have hcarried : ∀ {outcome : WriteOutcome}, Carries e.before.connection e.after.connection
          (.write (outgoing none method.wireName params) outcome) →
          e.writes = [(Frame.encode (.obj (e.before.message e.call method params)), outcome)] := by
        intro outcome hcarries
        rw [writes, contacts_eq hcarries, message, hkind]
        rfl
      obtain ⟨call, before, result, after⟩ := e
      change Did before call result after at h
      dsimp only at hspeaks hkind hcarried
      cases h with
      | refused hnone | unnamed hnone => rw [hspeaks] at hnone; cases hnone
      | told hspeaks' _ _ hcarries | untold hspeaks' _ _ hcarries =>
          obtain ⟨rfl, rfl⟩ := Prod.mk.inj (Option.some.inj (hspeaks.symm.trans hspeaks'))
          exact ⟨_, hcarried hcarries⟩
      | asked _ hrequest => rw [hkind] at hrequest; cases hrequest
      | polled hcall | closed hcall | numbered hcall => rw [hcall] at hspeaks; cases hspeaks

end Event

/-! ## Runs -/

/-- What came before an event is a run of its own, and the event begins where it ends. -/
theorem history_split {c : Client (Watched σ)} {steps : List (Step σ)}
    {earlier later : List (Event σ)} {e : Event σ} (h : (c.history steps).1 = earlier ++ e :: later) :
    ∃ before, c.history before = (earlier, e.before) := by
  induction steps generalizing c earlier with
  | nil => exact absurd h.symm (List.append_ne_nil_of_right_ne_nil _ (List.cons_ne_nil _ _))
  | cons step steps ih =>
      cases step with
      | server change =>
          obtain ⟨before, hbefore⟩ := ih h
          exact ⟨.server change :: before, hbefore⟩
      | call call =>
          cases earlier with
          | nil => exact ⟨[], by rw [← (List.cons.inj h).1]; rfl⟩
          | cons first earlier =>
              obtain ⟨rfl, hrest⟩ := List.cons.inj h
              obtain ⟨before, hbefore⟩ := ih hrest
              exact ⟨.call call :: before, by rw [history, hbefore]⟩

/-- Hovers may be asked for: the server runs, the session is open, and the last first request that
succeeded earlier was told that hovers are answered. -/
structure Event.MayHover (e : Event σ) (earlier : List (Event σ)) : Prop where
  isRunning : e.before.isRunning = true
  phase : e.before.phase = .initialized
  promised : ∃ before greeting between, earlier = before ++ greeting :: between ∧
    greeting.Greets ∧ greeting.HearsOfHover ∧ ∀ e' ∈ between, ¬e'.Greets

/-- A client that takes hovers to be answered was told so by the last first request that succeeded. -/
theorem promised_of_offersHover {c : Client (Watched σ)} (hstart : c.offersHover = false)
    {steps : List (Step σ)} (h : (c.history steps).2.offersHover = true) :
    ∃ before greeting between, (c.history steps).1 = before ++ greeting :: between ∧
      greeting.Greets ∧ greeting.HearsOfHover ∧ ∀ e' ∈ between, ¬e'.Greets := by
  have hlatest := history_latest (P := fun c : Client (Watched σ) => c.offersHover = true)
    (fun e h => Event.offersHover_of_greets h)
    (fun e h hnot => by rw [Event.offersHover_of_not_greets h hnot]) (fun c change => Iff.rfl)
    c steps
  rcases hlatest.mp h with hpromised | ⟨-, hoffers⟩
  · exact hpromised
  · rw [hstart] at hoffers
    cases hoffers

/-- **The guards of a client.**  Whatever is called, and whatever the server does: a call writes
messages of its own method only, and it writes a hover request only if at that moment the server
runs, the session is open, and the last first request that succeeded was told that hovers are
answered.  A call is refused exactly for what its guards find, and in their order; a call that is
refused writes nothing, reads nothing, and leaves the client as it was, to the next id, the messages
kept and the bytes held back. -/
theorem run_guarded (peer : σ) (processId : Nat) (workingDirectory : Text)
    (pollTimeout : Binary64) (cycles : Int) (steps : List (Step σ)) :
    let run := run peer processId workingDirectory pollTimeout cycles steps
    (∀ earlier e later, run.1 = earlier ++ e :: later →
      ∀ bytes outcome, (bytes, outcome) ∈ e.writes →
        ∃ method params, e.call.method? = some method ∧
          bytes = Frame.encode (.obj (e.before.message e.call method params)) ∧
          (method = .hover → e.MayHover earlier)) ∧
    ∀ e ∈ run.1, e.call ≠ .poll → ¬e.before.TellsUnnamed e.call → ∀ error,
      (e.result = .error (.failed error) ∧ error.isRefusal = true ↔
        e.before.refusal? e.call = some error) ∧
      (e.before.refusal? e.call = some error → e.contacts = [] ∧ e.after = e.before) := by
  intro run
  constructor
  · intro earlier e later hsplit bytes outcome hwrites
    have hhappens : e.Happens := history_happens _ steps e (hsplit ▸ List.mem_append_cons_self)
    obtain ⟨⟨method, params⟩, hspeaks⟩ : ∃ said, e.before.says? e.call = some said := by
      by_contra hnone
      rw [Event.writes_eq_nil hhappens
        (Option.eq_none_iff_forall_ne_some.mpr fun said h => hnone ⟨said, h⟩)] at hwrites
      exact absurd hwrites List.not_mem_nil
    obtain ⟨outcome', honly⟩ := Event.writes_of_says? hhappens hspeaks
    rw [honly, List.mem_singleton] at hwrites
    obtain ⟨hmethod, hallows⟩ := allows_of_says? hspeaks
    refine ⟨method, params, hmethod, (Prod.mk.inj hwrites).1, fun hhover => ?_⟩
    subst hhover
    obtain ⟨hopen, hoffers⟩ := offersHover_of_says? hspeaks
    obtain ⟨before, hbefore⟩ := history_split hsplit
    have hoffers' : ((attach (.of peer) processId workingDirectory pollTimeout cycles).history
        before).2.offersHover = true := by
      rw [hbefore]
      exact hoffers
    have hpromised := promised_of_offersHover rfl hoffers'
    rw [hbefore] at hpromised
    exact ⟨hopen.1, hopen.2, hpromised⟩
  · intro e hmem hpoll hnamed error
    have hperforms := history_performs _ steps e hmem
    have hrefused : ∀ {error}, e.before.refusal? e.call = some error →
        e.result = .error (.failed error) ∧ e.after = e.before := fun hrefusal =>
      Prod.mk.inj (hperforms.symm.trans (perform_of_refusal? hrefusal hnamed))
    refine ⟨⟨fun ⟨hresult, hkind⟩ => ?_, fun hrefusal => ?_⟩, fun hrefusal => ?_⟩
    · cases hrefusal : e.before.refusal? e.call with
      | none =>
          have hnot := isRefusal_of_admitted hrefusal hpoll
            ((congrArg Prod.fst hperforms).trans hresult)
          rw [hkind] at hnot
          cases hnot
      | some found =>
          have hfound := (hrefused hrefusal).1
          rw [hresult] at hfound
          cases hfound
          rfl
    · exact ⟨(hrefused hrefusal).1, isRefusal_of_refusal? hrefusal⟩
    · have hafter := (hrefused hrefusal).2
      exact ⟨Event.contacts_of_append (by rw [hafter, List.append_nil]), hafter⟩

/-- A server that answers hovers. -/
def helpful : ScriptedServer :=
  ScriptedServer.start ⟨[], [("initialize", [[.reply (.object
    [("capabilities", .object [("hoverProvider", .bool true)])])]])]⟩

/-- The first event of a rehearsal asks for a hover too early, the last one may. -/
def rehearsal : List (Step ScriptedServer) :=
  [.call (.hover "/a.py" ⟨.int 0, .int 0⟩), .call (.handshake (Layout.initializeParams.build [])),
    .call .confirm, .call (.hover "/a.py" ⟨.int 0, .int 0⟩)]

theorem run_guarded_rehearsal :
    ∃ early earlier late, (run helpful 1 "/" .zero 1 rehearsal).1 = early :: earlier ++ [late] ∧
      early.result = .error (.failed .hoverUnavailable) ∧ early.after = early.before ∧
      late.writes.length = 1 ∧ late.MayHover (early :: earlier) := by
  obtain ⟨hwrites, hrefused⟩ := run_guarded helpful 1 "/" .zero 1 rehearsal
  let c : Client (Watched ScriptedServer) := attach (.of helpful) 1 "/" .zero 1
  let early := c.eventOf (.hover "/a.py" ⟨.int 0, .int 0⟩)
  let first := early.after.eventOf (.handshake (Layout.initializeParams.build []))
  let second := first.after.eventOf .confirm
  let late := second.after.eventOf (.hover "/a.py" ⟨.int 0, .int 0⟩)
  have hone : late.writes.length = 1 := by decide +kernel
  obtain ⟨⟨bytes, outcome⟩, hmem⟩ := List.exists_mem_of_length_pos (hone ▸ Nat.one_pos)
  obtain ⟨method, params, hmethod, -, hover⟩ :=
    hwrites [early, first, second] late [] rfl bytes outcome hmem
  obtain ⟨hearly, hintact⟩ := hrefused early List.mem_cons_self (fun h => nomatch h)
    (fun h => nomatch h.1) .hoverUnavailable
  have hrefusal : early.before.refusal? early.call = some .hoverUnavailable := rfl
  exact ⟨early, [first, second], late, rfl, (hearly.mpr hrefusal).1, (hintact hrefusal).2, hone,
    hover (Option.some.inj hmethod).symm⟩

end Client

end LanguageClient
