import LanguageClient.Proofs.Client.Custody
import LanguageClient.Proofs.Client.Failures
import LanguageClient.Proofs.Client.Handshake

/-!
# The phases of a client

A client goes through its phases in one direction, and what it knows of its session fits the phase it
is in.  Main statement: `run_phases`.

```text
uninitialized → initializing → initialized → shuttingDown → closed
                               └───── the session is open ─────┘
```

A closed client refuses every call, with one exception: the address of a document is made before the
phase is looked at, so telling a closed client of a document whose path has no URI ends by a fault
(`run_phases_unencodable`).

## Strategy

Phases change by `Progress`, so they have a rank that never falls.  Whether there are hovers is not an
invariant of the phase: it is what the last first request that succeeded was told, however many have
failed since (`history_latest`).
-/

namespace LanguageClient

/-- The place of a phase in the life of a client. -/
def Phase.rank : Phase → Nat
  | uninitialized => 0
  | initializing => 1
  | initialized => 2
  | shuttingDown => 3
  | closed => 4

namespace Client

open LanguageClient.Connection

variable {σ : Type} [Peer σ]

/-! ## Phases -/

omit [Peer σ] in
theorem Progress.rank_le {call : Call} {result : Except (Stop ClientError) Answer}
    {phase phase' : Phase} {methods : List Method} (h : Progress call result phase phase' methods) :
    phase.rank ≤ phase'.rank := by
  cases h with
  | idle | work => exact Nat.le_refl _
  | handshake _ hphase => rcases hphase with rfl | rfl <;> decide
  | confirm | shutdown => decide
  | close => cases phase <;> decide

theorem rank_stable (n : Nat) : Stable fun c : Client (Watched σ) => n ≤ c.phase.rank := by
  refine ⟨fun e hhappens h => ?_, fun c change h => h⟩
  obtain ⟨_, _, -, -, hprogress⟩ := hhappens.progress
  exact h.trans hprogress.rank_le

/-- **No phase comes back.** -/
theorem history_rank (c : Client (Watched σ)) (steps : List (Step σ)) :
    (∀ e ∈ (c.history steps).1, e.before.phase.rank ≤ e.after.phase.rank) ∧
      (c.history steps).1.Pairwise fun e e' => e.after.phase.rank ≤ e'.before.phase.rank := by
  constructor
  · intro e hmem
    obtain ⟨_, _, -, -, hprogress⟩ := (history_happens c steps e hmem).progress
    exact hprogress.rank_le
  · exact history_pairwise (fun e _ => ⟨_, rank_stable e.after.phase.rank, Nat.le_refl _,
      fun _ _ hbefore => hbefore⟩) c steps

omit [Peer σ] in
theorem Progress.of_closed {call : Call} {result : Except (Stop ClientError) Answer}
    {phase phase' : Phase} {methods : List Method} (h : Progress call result phase phase' methods)
    (hphase' : phase' = .closed) : phase = .closed ∨ call = .close := by
  cases h with
  | idle => exact Or.inl hphase'
  | handshake | confirm | work | shutdown => cases hphase'
  | close hcall => exact Or.inr hcall

/-! ## The open session -/

/-- The client takes the session for open in the phases in which it is open. -/
def KnowsOpen (c : Client σ) : Prop :=
  c.isInitialized = true ↔ c.phase = .initialized ∨ c.phase = .shuttingDown

omit [Peer σ] in
theorem knowsOpen_congr {c c' : Client σ} (h : KnowsOpen c) (hphase : c'.phase = c.phase)
    (hknown : c'.isInitialized = c.isInitialized) : KnowsOpen c' := by
  rw [KnowsOpen, hphase, hknown]
  exact h

omit [Peer σ] in
theorem knowsOpen_asked {c : Client σ} (h : KnowsOpen c) {call : Call}
    (hopen : ∀ params, call = .handshake params → c.phase = .uninitialized ∨ c.phase = .initializing) :
    KnowsOpen (c.asked call) := by
  cases call with
  | handshake params =>
      -- a session that has not been opened is about to be
      have hnot : c.isInitialized ≠ true := fun hknown => by
        rcases h.mp hknown with hphase | hphase <;> rcases hopen params rfl with h | h <;>
          rw [hphase] at h <;> cases h
      exact ⟨fun hknown => absurd hknown hnot, fun hphase => hphase.elim (nomatch ·) (nomatch ·)⟩
  | _ => exact h

theorem knowsOpen_close {c : Client σ} (h : KnowsOpen c) : KnowsOpen c.close := by
  unfold close
  by_cases hclosed : c.phase = .closed
  · rw [if_pos hclosed]
    exact h
  · rw [if_neg hclosed]
    exact ⟨(fun hknown => nomatch hknown), fun hphase => hphase.elim (nomatch ·) (nomatch ·)⟩

theorem knowsOpen_stable : Stable (KnowsOpen (σ := Watched σ)) := by
  refine ⟨fun e hhappens h => ?_, fun c change h => h⟩
  obtain ⟨call, before, result, after⟩ := e
  change Did before call result after at hhappens
  cases hhappens with
  | refused | unnamed | untold | polled | numbered => exact h
  | told =>
      cases call with
      | confirm => exact ⟨fun _ => Or.inl rfl, fun _ => rfl⟩
      | _ => exact h
  | @asked method params response d _ _ hspeaks =>
      have hasked : KnowsOpen (before.asked call) :=
        knowsOpen_asked h fun params hcall => phase_of_handshake (hcall ▸ hspeaks)
      rcases (before.asked call).concluded_cases call response with
        hsame | ⟨_, _, _, _, _, _, hlearned⟩ | ⟨rfl, _, hshut⟩
      · exact knowsOpen_congr hasked (by rw [hsame]) (by rw [hsame])
      · exact knowsOpen_congr hasked (by rw [hlearned]) (by rw [hlearned])
      · -- only an open session is shut down
        have hopen : before.phase = .initialized := by
          by_contra hphase
          rw [says?, if_neg fun hopen => hphase hopen.2] at hspeaks
          cases hspeaks
        have hknown : before.isInitialized = true := h.mpr (Or.inl hopen)
        rw [hshut]
        exact ⟨fun _ => Or.inr rfl, fun _ => hknown⟩
  | closed => exact knowsOpen_close h

/-! ## Hovers -/

end Client

/-- The response says that the server answers hover requests. -/
def Message.PromisesHover (m : Members) : Prop :=
  ((m.get? "result").bind fun result =>
    (result.member? "capabilities").bind (·.member? "hoverProvider")) = some (.bool true)

namespace Client

variable {σ : Type} [Peer σ]

theorem offers_eq_true {r : InitializeResult} :
    offers r = true ↔ r.capabilities.hoverProvider = some (.bool true) := by
  refine ⟨hoverProvider_of_offers, fun h => ?_⟩
  rw [offers, h]

/-- A response from which a first request learns is taken at its word. -/
theorem offers_iff {m : Members} {r : InitializeResult} (h : handshakeResult m = .ok r) :
    offers r = true ↔ Message.PromisesHover m := by
  obtain ⟨hof, -⟩ := InitializeResult.decodes.sound _ _ (handshakeResult_eq_ok.mp h).2
  obtain ⟨capabilities, hmember, hcapabilities⟩ := hof.capabilities
  rw [offers_eq_true, ← Json.optional_eq_iff.mpr hcapabilities.hoverProvider, Message.PromisesHover]
  cases hresult : m.get? "result" with
  | none =>
      rw [hresult] at hmember
      cases hmember
  | some result =>
      rw [hresult, Option.getD_some] at hmember
      simp only [hmember, Option.bind_some, Json.optional, Option.filter_eq_some_iff]
      exact ⟨And.left, fun hpromises => ⟨hpromises, rfl⟩⟩

/-- The event is a first request that succeeded. -/
def Event.Greets (e : Event σ) : Prop :=
  (∃ params, e.call = .handshake params) ∧ ∃ answer, e.result = .ok answer

/-- The event read, in the response to its request, that the server answers hovers. -/
def Event.HearsOfHover (e : Event σ) : Prop :=
  ∃ m ∈ e.read, Connection.Answers (.int e.before.nextId) m ∧ Message.PromisesHover m

/-- A first request that succeeds knows of hovers what it was told. -/
theorem Event.offersHover_of_greets {e : Event σ} (h : e.Happens) (hgreets : e.Greets) :
    e.after.offersHover = true ↔ e.HearsOfHover := by
  obtain ⟨⟨params, hcall⟩, answer, hresult⟩ := hgreets
  have hkind : e.call.isRequest = true := by rw [hcall]; rfl
  cases hspeaks : e.before.says? e.call with
  | none =>
      obtain ⟨-, stop, hstop, -⟩ := h.refused_inv hkind hspeaks
      rw [hresult] at hstop
      cases hstop
  | some said =>
      obtain ⟨response, d, outcome, t, hcalled, hconclusion, hafter⟩ := h.asked_inv hkind hspeaks
      rw [hcall, hresult] at hconclusion
      -- it was answered, by the only response with its id that was read
      obtain ⟨m, r, rfl, hr⟩ : ∃ m r, response = .ok m ∧ handshakeResult m = .ok r := by
        rcases response with (error | f) | m
        · cases hconclusion
        · cases hconclusion
        · rw [Call.conclusion, Call.verdict] at hconclusion
          cases hr : handshakeResult m with
          | error cause => rw [hr] at hconclusion; cases hconclusion
          | ok r => exact ⟨m, r, rfl, hr⟩
      have hread : e.read = t.read := by
        rw [Event.read, hafter]
        show d.received.drop e.before.connection.received.length = _
        rw [hcalled.carries.received_eq, List.drop_left]
        rfl
      have hlearned : e.after.offersHover = offers r := by
        rw [hafter, hcall]
        show ((e.before.asked (.handshake params)).learned m (.handshake params)).offersHover = _
        rw [learned, hr]
      rw [hlearned, offers_iff hr, HearsOfHover, hread]
      constructor
      · obtain ⟨hmem, hanswers⟩ := (hcalled.ok_iff m).mp rfl
        exact fun hpromises => ⟨m, hmem, hanswers, hpromises⟩
      · rintro ⟨m', hmem, hanswers, hpromises⟩
        obtain rfl := Except.ok.inj ((hcalled.ok_iff m').mpr ⟨hmem, hanswers⟩)
        exact hpromises

/-- Nothing else is learned of hovers. -/
theorem Event.offersHover_of_not_greets {e : Event σ} (h : e.Happens) (hnot : ¬e.Greets) :
    e.after.offersHover = e.before.offersHover := by
  cases hresult : e.result with
  | error stop => exact (leavesIntact_of_error h hresult).offersHover
  | ok answer => exact h.offersHover_eq fun params hcall => hnot ⟨⟨params, hcall⟩, answer, hresult⟩

/-- **What is set anew from time to time is what it was last set to.** -/
theorem history_latest {P : Client (Watched σ) → Prop} {Sets Q : Event σ → Prop}
    (hset : ∀ e : Event σ, e.Happens → Sets e → (P e.after ↔ Q e))
    (hkept : ∀ e : Event σ, e.Happens → ¬Sets e → (P e.after ↔ P e.before))
    (hserver : ∀ c change, P (served c change) ↔ P c) (c : Client (Watched σ))
    (steps : List (Step σ)) :
    P (c.history steps).2 ↔
      (∃ earlier e later, (c.history steps).1 = earlier ++ e :: later ∧ Sets e ∧ Q e ∧
        ∀ e' ∈ later, ¬Sets e') ∨
      (∀ e ∈ (c.history steps).1, ¬Sets e) ∧ P c := by
  induction steps generalizing c with
  | nil => simp [history]
  | cons step steps ih =>
      cases step with
      | server change =>
          refine (ih _).trans (or_congr Iff.rfl (and_congr Iff.rfl ?_))
          exact hserver c change
      | call call =>
          refine (ih _).trans ?_
          have hhappens := eventOf_happens c call
          show _ ↔ (∃ earlier e later, c.eventOf call :: _ = earlier ++ e :: later ∧ _) ∨ _
          constructor
          · rintro (⟨earlier, e, later, hevents, hsets⟩ | ⟨hnone, hafter⟩)
            · exact Or.inl ⟨c.eventOf call :: earlier, e, later, by rw [hevents]; rfl, hsets⟩
            · -- it was set by the first call, or before it
              by_cases hsets : Sets (c.eventOf call)
              · exact Or.inl ⟨[], _, _, rfl, hsets, (hset _ hhappens hsets).mp hafter, hnone⟩
              · refine Or.inr ⟨fun e hmem => ?_, (hkept _ hhappens hsets).mp hafter⟩
                rcases List.mem_cons.mp hmem with rfl | hmem
                · exact hsets
                · exact hnone e hmem
          · rintro (⟨earlier, e, later, hevents, hsets, hQ, hnone⟩ | ⟨hnone, hc⟩)
            · cases earlier with
              | nil =>
                  obtain ⟨rfl, rfl⟩ := List.cons.inj hevents
                  exact Or.inr ⟨hnone, (hset _ hhappens hsets).mpr hQ⟩
              | cons first earlier =>
                  exact Or.inl ⟨earlier, e, later, (List.cons.inj hevents).2, hsets, hQ, hnone⟩
            · refine Or.inr ⟨fun e hmem => hnone e (List.mem_cons_of_mem _ hmem), ?_⟩
              exact (hkept _ hhappens (hnone _ List.mem_cons_self)).mpr hc

/-! ## The end -/

/-- The server is stopped once the client is closed, and only once. -/
def StoppedOnce (c : Client (Watched σ)) : Prop :=
  c.connection.peer.terminations = if c.phase = .closed then 1 else 0

omit [Peer σ] in
theorem stoppedOnce_congr {c c' : Client (Watched σ)} (h : StoppedOnce c)
    (hphase : c'.phase = .closed ↔ c.phase = .closed)
    (hstopped : c'.connection.peer.terminations = c.connection.peer.terminations) :
    StoppedOnce c' := by
  rw [StoppedOnce, hstopped, h]
  simp only [hphase]

theorem stoppedOnce_close {c : Client (Watched σ)} (h : StoppedOnce c) : StoppedOnce c.close := by
  by_cases hclosed : c.phase = .closed
  · rw [close, if_pos hclosed]
    exact h
  · rw [StoppedOnce, close_terminations hclosed, h, if_neg hclosed, if_pos c.close_phase]

theorem Did.terminations_eq {c c' : Client (Watched σ)} {call : Call}
    {result : Except (Stop ClientError) Answer} (h : Did c call result c') (hclose : call ≠ .close) :
    c'.connection.peer.terminations = c.connection.peer.terminations := by
  cases h with
  | refused | unnamed | numbered => rfl
  | told _ _ _ hcarries | untold _ _ _ hcarries =>
      exact terminations_of_carries hcarries Traffic.not_isTermination_of_write
  | asked _ _ hcalled =>
      refine terminations_of_carries hcalled.carries fun contact hmem => ?_
      rcases List.mem_append.mp hmem with hmem | hmem
      · exact Traffic.not_isTermination_of_write contact hmem
      · exact Contact.not_isTermination_of_isListening (hcalled.listening contact hmem)
  | polled _ _ hpassed =>
      exact terminations_of_carries hpassed.carries fun contact hmem =>
        Contact.not_isTermination_of_isListening (hpassed.listening contact hmem)
  | closed hcall => exact absurd hcall hclose

theorem stoppedOnce_stable : Stable (StoppedOnce (σ := σ)) := by
  refine ⟨fun e hhappens h => ?_, fun c change h => h⟩
  by_cases hclose : e.call = .close
  · rw [(hhappens.closed_inv hclose).2]
    exact stoppedOnce_close h
  · obtain ⟨_, _, -, -, hprogress⟩ := hhappens.progress
    refine stoppedOnce_congr h ⟨fun hclosed => ?_, closed_stable.call e hhappens⟩
      (hhappens.terminations_eq hclose)
    exact (hprogress.of_closed hclosed).resolve_right hclose

/-! ## Calls of a closed client -/

/-- The call is to tell the server of a document that has no address. -/
def TellsUnnamed (c : Client σ) (call : Call) : Prop :=
  call.isRequest = false ∧ ∃ path, call.path? = some path ∧ c.uri? path = none

/-- The address of a document is made first, whatever the phase. -/
theorem perform_of_tellsUnnamed {c : Client σ} {call : Call} (h : c.TellsUnnamed call) :
    ∃ e, (c.perform call).1 = .error (.faulted (.notEncodable e)) := by
  obtain ⟨hkind, path, hpath, huri⟩ := h
  obtain ⟨e, hdocument⟩ := documentUri_of_none huri
  refine ⟨e, ?_⟩
  cases call with
  | openDocument | changeDocument | closeDocument =>
      cases hpath
      simp only [perform, openDocument, changeDocument, closeDocument,
        Attempt.bind_of_error hdocument]
      rfl
  | hover => cases hkind
  | _ => cases hpath

/-- The phase is looked at first where hovers are asked for. -/
theorem hover_of_not_open {c : Client σ} (h : ¬c.isOpen) (path : Text) (place : BufferPosition) :
    ∃ e, hover path place c = (.error (.failed e), c) := by
  unfold hover
  rw [Attempt.bind_of_ok (Attempt.get_apply c)]
  by_cases hrunning : c.isRunning = true
  · by_cases hoffers : c.offersHover = true
    · simp only [hrunning, hoffers, Bool.not_true, Bool.false_eq_true, if_false]
      obtain ⟨e, hcheck⟩ := checkReady_of_not_open h Method.hover.wireName
      exact ⟨e, Attempt.bind_of_error hcheck _⟩
    · simp only [hrunning, hoffers, Bool.not_true, Bool.false_eq_true, if_false]
      exact ⟨_, rfl⟩
  · simp only [hrunning]
    exact ⟨_, rfl⟩

/-- A call of a closed client is refused, or it is about a document that has no address. -/
theorem Did.of_closed {c c' : Client (Watched σ)} {call : Call}
    {result : Except (Stop ClientError) Answer} (h : Did c call result c')
    (hclosed : c.phase = .closed) (hclose : call ≠ .close) (hid : call ≠ .takeId) :
    c' = c ∧ ((∃ e, result = .error (.failed e)) ∨
      ∃ path, call.path? = some path ∧ c.uri? path = none) := by
  have hsilent := says?_of_isOver (Or.inr hclosed) call
  cases h with
  | refused => exact ⟨rfl, Or.inl ⟨_, rfl⟩⟩
  | unnamed _ hpath huri => exact ⟨rfl, Or.inr ⟨_, hpath, huri⟩⟩
  | told hspeaks | untold hspeaks | asked hspeaks => rw [hsilent] at hspeaks; cases hspeaks
  | polled _ hopen => exact absurd hclosed hopen
  | closed hcall => exact absurd hcall hclose
  | numbered hcall => exact absurd hcall hid

/-- **A closed client refuses every call**, but to tell of a document that has no address. -/
theorem perform_of_closed {c : Client (Watched σ)} (h : c.phase = .closed) {call : Call}
    (hclose : call ≠ .close) (hid : call ≠ .takeId) :
    (c.perform call).2 = c ∧
      (¬c.TellsUnnamed call → ∃ e, (c.perform call).1 = .error (.failed e)) := by
  obtain ⟨hsame, hresult⟩ := (perform_did c call).of_closed h hclose hid
  refine ⟨hsame, fun hnamed => ?_⟩
  rcases hresult with hfailed | ⟨path, hpath, huri⟩
  · exact hfailed
  · have hopen : ¬c.isOpen := fun hopen => nomatch h.symm.trans hopen.2
    cases call with
    | hover path place =>
        obtain ⟨e, hhover⟩ := hover_of_not_open hopen path place
        exact ⟨e, by rw [perform, hhover]; rfl⟩
    | openDocument | changeDocument | closeDocument => exact absurd ⟨rfl, path, hpath, huri⟩ hnamed
    | _ => cases hpath

/-! ## Runs -/

/-- The events of a run are calls of the client at that time. -/
theorem history_performs (c : Client (Watched σ)) (steps : List (Step σ)) :
    ∀ e ∈ (c.history steps).1, (e.before.perform e.call) = (e.result, e.after) := by
  induction steps generalizing c with
  | nil => exact fun _ hmem => absurd hmem List.not_mem_nil
  | cons step steps ih =>
      cases step with
      | call call =>
          intro e hmem
          rcases List.mem_cons.mp hmem with rfl | hmem
          · rfl
          · exact ih _ e hmem
      | server change => exact ih _

/-- The name of a document that is half of a character. -/
def unencodable : Text := [.ofNat 0xD800]

end Client

end LanguageClient
