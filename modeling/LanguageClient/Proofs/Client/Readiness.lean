import LanguageClient.Proofs.Client.Phases
import LanguageClient.Proofs.Fleet.Operations

/-!
# Clients that are ready

A client is ready for work on documents once it has been introduced to its server, and until its
session is ended: by a shutdown that succeeds, or by closing.  Nothing else ends that it is ready, and
whoever tells a client of a document that is not ready learns so from the answer
(`saysNotReady_iff`).
-/

namespace LanguageClient

namespace Client

variable {σ : Type}

/-! ## What ends it -/

/-- Documents may be worked on. -/
def Ready (c : Client σ) : Prop := c.phase = .initialized ∧ c.isInitialized = true

/-- The client is ready, or over if its session has been ended. -/
structure Stands (ended : Prop) (c : Client (Watched σ)) : Prop where
  ready : ¬ended → c.Ready
  isOver : ended → IsOver c

theorem Stands.ready_iff {ended : Prop} {c : Client (Watched σ)} (h : Stands ended c) :
    c.Ready ↔ ¬ended := by
  constructor
  · intro hready hended
    rcases h.isOver hended with hphase | hphase
    · exact nomatch hready.1.symm.trans hphase
    · exact nomatch hready.1.symm.trans hphase
  · exact h.ready

theorem Stands.of_iff {ended ended' : Prop} {c : Client (Watched σ)} (h : Stands ended c)
    (hiff : ended ↔ ended') : Stands ended' c where
  ready hnot := h.ready fun hended => hnot (hiff.mp hended)
  isOver hended := h.isOver (hiff.mpr hended)

/-- It does not matter whether the journal has been taken. -/
theorem Stands.takeJournal {ended : Prop} {c : Client (Watched σ)} (h : Stands ended c) :
    Stands ended c.takeJournal.2 :=
  ⟨h.ready, h.isOver⟩

variable [Peer σ]

theorem Event.isOver_of_ends {e : Event σ} (h : e.Happens) (hends : e.Ends) : IsOver e.after := by
  rcases hends with ⟨hcall, hresult⟩ | hclose
  · exact Or.inl (h.phase_of_shutdown hcall hresult)
  · exact Or.inr (h.phase_of_close hclose)

omit [Peer σ] in
theorem Progress.of_ready {call : Call} {result : Except (Stop ClientError) Answer}
    {phase phase' : Phase} {methods : List Method} (h : Progress call result phase phase' methods)
    (hphase : phase = .initialized)
    (hends : ¬(call = .shutdown ∧ result = .ok .done ∨ call = .close)) : phase' = .initialized := by
  cases h with
  | idle => exact hphase
  | handshake _ hbefore => rcases hbefore with rfl | rfl <;> cases hphase
  | confirm | work => rfl
  | shutdown hcall hresult => exact absurd (Or.inl ⟨hcall, hresult⟩) hends
  | close hcall => exact absurd (Or.inr hcall) hends

/-- Only what ends a session ends that it is ready. -/
theorem Event.ready_of_not_ends {e : Event σ} (h : e.Happens) (hready : e.before.Ready)
    (hends : ¬e.Ends) : e.after.Ready := by
  obtain ⟨_, _, -, -, hprogress⟩ := h.progress
  have hphase : e.after.phase = .initialized := hprogress.of_ready hready.1 hends
  have hknows : KnowsOpen e.before :=
    ⟨fun _ => Or.inl hready.1, fun _ => hready.2⟩
  exact ⟨hphase, (knowsOpen_stable.call e h hknows).mpr (Or.inl hphase)⟩

/-- **A client stands as it is left by a call.** -/
theorem Event.stands {e : Event σ} (h : e.Happens) {ended : Prop} (hstands : Stands ended e.before) :
    Stands (ended ∨ e.Ends) e.after where
  ready hnot := by
    have hready : e.before.Ready := hstands.ready fun hended => hnot (Or.inl hended)
    exact ready_of_not_ends h hready fun hends => hnot (Or.inr hends)
  isOver hended := by
    rcases hended with hended | hends
    · exact isOver_stable.call e h (hstands.isOver hended)
    · exact isOver_of_ends h hends

/-- Asking for an event ends no session. -/
theorem stands_poll {ended : Prop} {c : Client (Watched σ)} (h : Stands ended c) :
    Stands ended (poll c).2 := by
  have hstands := Event.stands (eventOf_happens c .poll) h
  refine hstands.of_iff (or_iff_left ?_)
  rintro (⟨hcall, -⟩ | hcall)
  · cases hcall
  · cases hcall

theorem Did.ready_of_confirm {c c' : Client (Watched σ)}
    {result : Except (Stop ClientError) Answer} (h : Did c .confirm result c')
    (hresult : result = .ok .done) : c'.Ready := by
  cases h with
  | told => exact ⟨rfl, rfl⟩
  | refused | unnamed | untold => cases hresult
  | asked _ hkind => cases hkind
  | polled hcall | closed hcall | numbered hcall => cases hcall

/-- A client that has been introduced to its server is ready. -/
theorem ready_of_introduce {c : Client (Watched σ)} {params : Payload} {obstacle : Option Fault}
    (h : (Fleet.introduce params obstacle c).1 = .ok ()) :
    (Fleet.introduce params obstacle c).2.Ready := by
  cases obstacle with
  | none =>
      rw [Fleet.introduce] at h ⊢
      rcases hhandshake : handshake params c with ⟨stop | done, c₁⟩
      · rw [Attempt.bind_of_error hhandshake] at h
        cases h
      · rw [Attempt.bind_of_ok hhandshake] at h ⊢
        have hdid := did_confirm c₁
        rw [outcomeOf, h] at hdid
        exact hdid.ready_of_confirm rfl
  | some f =>
      -- an obstacle is a fault, if the client gets as far as that
      rw [Fleet.introduce] at h
      rcases hannounce : announce params c with ⟨stop | done, c₁⟩
      · rw [Attempt.bind_of_error hannounce] at h
        cases h
      · rw [Attempt.bind_of_ok hannounce] at h
        cases h

/-! ## Clients that refuse -/

/-- The call is to tell the server of a document that has an address. -/
def TellsNamed (c : Client σ) (call : Call) : Prop :=
  call.isRequest = false ∧ ∃ path uri, call.path? = some path ∧ c.uri? path = some uri

/-- The client says of a call that it is not ready for it. -/
def SaysNotReady (c : Client σ) (call : Call) : Prop :=
  ∃ method, (c.perform call).1 = .error (.failed (.notInitialized method))

omit [Peer σ] in
/-- A failed exchange is a value; only a fault ends what comes after it. -/
theorem exchange_ne_failed {α : Type} (action : Exchange σ α) (c : Client σ) (e : ClientError) :
    (exchange action c).1 ≠ .error (.failed e) := by
  rw [exchange_apply]
  rcases (action c.connection).1 with (_ | _) | _ <;> exact fun h => nomatch h

theorem notify_notInitialized_iff (c : Client σ) (method : Method) (params : Payload) :
    (∃ name, (outcomeOf (fun _ => Answer.done) (notify method params c)).1 =
      .error (.failed (.notInitialized name))) ↔ c.isRunning = true ∧ c.phase ≠ .initialized := by
  unfold notify
  by_cases hopen : c.isOpen
  · -- what fails then is the notification
    refine iff_of_false ?_ fun h => h.2 hopen.2
    rintro ⟨name, hname⟩
    rw [Attempt.bind_of_ok (checkReady_of_open hopen _)] at hname
    have hfailed := exchange_ne_failed (Connection.notify method.wireName params.encode) c
    rcases hsend : exchange (Connection.notify method.wireName params.encode) c with
      ⟨(e | f) | (e | done), c₁⟩
    · rw [hsend] at hfailed
      exact hfailed e rfl
    · rw [Attempt.bind_of_error hsend] at hname
      cases hname
    · rw [Attempt.bind_of_ok hsend] at hname
      cases hname
    · rw [Attempt.bind_of_ok hsend] at hname
      cases hname
  · unfold checkReady
    by_cases hrunning : c.isRunning = true
    · have hphase : c.phase ≠ .initialized := fun hphase => hopen ⟨hrunning, hphase⟩
      refine iff_of_true ⟨method.wireName, ?_⟩ ⟨hrunning, hphase⟩
      simp [Attempt.bind_apply, hrunning, hphase]
      rfl
    · refine iff_of_false ?_ fun h => hrunning h.1
      rintro ⟨name, hname⟩
      simp [Attempt.bind_apply, hrunning] at hname
      cases hname

/-- A client says that it is not ready exactly if its server runs and its session is not open. -/
theorem saysNotReady_iff {c : Client σ} {call : Call} (h : c.TellsNamed call) :
    c.SaysNotReady call ↔ c.isRunning = true ∧ c.phase ≠ .initialized := by
  obtain ⟨hkind, path, uri, hpath, huri⟩ := h
  have hdocument : documentUri path c = (.ok uri, c) := documentUri_of_some huri
  unfold SaysNotReady
  cases call with
  | openDocument | changeDocument | closeDocument =>
      cases hpath
      simp only [perform, openDocument, changeDocument, closeDocument, Attempt.bind_of_ok hdocument]
      exact notify_notInitialized_iff c _ _
  | hover => cases hkind
  | _ => cases hpath

end Client

end LanguageClient
