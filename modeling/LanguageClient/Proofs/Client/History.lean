import LanguageClient.Proofs.Client.Operations

/-!
# The history of a client

A run is a sequence of calls, and between two calls the server may do anything.  Of every call there
is an event, which says what the client was before, what the call gave, and what the client was
after; what was written and read meanwhile is computed from the two.

## Strategy

A run is only taken apart here.  What no step can end is `Stable`, and holds at every event once it
holds at the start (`Stable.history`).  What one event means for all later ones is said by a stable
property that it begins (`history_pairwise`).  What cannot come about by itself has an event as its
cause (`history_cause`).
-/

namespace LanguageClient.Client

open LanguageClient.Connection

variable {σ : Type}

/-! ## Events -/

/-- What may happen next: a call, or something that the server does of its own accord. -/
inductive Step (σ : Type) where
  | call (call : Call)
  | server (change : σ → σ)

/-- A call that was made. -/
structure Event (σ : Type) where
  call : Call
  before : Client (Watched σ)
  result : Except (Stop ClientError) Answer
  after : Client (Watched σ)

namespace Event

/-- All that was asked of the server. -/
def contacts (e : Event σ) : List Contact :=
  e.after.connection.peer.contacts.drop e.before.connection.peer.contacts.length

/-- The attempts to write. -/
def writes (e : Event σ) : List (Bytes × WriteOutcome) := e.contacts.filterMap Contact.written?

/-- The reads of the output. -/
def reads (e : Event σ) : List ReadOutcome := e.contacts.filterMap Contact.read?

/-- The messages that were read. -/
def read (e : Event σ) : List Members :=
  e.after.connection.received.drop e.before.connection.received.length

theorem contacts_of_append {e : Event σ} {contacts : List Contact}
    (h : e.after.connection.peer.contacts = e.before.connection.peer.contacts ++ contacts) :
    e.contacts = contacts := by
  rw [Event.contacts, h, List.drop_left]

section Carries

variable {e : Event σ} {t : Traffic} (h : Carries e.before.connection e.after.connection t)

include h

theorem contacts_eq : e.contacts = t.contacts := contacts_of_append h.contacts_eq

theorem read_eq : e.read = t.read := by
  rw [read, h.received_eq, List.drop_left]

end Carries

end Event

/-- The client after its server has done something of its own accord. -/
def served (c : Client (Watched σ)) (change : σ → σ) : Client (Watched σ) :=
  { c with connection := { c.connection with peer := c.connection.peer.map change } }

variable [Peer σ]

/-- The event of a call. -/
def eventOf (c : Client (Watched σ)) (call : Call) : Event σ where
  call := call
  before := c
  result := (c.perform call).1
  after := (c.perform call).2

/-- The event is one that can happen. -/
def Event.Happens (e : Event σ) : Prop := Did e.before e.call e.result e.after

theorem eventOf_happens (c : Client (Watched σ)) (call : Call) : (c.eventOf call).Happens :=
  perform_did c call

namespace Event

variable {e : Event σ}

/-- A call with nothing to say writes nothing. -/
theorem writes_eq_nil (h : e.Happens) (hspeaks : e.before.says? e.call = none) : e.writes = [] := by
  rcases h.contacts_of_silent hspeaks with
    hsame | ⟨-, hclosed⟩ | ⟨-, -, contacts, hheard, hlistening⟩
  · rw [writes, contacts_of_append (hsame.trans (List.append_nil _).symm)]
    rfl
  · rw [writes, contacts_of_append hclosed]
    rfl
  · rw [writes, contacts_of_append hheard]
    exact Contact.filterMap_written? hlistening

/-- A call with nothing to say reads nothing, but for asking for an event in an open session. -/
theorem reads_eq_nil (h : e.Happens) (hspeaks : e.before.says? e.call = none)
    (hpoll : e.call = .poll → e.before.phase = .closed) : e.reads = [] := by
  rcases h.contacts_of_silent hspeaks with hsame | ⟨-, hclosed⟩ | ⟨hcall, hopen, -⟩
  · rw [reads, contacts_of_append (hsame.trans (List.append_nil _).symm)]
    rfl
  · rw [reads, contacts_of_append hclosed]
    rfl
  · exact absurd (hpoll hcall) hopen

end Event

/-! ## Runs -/

/-- The events of a run, and the client after it. -/
def history (c : Client (Watched σ)) : List (Step σ) → List (Event σ) × Client (Watched σ)
  | [] => ([], c)
  | .call call :: steps =>
    (c.eventOf call :: ((c.eventOf call).after.history steps).1,
      ((c.eventOf call).after.history steps).2)
  | .server change :: steps => (c.served change).history steps

/-- What no step can end. -/
structure Stable (P : Client (Watched σ) → Prop) : Prop where
  call : ∀ e : Event σ, e.Happens → P e.before → P e.after
  server : ∀ c change, P c → P (c.served change)

/-- **What is stable holds at every event of a run, and after it.** -/
theorem Stable.history {P : Client (Watched σ) → Prop} (h : Stable P) {c : Client (Watched σ)}
    (hc : P c) (steps : List (Step σ)) :
    (∀ e ∈ (c.history steps).1, e.Happens ∧ P e.before) ∧ P (c.history steps).2 := by
  induction steps generalizing c with
  | nil => exact ⟨fun _ hmem => absurd hmem List.not_mem_nil, hc⟩
  | cons step steps ih =>
      cases step with
      | call call =>
          obtain ⟨hevents, hlast⟩ := ih (h.call _ (eventOf_happens c call) hc)
          refine ⟨fun e hmem => ?_, hlast⟩
          rcases List.mem_cons.mp hmem with rfl | hmem
          · exact ⟨eventOf_happens c call, hc⟩
          · exact hevents e hmem
      | server change => exact ih (h.server c change hc)

theorem history_happens (c : Client (Watched σ)) (steps : List (Step σ)) :
    ∀ e ∈ (c.history steps).1, e.Happens := by
  have hstable : Stable fun _ : Client (Watched σ) => True :=
    ⟨fun _ _ _ => trivial, fun _ _ _ => trivial⟩
  exact fun e hmem => ((hstable.history trivial steps).1 e hmem).1

/-- **What an event means for all later ones.** -/
theorem history_pairwise {R : Event σ → Event σ → Prop}
    (hR : ∀ e : Event σ, e.Happens →
      ∃ P, Stable P ∧ P e.after ∧ ∀ e' : Event σ, e'.Happens → P e'.before → R e e')
    (c : Client (Watched σ)) (steps : List (Step σ)) : (c.history steps).1.Pairwise R := by
  induction steps generalizing c with
  | nil => exact .nil
  | cons step steps ih =>
      cases step with
      | call call =>
          refine List.pairwise_cons.mpr ⟨?_, ih _⟩
          obtain ⟨P, hstable, hafter, hlater⟩ := hR _ (eventOf_happens c call)
          intro e' hmem
          obtain ⟨hhappens, hbefore⟩ := (hstable.history hafter steps).1 e' hmem
          exact hlater e' hhappens hbefore
      | server change => exact ih _

/-- **What holds after a run, and did not before, was brought about by an event.** -/
theorem history_cause {P : Client (Watched σ) → Prop} {Q : Event σ → Prop}
    (hcall : ∀ e : Event σ, e.Happens → P e.after → P e.before ∨ Q e)
    (hserver : ∀ c change, P (served c change) → P c) {c : Client (Watched σ)}
    {steps : List (Step σ)} (hlast : P (c.history steps).2) :
    P c ∨ ∃ earlier e later, (c.history steps).1 = (c.history earlier).1 ++ e :: later ∧
      e.before = (c.history earlier).2 ∧ Q e := by
  induction steps generalizing c with
  | nil => exact Or.inl hlast
  | cons step steps ih =>
      cases step with
      | call call =>
          -- it held right after the first call, or it came about later
          rcases ih hlast with hnext | ⟨earlier, e, later, hevents, hbefore, hQ⟩
          · rcases hcall _ (eventOf_happens c call) hnext with hc | hQ
            · exact Or.inl hc
            · exact Or.inr ⟨[], c.eventOf call, _, rfl, rfl, hQ⟩
          · refine Or.inr ⟨.call call :: earlier, e, later, ?_, hbefore, hQ⟩
            rw [history, history, hevents]
            rfl
      | server change =>
          rcases ih hlast with hnext | ⟨earlier, e, later, hevents, hbefore, hQ⟩
          · exact Or.inl (hserver c change hnext)
          · exact Or.inr ⟨.server change :: earlier, e, later, hevents, hbefore, hQ⟩

/-- What reached the server are the frames of the messages that went out. -/
def Delivered (c : Client (Watched σ)) : Prop :=
  c.connection.peer.contacts.filterMap Contact.accepted? =
    c.connection.sent.map fun m => Frame.encode (.obj m)

theorem delivered_stable : Stable (Delivered (σ := σ)) := by
  refine ⟨fun e hhappens h => ?_, fun c change h => h⟩
  obtain ⟨t, hturn⟩ := hhappens.inTurn
  have ht := hturn.carries
  rw [Delivered, ht.contacts_eq, ht.sent_eq, List.filterMap_append, List.map_append,
    ht.accepted_eq, h]

/-- A run of a client from its start. -/
def run (peer : σ) (processId : Nat) (workingDirectory : Text) (pollTimeout : Binary64)
    (cycles : Int) (steps : List (Step σ)) : List (Event σ) × Client (Watched σ) :=
  (attach (.of peer) processId workingDirectory pollTimeout cycles).history steps

end LanguageClient.Client
