import LanguageClient.Proofs.Rpc.Exchange
import LanguageClient.Proofs.Rpc.Watched

/-!
# The traffic of an exchange

An exchange with a watched server has its traffic: what was asked of the server, which messages the
server took, and which parts of the output were taken from the stream.  `Carries` says that this
traffic is all that led from one connection to another, and it adds up over steps that follow each
other.

## Strategy

Reading and waiting only listen.  Whether such a step ends by a fault is decided by its traffic: a
wait that was cut short, or a body with a number that has too many digits (`Traffic.fault?`).  This
is an equation, so it goes through a sequence of steps (`Hears.bind`): a step that follows another
one is only reached when that one has met no fault.  The operations are then sequences of steps, and
nothing is opened but the three that touch the server.
-/

namespace LanguageClient

open LanguageClient.Frame

/-! ## Faults -/

/-- The fault by which an attempt ended. -/
def Attempt.fault? {ε α : Type} : Except (Stop ε) α → Option Fault
  | .error (.faulted f) => some f
  | _ => none

theorem Attempt.fault?_map {ε α β : Type} (g : α → β) (result : Except (Stop ε) α) :
    fault? (result.map g) = fault? result := by
  rcases result with (e | f) | a <;> rfl

/-- The fault of a wait that was cut short. -/
def Contact.fault? : Contact → Option Fault
  | .awaited .interrupted => some .interrupted
  | .awaited .closed => some .closedWatch
  | _ => none

namespace Frame

/-- The message that the part is. -/
def Part.message? (part : Part) : Option Members := part.result.toOption

/-- The fault that taking the part ends by: its body has a number with too many digits. -/
def Part.fault? (part : Part) : Option Fault := Attempt.fault? part.result

end Frame

/-- The message that went out in full. -/
def Entry.sent? : Entry → Option Members
  | traffic .send message => some message
  | _ => none

/-! ## Traffic -/

/-- What passes between a client and its server: what was asked, the messages that the server took,
and the parts that were taken from its output. -/
structure Traffic where
  contacts : List Contact
  sent : List Members
  parts : List Part

namespace Traffic

def none : Traffic := ⟨[], [], []⟩

instance : Append Traffic :=
  ⟨fun t t' => ⟨t.contacts ++ t'.contacts, t.sent ++ t'.sent, t.parts ++ t'.parts⟩⟩

/-- One attempt to write a message. -/
def write (message : Members) (outcome : WriteOutcome) : Traffic where
  contacts := [.wrote (Frame.encode (.obj message)) outcome]
  sent := if outcome.isAccepted then [message] else []
  parts := []

/-- The messages that were read. -/
def read (t : Traffic) : List Members := t.parts.filterMap Part.message?

/-- The output that was read. -/
def output (t : Traffic) : Bytes := t.contacts.flatMap Contact.output

/-- The fault that the traffic ends with. -/
def fault? (t : Traffic) : Option Fault :=
  (t.contacts.findSome? Contact.fault?).or (t.parts.findSome? Part.fault?)

variable (t t' : Traffic)

@[simp] theorem contacts_append : (t ++ t').contacts = t.contacts ++ t'.contacts := rfl

@[simp] theorem sent_append : (t ++ t').sent = t.sent ++ t'.sent := rfl

@[simp] theorem parts_append : (t ++ t').parts = t.parts ++ t'.parts := rfl

@[simp] theorem read_append : (t ++ t').read = t.read ++ t'.read := List.filterMap_append

@[simp] theorem output_append : (t ++ t').output = t.output ++ t'.output := List.flatMap_append

theorem sent_write (message : Members) (outcome : WriteOutcome) :
    (write message outcome).sent = if outcome.isAccepted then [message] else [] := rfl

@[simp] theorem append_none : t ++ none = t := by
  obtain ⟨contacts, sent, parts⟩ := t
  show Traffic.mk (contacts ++ []) (sent ++ []) (parts ++ []) = _
  simp

theorem fault?_append_of_none {t : Traffic} (h : t.fault? = Option.none) (t' : Traffic) :
    (t ++ t').fault? = t'.fault? := by
  obtain ⟨hcontacts, hparts⟩ := Option.or_eq_none_iff.mp h
  rw [fault?, contacts_append, parts_append, List.findSome?_append, List.findSome?_append,
    hcontacts, hparts]
  rfl

end Traffic

namespace Connection

variable {σ : Type}

/-- The messages that went out, in order. -/
def sent (c : Connection σ) : List Members := c.journal.filterMap Entry.sent?

/-- The traffic is all that led from `c` to `c'`. -/
structure Carries (c c' : Connection (Watched σ)) (t : Traffic) : Prop where
  contacts_eq : c'.peer.contacts = c.peer.contacts ++ t.contacts
  sent_eq : c'.sent = c.sent ++ t.sent
  received_eq : c'.received = c.received ++ t.read
  /-- What reached the server are the frames of the messages that went out. -/
  accepted_eq :
    t.contacts.filterMap Contact.accepted? = t.sent.map fun m => Frame.encode (.obj m)
  /-- The parts that were taken are the next ones of the stream, whatever follows. -/
  parts_eq : ∀ rest,
    (Frame.parts (c.buffer ++ t.output ++ rest)).1 =
      t.parts ++ (Frame.parts (c'.buffer ++ rest)).1
  /-- What was noted is not taken back. -/
  grows : c.journal <+: c'.journal

namespace Carries

variable {c c₁ c₂ : Connection (Watched σ)} {t t' : Traffic}

theorem trans (h : Carries c c₁ t) (h' : Carries c₁ c₂ t') : Carries c c₂ (t ++ t') where
  contacts_eq := by rw [h'.contacts_eq, h.contacts_eq, Traffic.contacts_append, List.append_assoc]
  sent_eq := by rw [h'.sent_eq, h.sent_eq, Traffic.sent_append, List.append_assoc]
  received_eq := by rw [h'.received_eq, h.received_eq, Traffic.read_append, List.append_assoc]
  accepted_eq := by
    rw [Traffic.contacts_append, List.filterMap_append, h.accepted_eq, h'.accepted_eq,
      Traffic.sent_append, List.map_append]
  parts_eq rest := by
    have hfirst := h.parts_eq (t'.output ++ rest)
    have hsecond := h'.parts_eq rest
    simp only [Traffic.output_append, Traffic.parts_append, ← List.append_assoc] at *
    rw [hfirst, hsecond, List.append_assoc]
  grows := h.grows.trans h'.grows

/-- What leaves the server, the buffer and the messages alone carries nothing. -/
theorem of_silent {entries : Journal} (hpeer : c₁.peer = c.peer) (hbuffer : c₁.buffer = c.buffer)
    (hjournal : c₁.journal = c.journal ++ entries)
    (hsent : entries.filterMap Entry.sent? = [])
    (hreceived : entries.filterMap Entry.received? = []) : Carries c c₁ .none where
  contacts_eq := by rw [hpeer]; exact (List.append_nil _).symm
  sent_eq := by rw [sent, hjournal, List.filterMap_append, hsent]; rfl
  received_eq := by rw [received, hjournal, List.filterMap_append, hreceived]; rfl
  accepted_eq := rfl
  parts_eq rest := by rw [hbuffer]; simp [Traffic.none, Traffic.output]
  grows := ⟨entries, hjournal.symm⟩

theorem refl (c : Connection (Watched σ)) : Carries c c .none :=
  of_silent rfl rfl (List.append_nil _).symm rfl rfl

/-- What the server does of its own accord carries nothing. -/
theorem served (c : Connection (Watched σ)) (change : σ → σ) :
    Carries c { c with peer := c.peer.map change } .none :=
  ⟨(List.append_nil _).symm, (List.append_nil _).symm, (List.append_nil _).symm, rfl,
    (refl c).parts_eq, List.prefix_rfl⟩

/-- A remark carries nothing. -/
theorem remarked (h : Carries c c₁ t) (level : Level) (text : Text) :
    Carries c { c₁ with journal := c₁.journal ++ [.remark level text] } t :=
  Traffic.append_none t ▸ h.trans (of_silent rfl rfl rfl rfl rfl)

/-- The messages read are determined by the journals. -/
theorem read_eq (h : Carries c c₁ t) {read : List Members}
    (hreceived : c₁.received = c.received ++ read) : t.read = read :=
  List.append_cancel_left (h.received_eq.symm.trans hreceived)

end Carries

/-! ## Listening -/

/-- From `c` to `c'` nothing was written, and the traffic tells by which fault it ended. -/
structure Hears {ε α : Type} (c : Connection (Watched σ)) (result : Except (Stop ε) α)
    (c' : Connection (Watched σ)) (t : Traffic) : Prop where
  carries : Carries c c' t
  listening : ∀ contact ∈ t.contacts, contact.isListening = true
  fault_eq : Attempt.fault? result = t.fault?

/-- An operation that only listens. -/
def Listens {α : Type} (action : Exchange (Watched σ) α) : Prop :=
  ∀ c, ∃ t, Hears c (action c).1 (action c).2 t

theorem Contact.accepted?_of_isListening {contact : Contact} (h : contact.isListening = true) :
    contact.accepted? = none := by
  cases contact with
  | awaited | read => rfl
  | wrote | terminated => cases h

theorem Contact.written?_of_isListening {contact : Contact} (h : contact.isListening = true) :
    contact.written? = none := by
  cases contact with
  | awaited | read => rfl
  | wrote | terminated => cases h

/-- Whoever only listens writes nothing. -/
theorem Contact.filterMap_written? {contacts : List Contact}
    (h : ∀ contact ∈ contacts, contact.isListening = true) :
    contacts.filterMap Contact.written? = [] :=
  List.filterMap_eq_nil_iff.mpr fun contact hmem => written?_of_isListening (h contact hmem)

/-- Nothing goes out while one listens. -/
theorem Carries.sent_eq_nil {c c' : Connection (Watched σ)} {t : Traffic} (h : Carries c c' t)
    (hlistening : ∀ contact ∈ t.contacts, contact.isListening = true) : t.sent = [] := by
  have hnone : t.contacts.filterMap Contact.accepted? = [] :=
    List.filterMap_eq_nil_iff.mpr fun contact hmem =>
      Contact.accepted?_of_isListening (hlistening contact hmem)
  exact List.map_eq_nil_iff.mp (h.accepted_eq.symm.trans hnone)

/-- From `c` to `c'` there was writing first, and nothing but listening after it. -/
inductive InTurn (c c' : Connection (Watched σ)) : Traffic → Prop
  | intro {mid : Connection (Watched σ)} {written heard : Traffic} (hwritten : Carries c mid written)
      (hwriting : ∀ contact ∈ written.contacts, contact.isListening = false)
      (hparts : written.parts = []) (hheard : Carries mid c' heard)
      (hlistening : ∀ contact ∈ heard.contacts, contact.isListening = true) :
      InTurn c c' (written ++ heard)

namespace InTurn

variable {c c' : Connection (Watched σ)} {t : Traffic}

theorem carries (h : InTurn c c' t) : Carries c c' t := by
  obtain ⟨hwritten, -, -, hheard, -⟩ := h
  exact hwritten.trans hheard

theorem of_listening (h : Carries c c' t)
    (hlistening : ∀ contact ∈ t.contacts, contact.isListening = true) : InTurn c c' t :=
  .intro (.refl c) (fun _ hmem => absurd hmem List.not_mem_nil) rfl h hlistening

theorem of_none (h : Carries c c' .none) : InTurn c c' .none :=
  of_listening h fun _ hmem => absurd hmem List.not_mem_nil

theorem of_writing (h : Carries c c' t)
    (hwriting : ∀ contact ∈ t.contacts, contact.isListening = false) (hparts : t.parts = []) :
    InTurn c c' t :=
  Traffic.append_none t ▸
    .intro h hwriting hparts (.refl c') fun _ hmem => absurd hmem List.not_mem_nil

/-- An attempt to write, and listening after it. -/
theorem of_write {c₁ : Connection (Watched σ)} {message : Members} {outcome : WriteOutcome}
    (hwrite : Carries c c₁ (.write message outcome)) (hheard : Carries c₁ c' t)
    (hlistening : ∀ contact ∈ t.contacts, contact.isListening = true) :
    InTurn c c' (.write message outcome ++ t) :=
  .intro hwrite (fun _ hmem => List.mem_singleton.mp hmem ▸ rfl) rfl hheard hlistening

/-- An attempt to write, and nothing after it. -/
theorem of_attempt {message : Members} {outcome : WriteOutcome}
    (h : Carries c c' (.write message outcome)) : InTurn c c' (.write message outcome ++ .none) :=
  of_write h (.refl c') fun _ hmem => absurd hmem List.not_mem_nil

theorem remarked (h : InTurn c c' t) (level : Level) (text : Text) :
    InTurn c { c' with journal := c'.journal ++ [.remark level text] } t := by
  obtain ⟨hwritten, hwriting, hparts, hheard, hlistening⟩ := h
  exact .intro hwritten hwriting hparts (hheard.remarked level text) hlistening

end InTurn

section Listens

variable {α β : Type} {action : Exchange (Watched σ) α}

theorem Hears.of_silent {ε : Type} {c c' : Connection (Watched σ)} {result : Except (Stop ε) α}
    (h : Carries c c' .none) (hfault : Attempt.fault? result = none) :
    Hears c result c' .none :=
  ⟨h, fun _ hmem => absurd hmem List.not_mem_nil, hfault⟩

theorem Hears.trans {ε : Type} {c c₁ c₂ : Connection (Watched σ)} {first : Except (Stop ε) α}
    {second : Except (Stop ε) β} {t t' : Traffic} (h : Hears c first c₁ t)
    (hfirst : Attempt.fault? first = none) (h' : Hears c₁ second c₂ t') :
    Hears c second c₂ (t ++ t') where
  carries := h.carries.trans h'.carries
  listening contact hmem := by
    rcases List.mem_append.mp hmem with hmem | hmem
    · exact h.listening contact hmem
    · exact h'.listening contact hmem
  fault_eq := by rw [h'.fault_eq, Traffic.fault?_append_of_none (h.fault_eq ▸ hfirst)]

theorem listens_pure (a : α) : Listens (pure a : Exchange (Watched σ) α) :=
  fun c => ⟨.none, .of_silent (.refl c) rfl⟩

theorem listens_fail (e : RpcError) : Listens (Attempt.fail e : Exchange (Watched σ) α) :=
  fun c => ⟨.none, .of_silent (.refl c) rfl⟩

theorem listens_remark (level : Level) (text : Text) :
    Listens (remark level text : Exchange (Watched σ) Unit) :=
  fun _ => ⟨.none, .of_silent (.of_silent rfl rfl rfl rfl rfl) rfl⟩

/-- **Listening goes on through a sequence of steps.** -/
theorem Listens.bind (h : Listens action) {next : α → Exchange (Watched σ) β}
    (hnext : ∀ a, Listens (next a)) : Listens (action >>= next) := by
  intro c
  obtain ⟨t, ht⟩ := h c
  rcases haction : action c with ⟨result, c₁⟩
  rw [haction] at ht
  cases result with
  | ok a =>
      rw [Attempt.bind_of_ok haction]
      obtain ⟨t', ht'⟩ := hnext a c₁
      exact ⟨t ++ t', ht.trans rfl ht'⟩
  | error stop =>
      rw [Attempt.bind_of_error haction]
      refine ⟨t, ht.carries, ht.listening, ?_⟩
      rw [← ht.fault_eq]
      cases stop <;> rfl

theorem Listens.outcome (h : Listens action) :
    Listens (action.outcome : Exchange (Watched σ) (Except RpcError α)) := by
  intro c
  obtain ⟨t, ht⟩ := h c
  refine ⟨t, ?_⟩
  rcases haction : action c with ⟨result, c₁⟩
  rw [haction] at ht
  rcases result with (e | f) | a
  · rw [Attempt.outcome_of_failed haction]
    exact ⟨ht.carries, ht.listening, ht.fault_eq⟩
  · rw [Attempt.outcome_of_faulted haction]
    exact ⟨ht.carries, ht.listening, ht.fault_eq⟩
  · rw [Attempt.outcome_of_ok haction]
    exact ⟨ht.carries, ht.listening, ht.fault_eq⟩

end Listens

/-! ## What touches the server -/

variable [Peer σ]

/-- Nothing is carried by ending the server. -/
theorem Carries.terminated (c : Connection (Watched σ)) :
    Carries c { c with peer := Peer.terminate c.peer } ⟨[.terminated], [], []⟩ :=
  ⟨rfl, (List.append_nil _).symm, (List.append_nil _).symm, rfl, fun rest => by
    simp [Traffic.output, Contact.output], List.prefix_rfl⟩

/-- A wait asks once, if at all. -/
theorem listens_awaitOutput : Listens (awaitOutput : Exchange (Watched σ) Unit) := by
  intro c
  unfold awaitOutput
  simp only [Attempt.bind_apply, Attempt.get_apply]
  by_cases hready : isReady c.buffer
  · rw [if_pos hready]
    exact listens_pure () c
  · rw [if_neg hready]
    rcases hawait : Peer.await c.pollTimeout c.peer.peer with ⟨readiness, peer⟩
    have hwatched : Peer.await c.pollTimeout c.peer =
        (readiness, ⟨peer, c.peer.contacts ++ [.awaited readiness]⟩) := by
      show Watched.note _ _ _ = _
      rw [hawait]
      rfl
    refine ⟨⟨[.awaited readiness], [], []⟩, ?_⟩
    have hcarries : Carries c { c with peer := ⟨peer, c.peer.contacts ++ [.awaited readiness]⟩ }
        ⟨[.awaited readiness], [], []⟩ :=
      ⟨rfl, (List.append_nil _).symm, (List.append_nil _).symm, rfl, fun rest => by
        simp [Traffic.output, Contact.output], List.prefix_rfl⟩
    simp only [Attempt.bind_apply, hwatched, Attempt.set_apply]
    cases readiness with
    | ready | quiet | interrupted | closed => exact ⟨hcarries, by simp [Contact.isListening], rfl⟩

/-- The entries of a part are its message, and nothing that was sent. -/
theorem entries_of_part (part : Part) :
    part.entries.filterMap Entry.sent? = [] ∧
      part.entries.filterMap Entry.received? = [part].filterMap Part.message? := by
  cases part with
  | malformed e => exact ⟨rfl, rfl⟩
  | body bytes =>
      rw [List.filterMap_cons, Part.message?, Part.result, Part.entries]
      cases hread : readBody bytes with
      | ok m => exact ⟨rfl, rfl⟩
      | error flaw => rcases flaw with _ | (_ | _) | _ <;> exact ⟨rfl, rfl⟩

omit [Peer σ] in
/-- Taking a part from a stream that begins with it. -/
theorem hears_took {c c' : Connection (Watched σ)} (contacts : List Contact) {part : Part}
    {rest : Bytes} (hcontacts : c'.peer.contacts = c.peer.contacts ++ contacts)
    (hjournal : c'.journal = c.journal)
    (hlistening : ∀ contact ∈ contacts, contact.isListening = true)
    (hcalm : contacts.findSome? Contact.fault? = none)
    (htake : take? (c.buffer ++ contacts.flatMap Contact.output) = some (part, rest)) :
    Hears c part.result (c'.took part rest) ⟨contacts, [], [part]⟩ := by
  obtain ⟨hsent, hreceived⟩ := entries_of_part part
  refine ⟨⟨hcontacts, ?_, ?_, ?_, fun more => ?_, ?_⟩, hlistening, ?_⟩
  · rw [sent, took, hjournal, List.filterMap_append, hsent]
    rfl
  · rw [received, took, hjournal, List.filterMap_append, hreceived]
    rfl
  · show _ = List.map _ []
    rw [List.map_nil, List.filterMap_eq_nil_iff]
    exact fun contact hmem => Contact.accepted?_of_isListening (hlistening contact hmem)
  · show (Frame.parts (c.buffer ++ contacts.flatMap Contact.output ++ more)).1 = _
    rw [parts_of_some (take?_append htake more)]
    rfl
  · rw [took, hjournal]
    exact List.prefix_append _ _
  · show _ = (contacts.findSome? Contact.fault?).or _
    rw [hcalm]
    simp [Part.fault?]

/-- A read asks once, if at all. -/
theorem listens_readNext : Listens (readNext : Exchange (Watched σ) Members) := by
  intro c
  have hstep := readNext_step c
  -- what a read leaves behind it is noted
  have hnoted : ∀ {outcome : ReadOutcome} {w : Watched σ},
      Peer.read readLimit c.peer = (outcome, w) → w.contacts = c.peer.contacts ++ [.read outcome] := by
    intro outcome w hread
    obtain ⟨rfl, rfl⟩ := Prod.mk.inj hread
    rfl
  generalize (readNext c).1 = result at hstep
  generalize (readNext c).2 = c' at hstep
  cases hstep with
  | @buffered part rest htake =>
      exact ⟨_, hears_took [] (List.append_nil _).symm rfl (by simp) rfl
        (by simpa using htake)⟩
  | @completed bytes rest w part hnone hread htake =>
      exact ⟨_, hears_took [.read (.data bytes)] (hnoted hread) rfl
        (by simp [Contact.isListening]) rfl (by simpa [Contact.output] using htake)⟩
  | @kept bytes w hnone hread hmore =>
      refine ⟨⟨[.read (.data bytes)], [], []⟩, ⟨hnoted hread, ?_, ?_, rfl, fun rest => ?_,
        List.prefix_rfl⟩, by simp [Contact.isListening], rfl⟩
      · exact (List.append_nil _).symm
      · exact (List.append_nil _).symm
      · simp [Traffic.output, Contact.output]
  | @refused outcome w e hnone hread hfailure =>
      refine ⟨⟨[.read outcome], [], []⟩, ⟨hnoted hread, ?_, ?_, rfl, fun rest => ?_,
        List.prefix_rfl⟩, by simp [Contact.isListening], rfl⟩
      · exact (List.append_nil _).symm
      · exact (List.append_nil _).symm
      · cases outcome with
        | data bytes => cases hfailure
        | wouldBlock | ended | failed e | closed => simp [Traffic.output, Contact.output]

/-- A message is written by one attempt. -/
theorem send_carries (method : Text) (message : Members) (c : Connection (Watched σ)) :
    ∃ outcome c', Carries c c' (.write message outcome) ∧ c'.inbox = c.inbox ∧
      (outcome.isAccepted = true ∧ send method message c = (.ok (), c') ∨
        outcome.isAccepted = false ∧
          ∃ cause, send method message c = (.error (.failed (.unsent method cause)), c')) := by
  unfold send
  rcases hwrite : Peer.write (Frame.encode (.obj message)) c.peer.peer with ⟨outcome, peer⟩
  have hwatched : Peer.write (Frame.encode (.obj message)) c.peer =
      (outcome, ⟨peer, c.peer.contacts ++ [.wrote (Frame.encode (.obj message)) outcome]⟩) := by
    show Watched.note _ _ _ = _
    rw [hwrite]
    rfl
  simp only [Attempt.bind_apply, Attempt.get_apply, Attempt.set_apply, hwatched]
  have hsame : ∀ rest, (Frame.parts (c.buffer ++ (Traffic.write message outcome).output ++ rest)).1
      = [] ++ (Frame.parts (c.buffer ++ rest)).1 := by
    intro rest
    simp [Traffic.write, Traffic.output, Contact.output]
  refine ⟨outcome, ?_⟩
  cases outcome with
  | accepted =>
      refine ⟨_, ?_, ?_, Or.inl ⟨rfl, rfl⟩⟩
      · refine ⟨rfl, ?_, ?_, rfl, hsame, List.prefix_append _ _⟩
        · simp [sent, Entry.sent?, Traffic.write, WriteOutcome.isAccepted]
        · simp [received, Entry.received?, Traffic.write, Traffic.read]
      · rfl
  | broken | failed e | closed =>
      refine ⟨_, ?_, ?_, Or.inr ⟨rfl, _, rfl⟩⟩
      · refine ⟨rfl, ?_, ?_, rfl, hsame, List.prefix_append _ _⟩
        · simp [sent, Entry.sent?, Traffic.write, WriteOutcome.isAccepted]
        · simp [received, Entry.received?, Traffic.write, Traffic.read]
      · rfl

end Connection

end LanguageClient
