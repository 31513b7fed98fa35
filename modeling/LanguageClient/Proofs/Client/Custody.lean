import LanguageClient.Proofs.Client.Totality

/-!
# Servers in the custody of a client

As long as a client is not closed it has not stopped its server, it has lost nothing of what the
server has written, and it has kept nothing that the server has not written (`Kept`).  No call ends
that but closing, which stops the server once.  A call about no document, or about one whose path has a
URI, ends by a fault for one of two reasons, and both can be told from what the server was asked and
from what it wrote: the server is at fault (`Watched.Faulty`), or asking for an event came upon
diagnostics for an address that is none (`Watched.Misaddressed`).  Main statement: `Kept.did`.
-/

namespace LanguageClient

open LanguageClient.Frame

/-- The server is stopped. -/
def Contact.isTermination : Contact → Bool
  | terminated => true
  | _ => false

theorem Contact.not_isTermination_of_isListening {contact : Contact}
    (h : contact.isListening = true) : contact.isTermination = false := by
  cases contact with
  | awaited | read => rfl
  | wrote | terminated => cases h

theorem Traffic.not_isTermination_of_write {message : Members} {outcome : WriteOutcome} :
    ∀ contact ∈ (Traffic.write message outcome).contacts, contact.isTermination = false := by
  intro contact hmem
  rw [List.mem_singleton.mp hmem]
  rfl

namespace Watched

variable {σ : Type}

/-- How often the server has been stopped. -/
def terminations (w : Watched σ) : Nat := w.contacts.countP Contact.isTermination

/-- All that has been read of the server's output. -/
def output (w : Watched σ) : Bytes := w.contacts.flatMap Contact.output

/-- The server is to blame for a fault: a wait for its output was cut short, or its output holds a
number with too many digits. -/
def Faulty (w : Watched σ) (f : Fault) : Prop :=
  (∃ contact ∈ w.contacts, contact.fault? = some f) ∨
    ∃ part ∈ (parts w.output).1, part.fault? = some f

/-- The message is part of what the server has written. -/
def Wrote (w : Watched σ) (m : Members) : Prop :=
  ∃ part ∈ (parts w.output).1, part.message? = some m

/-- The server has reported diagnostics for a text that cannot be taken for a URI. -/
def Misaddressed (w : Watched σ) (e : Uri.Malformed) : Prop :=
  ∃ m, w.Wrote m ∧ Message.malformed? m = some e

end Watched

namespace Client

open LanguageClient.Connection

variable {σ : Type}

/-- Traffic without an end stops no server. -/
theorem terminations_of_carries {c d : Connection (Watched σ)} {t : Traffic}
    (h : Carries c d t) (hstop : ∀ contact ∈ t.contacts, contact.isTermination = false) :
    d.peer.terminations = c.peer.terminations := by
  have hnone : t.contacts.countP Contact.isTermination = 0 :=
    List.countP_eq_zero.mpr fun contact hmem => by rw [hstop contact hmem]; decide
  rw [Watched.terminations, h.contacts_eq, List.countP_append, hnone]
  rfl

/-- Closing an open client stops its server. -/
theorem close_terminations [Peer σ] {c : Client (Watched σ)} (h : c.phase ≠ .closed) :
    c.close.connection.peer.terminations = c.connection.peer.terminations + 1 := by
  unfold Client.close
  rw [if_neg h]
  show (c.connection.peer.contacts ++ [Contact.terminated]).countP Contact.isTermination = _
  rw [List.countP_append]
  rfl

/-- The client is in charge of its server. -/
structure Kept (c : Client (Watched σ)) : Prop where
  isOpen : c.phase ≠ .closed
  unstopped : c.connection.peer.terminations = 0
  /-- The parts of the output that are still to come begin in the buffer, whatever follows; the
  messages that were kept are among those that were taken. -/
  inStep : ∃ taken, (∀ rest, (parts (c.connection.peer.output ++ rest)).1 =
      taken ++ (parts (c.connection.buffer ++ rest)).1) ∧
    ∀ m ∈ c.connection.inbox, m ∈ taken.filterMap Part.message?

/-- A client that has just been attached is in charge. -/
theorem kept_attach (peer : σ) (processId : Nat) (workingDirectory : Text) (pollTimeout : Binary64)
    (cycles : Int) :
    Kept (attach (.of peer) processId workingDirectory pollTimeout cycles) where
  isOpen h := nomatch h
  unstopped := rfl
  inStep := ⟨[], fun _ => rfl, fun _ hmem => absurd hmem List.not_mem_nil⟩

namespace Kept

variable {c : Client (Watched σ)} {t : Traffic}

theorem served (h : Kept c) (change : σ → σ) : Kept (c.served change) :=
  ⟨h.isOpen, h.unstopped, h.inStep⟩

/-- **Traffic leaves a server in custody; a fault in it is the server's, and so is every message.** -/
theorem carries (h : Kept c) (c' : Client (Watched σ))
    (ht : Carries c.connection c'.connection t)
    (hstop : ∀ contact ∈ t.contacts, contact.isTermination = false) (hopen : c'.phase ≠ .closed)
    (hinbox : ∀ m ∈ c'.connection.inbox, m ∈ c.connection.inbox ++ t.read) :
    Kept c' ∧ (∀ f, t.fault? = some f → c'.connection.peer.Faulty f) ∧
      ∀ m ∈ c.connection.inbox ++ t.read, c'.connection.peer.Wrote m := by
  obtain ⟨taken, htaken, hkept⟩ := h.inStep
  have hcontacts := ht.contacts_eq
  have houtput : c'.connection.peer.output = c.connection.peer.output ++ t.output := by
    rw [Watched.output, hcontacts, List.flatMap_append]
    rfl
  have hstep : ∀ rest, (parts (c'.connection.peer.output ++ rest)).1 =
      taken ++ t.parts ++ (parts (c'.connection.buffer ++ rest)).1 := by
    intro rest
    rw [houtput, List.append_assoc, htaken, ← List.append_assoc c.connection.buffer, ht.parts_eq,
      List.append_assoc]
  have hparts : ∀ part ∈ taken ++ t.parts, part ∈ (parts c'.connection.peer.output).1 := by
    intro part hmem
    have hall := hstep []
    rw [List.append_nil] at hall
    rw [hall]
    exact List.mem_append_left _ hmem
  have hmessages : ∀ m ∈ c.connection.inbox ++ t.read,
      m ∈ (taken ++ t.parts).filterMap Part.message? := by
    intro m hmem
    rw [List.filterMap_append]
    exact (List.mem_append.mp hmem).elim (fun hm => List.mem_append_left _ (hkept m hm))
      (List.mem_append_right _)
  refine ⟨⟨hopen, (terminations_of_carries ht hstop).trans h.unstopped, _, hstep,
    fun m hmem => hmessages m (hinbox m hmem)⟩, fun f hf => ?_, fun m hmem => ?_⟩
  · rw [Traffic.fault?] at hf
    rcases Option.or_eq_some_iff.mp hf with hwait | ⟨-, hpart⟩
    · obtain ⟨contact, hmem, hfault⟩ := List.exists_of_findSome?_eq_some hwait
      exact Or.inl ⟨contact, hcontacts ▸ List.mem_append_right _ hmem, hfault⟩
    · obtain ⟨part, hmem, hfault⟩ := List.exists_of_findSome?_eq_some hpart
      exact Or.inr ⟨part, hparts part (List.mem_append_right _ hmem), hfault⟩
  · obtain ⟨part, hpart, hm⟩ := List.mem_filterMap.mp (hmessages m hmem)
    exact ⟨part, hparts part hpart, hm⟩

variable [Peer σ] {c' : Client (Watched σ)} {call : Call} {result : Except (Stop ClientError) Answer}

/-- **A call leaves its server in custody, and says whose fault it is.** -/
theorem did (h : Kept c) (hdid : Did c call result c') (hclose : call ≠ .close)
    (hpath : ∀ path, call.path? = some path → c.uri? path ≠ none) :
    Kept c' ∧ ∀ f, Attempt.fault? result = some f → c'.connection.peer.Faulty f ∨
      call = .poll ∧ ∃ e, c'.connection.peer.Misaddressed e ∧ f = .malformedUri e := by
  have hsame {d : Connection (Watched σ)} {t : Traffic} (hinbox : d.inbox = c.connection.inbox) :
      ∀ m ∈ d.inbox, m ∈ c.connection.inbox ++ t.read :=
    fun m hmem => List.mem_append_left _ (hinbox ▸ hmem)
  have hfiltered {t : Traffic} {m : Members}
      (hmem : m ∈ c.connection.inbox ++ t.read.filter (·.has "method")) :
      m ∈ c.connection.inbox ++ t.read :=
    (List.Sublist.append (List.Sublist.refl _) List.filter_sublist).subset hmem
  cases hdid with
  | refused | numbered => exact ⟨⟨h.isOpen, h.unstopped, h.inStep⟩, fun f hf => nomatch hf⟩
  | unnamed _ hsome huri => exact absurd huri (hpath _ hsome)
  | @told method params d outcome hspeaks hkind houtcome hcarries hinbox =>
      have hopen : (c.told call).phase ≠ .closed := by
        cases call with
        | confirm => exact fun h => nomatch h
        | _ => exact h.isOpen
      exact ⟨(h.carries { c.told call with connection := d } hcarries
        Traffic.not_isTermination_of_write hopen (hsame hinbox)).1, fun f hf => nomatch hf⟩
  | @untold method params d outcome e hspeaks hkind houtcome hcarries hinbox =>
      exact ⟨(h.carries { c with connection := d } hcarries Traffic.not_isTermination_of_write
        h.isOpen (hsame hinbox)).1, fun f hf => nomatch hf⟩
  | @asked method params response d outcome t hspeaks hkind hcalled =>
      have hopen : ((c.asked call).concluded call response).phase ≠ .closed := by
        have hasked : (c.asked call).phase ≠ .closed := by
          cases call with
          | handshake => exact fun h => nomatch h
          | _ => exact h.isOpen
        rcases (c.asked call).concluded_cases call response with
          hsame | ⟨_, _, _, _, _, _, hlearned⟩ | ⟨_, _, hshut⟩
        · rw [hsame]
          exact hasked
        · rw [hlearned]
          exact hasked
        · rw [hshut]
          exact fun h => nomatch h
      have hread : (Traffic.write (outgoing (some (.int c.nextId)) method.wireName params)
          outcome ++ t).read = t.read := Traffic.read_append _ _
      obtain ⟨hkept, hfaulty, -⟩ := h.carries
        { (c.asked call).concluded call response with connection := d } hcalled.carries
        (fun contact hmem => (List.mem_append.mp hmem).elim
          (Traffic.not_isTermination_of_write contact)
          fun hmem => Contact.not_isTermination_of_isListening (hcalled.listening contact hmem))
        hopen (fun m hmem => hread ▸ hfiltered (hcalled.inbox_eq ▸ hmem))
      refine ⟨hkept, fun f hf => Or.inl (hfaulty f ?_)⟩
      rw [Event.fault?_conclusion, hcalled.fault_eq] at hf
      rw [Traffic.fault?_append_of_none rfl]
      exact hf
  | @polled next d t hcall hopen hpassed =>
      obtain ⟨hkept, hfaulty, hwrote⟩ := h.carries { c with connection := d } hpassed.carries
        (fun contact hmem => Contact.not_isTermination_of_isListening (hpassed.listening contact hmem))
        hopen (fun m hmem => hfiltered (List.mem_of_mem_tail (hpassed.inbox_eq ▸ hmem)))
      refine ⟨hkept, fun f hf => ?_⟩
      have hfault := hpassed.fault_eq
      have hhead := hpassed.head_eq
      rcases next with (e | g) | (_ | m)
      · rw [polledResult] at hf
        split at hf <;> cases hf
      · cases hf
        exact Or.inl (hfaulty f hfault.symm)
      · rw [polledResult] at hf
        split at hf <;> cases hf
      · have hinterpret := interpret_fault m { c with connection := d }
        rw [polledResult] at hf
        generalize (interpret m { c with connection := d }).1 = result at hf hinterpret
        rcases result with (e | g) | found
        · cases hf
        · cases hf
          obtain ⟨e, hmalformed, he⟩ := Option.map_eq_some_iff.mp hinterpret.symm
          have hmem := hfiltered (List.mem_of_mem_head? hhead.symm)
          exact Or.inr ⟨hcall, e, ⟨m, hwrote m hmem, hmalformed⟩, he.symm⟩
        · cases hf
  | closed hcall => exact absurd hcall hclose

/-- Closing stops the server, once. -/
theorem close (h : Kept c) : c.close.connection.peer.terminations = 1 := by
  rw [close_terminations h.isOpen, h.unstopped]

end Kept

end Client

end LanguageClient
