import LanguageClient.Proofs.Rpc.Delivery
import LanguageClient.Proofs.Rpc.Waiting

/-!
# Reads make progress

Whether a read has to ask for more output can be seen in the buffer beforehand, and whoever reads
without asking takes something out of it.  So a client that looks first never waits for what it
holds already, and no output makes it read for ever.  Main statement: `reads_progress`.

```text
a look finds a part     the read asks nothing, and takes four bytes or more out of the buffer
a look finds none       the read asks once; what it finds then has arrived with the answer
```

## Strategy

Both lines are read off `readNext_step`.  What a run finds is paid for with bytes (`Pays`): four for
each part, since it takes at least the separator with it.  Bytes come into the buffer only by a
read, so the price adds up over a run, and is never more than what was there and what has arrived.
The ends and failures that reads report are counted apart, as no byte is taken for them.
-/

namespace LanguageClient

open LanguageClient.Frame

namespace Frame

theorem four_mul_length_parts_le (buffer : Bytes) :
    4 * (parts buffer).1.length ≤ buffer.length := by
  fun_induction parts buffer with
  | case1 buffer h => exact Nat.zero_le _
  | case2 buffer part rest h hshorter ih =>
      rw [List.length_cons]
      omega

/-- The buffer begins with a frame whose body holds an integer with too many digits. -/
def BeginsWithLongNumber (buffer : Bytes) : Prop :=
  ∃ bytes rest n, take? buffer = some (.body bytes, rest) ∧
    readBody bytes = .error (.notJson (.tooManyDigits n))

/-- Taking a part fails to give a result for one reason only. -/
theorem faulted_iff {buffer rest : Bytes} {part : Part} (htake : take? buffer = some (part, rest)) :
    (∃ f, part.result = .error (.faulted f)) ↔ BeginsWithLongNumber buffer := by
  simp only [BeginsWithLongNumber, htake, Option.some.injEq, Prod.mk.injEq]
  cases part with
  | malformed e => simp [Part.result]
  | body bytes =>
      rw [Part.result]
      rcases hread : readBody bytes with ((e | (e | n) | d) | m) <;>
        simp [hread, Except.mapError, BodyError.stop]

/-- There are such buffers: the frame of a long integer begins one. -/
theorem beginsWithLongNumber_encode {n : Int} (hlong : ¬ Reading.IsShort n.natAbs)
    (hlength : Reading.IsShort (Utf8.ofChars (Json.int n).render).length) (rest : Bytes) :
    BeginsWithLongNumber (encode (.int n) ++ rest) :=
  ⟨_, rest, _, take?_encode hlength rest, readBody_render_of_long hlong⟩

end Frame

/-- A watch leaves the schedule as it is. -/
theorem Peer.Delivers.watched {σ : Type} [Peer σ] {s : σ} {d : Delivery} (h : Delivers s d)
    {contacts : List Contact} : Delivers (⟨s, contacts⟩ : Watched σ) d := by
  have hafter : ∀ n (w : Watched σ), (afterReads n w).peer = afterReads n w.peer := by
    intro n
    induction n with
    | zero => exact fun w => rfl
    | succ n ih => exact fun w => ih (Peer.read Connection.readLimit w).2
  intro n
  show (Peer.read Connection.readLimit (afterReads n (⟨s, contacts⟩ : Watched σ)).peer).1 = _
  rw [hafter]
  exact h n

/-- A read that finds the end of the output, or fails. -/
def Contact.isLost : Contact → Bool
  | read .ended | read (.failed _) | read .closed => true
  | _ => false

namespace Connection

variable {σ : Type}

/-! ## One read -/

/-- The next part was taken out of the buffer, and nothing was asked of the server.  This gives a
result, unless the part holds an integer that is too long. -/
structure TakesPart (c : Connection (Watched σ)) (result : ReadResult)
    (c' : Connection (Watched σ)) : Prop where
  peer_eq : c'.peer = c.peer
  found : result ≠ .wouldBlock
  shorter : c'.buffer.length + 4 ≤ c.buffer.length
  faulted_iff : (∃ f, result = .error (.faulted f)) ↔ BeginsWithLongNumber c.buffer

variable [Peer σ]

theorem contacts_of_read {w w' : Watched σ} {outcome : ReadOutcome}
    (hread : Peer.read readLimit w = (outcome, w')) :
    w'.contacts = w.contacts ++ [.read outcome] := by
  obtain ⟨rfl, rfl⟩ := Prod.mk.inj hread
  rfl

theorem readNext_of_ready {c : Connection (Watched σ)} (hready : isReady c.buffer = true) :
    TakesPart c (readNext c).1 (readNext c).2 := by
  rw [isReady_eq, Option.isSome_iff_exists] at hready
  obtain ⟨⟨part, rest⟩, htake⟩ := hready
  rw [readNext_of_take? htake]
  refine ⟨rfl, fun hnothing => ?_, length_of_take? htake, Frame.faulted_iff htake⟩
  have hfinding := part.isFinding_result
  rw [show part.result = .wouldBlock from hnothing] at hfinding
  cases hfinding

theorem readNext_of_not_ready {c : Connection (Watched σ)} (hready : isReady c.buffer = false) :
    ∃ outcome, (readNext c).2.peer.contacts = c.peer.contacts ++ [.read outcome] := by
  have hnone : take? c.buffer = none := by
    rwa [isReady_eq, Option.isSome_eq_false_iff, Option.isNone_iff_eq_none] at hready
  have hstep := readNext_step c
  generalize (readNext c).1 = result at hstep
  generalize (readNext c).2 = c' at hstep
  cases hstep with
  | buffered htake =>
      rw [hnone] at htake
      cases htake
  | completed _ hread | kept _ hread | refused _ hread => exact ⟨_, contacts_of_read hread⟩

theorem isReady_iff_unasked (c : Connection (Watched σ)) :
    isReady c.buffer = true ↔ (readNext c).2.peer.contacts = c.peer.contacts := by
  refine ⟨fun hready => by rw [(readNext_of_ready hready).peer_eq], fun hsame => ?_⟩
  by_contra hnot
  obtain ⟨outcome, hasked⟩ := readNext_of_not_ready (Bool.eq_false_iff.mpr hnot)
  rw [hasked] at hsame
  simp at hsame

theorem not_isReady_iff_asked (c : Connection (Watched σ)) :
    isReady c.buffer = false ↔
      ∃ outcome, (readNext c).2.peer.contacts = c.peer.contacts ++ [.read outcome] := by
  refine ⟨readNext_of_not_ready, fun ⟨outcome, hasked⟩ => ?_⟩
  rw [Bool.eq_false_iff]
  intro hready
  rw [(readNext_of_ready hready).peer_eq] at hasked
  simp at hasked

/-! ## Waiting -/

/-- What a poll cycle may ask of the server, given the buffer: nothing, or a wait, and a read if the
wait was not in vain.  It asks only if the buffer holds no part. -/
inductive Asks (buffer : Bytes) : List Contact → Prop where
  | nothing : Asks buffer []
  | wait {readiness : Readiness} (hready : isReady buffer = false)
      (hvain : readiness ≠ .ready) : Asks buffer [.awaited readiness]
  | read {outcome : ReadOutcome} (hready : isReady buffer = false) :
      Asks buffer [.awaited .ready, .read outcome]

/-- Whoever holds a part asks nothing. -/
theorem Asks.eq_nil {buffer : Bytes} {contacts : List Contact} (h : Asks buffer contacts)
    (hready : isReady buffer = true) : contacts = [] := by
  cases h with
  | nothing => rfl
  | wait hnot | read hnot =>
      rw [hready] at hnot
      cases hnot

/-- From `c` to `c'` messages were written, and then at most one poll cycle was made. -/
def Contacts (c c' : Connection (Watched σ)) : Prop :=
  ∃ written asked, c'.peer.contacts = c.peer.contacts ++ (written ++ asked) ∧
    (∀ contact ∈ written, contact.written?.isSome = true) ∧ Asks c.buffer asked

theorem awaitOutput_of_ready {c : Connection (Watched σ)} (hready : isReady c.buffer = true) :
    awaitOutput c = (.ok (), c) := by
  unfold awaitOutput
  simp only [Attempt.bind_apply, Attempt.get_apply, hready, if_true]
  rfl

/-- Without a part the server is waited for, and the wait ends well only if it was not in vain. -/
theorem awaitOutput_of_not_ready {c : Connection (Watched σ)} (hready : isReady c.buffer = false) :
    ∃ readiness w, w.contacts = c.peer.contacts ++ [.awaited readiness] ∧
      (readiness = .ready ∧ awaitOutput c = (.ok (), { c with peer := w }) ∨
        readiness ≠ .ready ∧ ∃ stop, awaitOutput c = (.error stop, { c with peer := w })) := by
  unfold awaitOutput
  simp only [Attempt.bind_apply, Attempt.get_apply, hready, Bool.false_eq_true, if_false]
  rcases hwait : Peer.await c.pollTimeout c.peer with ⟨readiness, w⟩
  refine ⟨readiness, w, ?_, ?_⟩
  · obtain ⟨rfl, rfl⟩ := Prod.mk.inj hwait
    rfl
  · cases readiness with
    | ready => exact Or.inl ⟨rfl, rfl⟩
    | quiet | interrupted | closed => exact Or.inr ⟨by decide, _, rfl⟩

/-- What a poll cycle makes of a read leaves the server alone. -/
theorem readOne_peer {c c₁ : Connection (Watched σ)} (hawait : awaitOutput c = (.ok (), c₁)) :
    (readOne c).2.peer = (readNext c₁).2.peer := by
  unfold readOne
  rw [Attempt.bind_of_ok hawait]
  rcases hread : readNext c₁ with ⟨(e | f) | m, c₂⟩
  · rw [Attempt.bind_of_ok (Attempt.outcome_of_failed hread)]
    cases e <;> rfl
  · rw [Attempt.bind_of_error (Attempt.outcome_of_faulted hread)]
  · rw [Attempt.bind_of_ok (Attempt.outcome_of_ok hread)]
    rfl

/-- **A poll cycle asks only for what it does not hold.** -/
theorem readOne_asks (c : Connection (Watched σ)) :
    ∃ asked, (readOne c).2.peer.contacts = c.peer.contacts ++ asked ∧ Asks c.buffer asked := by
  cases hready : isReady c.buffer with
  | true =>
      rw [readOne_peer (awaitOutput_of_ready hready), (readNext_of_ready hready).peer_eq]
      exact ⟨[], (List.append_nil _).symm, .nothing⟩
  | false =>
      obtain ⟨readiness, w, hwaited, ⟨rfl, hawait⟩ | ⟨hvain, stop, hawait⟩⟩ :=
        awaitOutput_of_not_ready hready
      · obtain ⟨outcome, hread⟩ := readNext_of_not_ready (c := { c with peer := w }) hready
        refine ⟨[.awaited .ready, .read outcome], ?_, .read hready⟩
        rw [readOne_peer hawait, hread, hwaited, List.append_assoc]
        rfl
      · refine ⟨[.awaited readiness], ?_, .wait hready hvain⟩
        rw [readOne, Attempt.bind_of_error hawait, hwaited]

/-- What becomes of a message leaves the server alone. -/
theorem receive_peer (id : Json) (c : Connection (Watched σ)) :
    (receive id c).2.peer = (readOne c).2.peer := by
  rcases hread : readOne c with ⟨stop | m, c₁⟩
  · rw [show receive id c = (.error stop, c₁) from Attempt.bind_of_error hread _]
  · rw [receive_of_message hread]
    split
    · rfl
    · split <;> rfl

theorem next_peer {c : Connection (Watched σ)} (hinbox : c.inbox = []) :
    (next c).2.peer = (readOne c).2.peer := by
  unfold next
  simp only [Attempt.bind_of_ok (Attempt.get_apply c), hinbox]
  rcases hread : readOne c with ⟨(e | f) | m, c₁⟩
  · rw [Attempt.bind_of_ok (Attempt.outcome_of_failed hread)]
    cases e <;> rfl
  · rw [Attempt.bind_of_error (Attempt.outcome_of_faulted hread)]
  · rw [Attempt.bind_of_ok (Attempt.outcome_of_ok hread)]
    cases hmethod : m.has "method" <;> simp [hmethod, remark, note, Attempt.bind_apply]

/-- A write leaves the buffer as it was. -/
theorem send_buffer (method : Text) (message : Members) (c : Connection (Watched σ)) :
    (send method message c).2.buffer = c.buffer := by
  unfold send
  simp only [Attempt.bind_apply, Attempt.get_apply, Attempt.set_apply]
  cases (Peer.write (Frame.encode (.obj message)) c.peer).1 <;> rfl

omit [Peer σ] in
theorem Contacts.of_asks {c c' : Connection (Watched σ)} (asked : List Contact)
    (hasked : c'.peer.contacts = c.peer.contacts ++ asked) (hasks : Asks c.buffer asked) :
    Contacts c c' :=
  ⟨[], asked, hasked, (fun _ h => absurd h List.not_mem_nil), hasks⟩

omit [Peer σ] in
/-- With a part in the buffer there are only writes. -/
theorem Contacts.of_ready {c c' : Connection (Watched σ)} (h : Contacts c c')
    (hready : isReady c.buffer = true) :
    ∃ written, c'.peer.contacts = c.peer.contacts ++ written ∧
      ∀ contact ∈ written, contact.written?.isSome = true := by
  obtain ⟨written, asked, hcontacts, hwritten, hasks⟩ := h
  rw [hasks.eq_nil hready, List.append_nil] at hcontacts
  exact ⟨written, hcontacts, hwritten⟩

omit [Peer σ] in
theorem Contacts.of_write {c c₁ c' : Connection (Watched σ)} {bytes : Bytes}
    {outcome : WriteOutcome} (asked : List Contact)
    (hwritten : c₁.peer.contacts = c.peer.contacts ++ [.wrote bytes outcome])
    (hasked : c'.peer.contacts = c₁.peer.contacts ++ asked) (hasks : Asks c.buffer asked) :
    Contacts c c' := by
  refine ⟨[.wrote bytes outcome], asked, ?_, ?_, hasks⟩
  · rw [hasked, hwritten, List.append_assoc]
  · simp [Contact.written?]

/-- **No operation waits for output, or reads it, while the buffer holds a part.** -/
theorem perform_contacts (c : Connection (Watched σ)) (op : Operation) :
    Contacts c (c.perform op).2 := by
  cases op with
  | receive id =>
      obtain ⟨asked, hasked, hasks⟩ := readOne_asks c
      exact .of_asks asked ((congrArg Watched.contacts (receive_peer id c)).trans hasked) hasks
  | next =>
      cases hinbox : c.inbox with
      | cons m rest =>
          refine .of_asks [] ?_ .nothing
          simp [perform, next_of_cons hinbox]
      | nil =>
          obtain ⟨asked, hasked, hasks⟩ := readOne_asks c
          exact .of_asks asked ((congrArg Watched.contacts (next_peer hinbox)).trans hasked) hasks
  | notify method params =>
      obtain ⟨outcome, c₁, hcarries, -, hsend⟩ :=
        send_carries method (outgoing none method params) c
      have hend : (c.perform (.notify method params)).2 = c₁ := by
        rcases hsend with ⟨-, hsend⟩ | ⟨-, cause, hsend⟩ <;> simp [perform, notify, hsend]
      exact .of_write [] hcarries.contacts_eq (by rw [hend, List.append_nil]) .nothing
  | call id method params =>
      obtain ⟨outcome, c₁, hcarries, -, ⟨-, hsend⟩ | ⟨-, cause, hsend⟩⟩ :=
        send_carries method (outgoing (some id) method params) c
      · obtain ⟨asked, hasked, hasks⟩ := readOne_asks c₁
        have hbuffer : c₁.buffer = c.buffer := by
          simpa [hsend] using send_buffer method (outgoing (some id) method params) c
        refine .of_write asked hcarries.contacts_eq ?_ (hbuffer ▸ hasks)
        show (call id method params c).2.peer.contacts = _
        rw [call_of_sent hsend, receive_peer, hasked]
      · refine .of_write [] hcarries.contacts_eq ?_ .nothing
        show (call id method params c).2.peer.contacts = _
        rw [call_of_unsent hsend, List.append_nil]

/-! ## What reads pay -/

/-- From `c` to `c'` so many results were found.  Each was paid for with four bytes that were in the
buffer or have been read since, unless a read found the end or failed. -/
def Pays (c : Connection (Watched σ)) (found : Nat) (c' : Connection (Watched σ)) : Prop :=
  ∃ contacts, c'.peer.contacts = c.peer.contacts ++ contacts ∧
    4 * found + c'.buffer.length ≤ c.buffer.length +
      (contacts.flatMap Contact.output).length + 4 * contacts.countP Contact.isLost

omit [Peer σ] in
theorem Pays.refl (c : Connection (Watched σ)) : Pays c 0 c :=
  ⟨[], (List.append_nil _).symm, by simp⟩

omit [Peer σ] in
theorem Pays.trans {c c₁ c₂ : Connection (Watched σ)} {m n : Nat} (h : Pays c m c₁)
    (h' : Pays c₁ n c₂) : Pays c (m + n) c₂ := by
  obtain ⟨contacts, hcontacts, hpaid⟩ := h
  obtain ⟨contacts', hcontacts', hpaid'⟩ := h'
  refine ⟨contacts ++ contacts', by rw [hcontacts', hcontacts, List.append_assoc], ?_⟩
  rw [List.flatMap_append, List.length_append, List.countP_append]
  omega

theorem readNext_pays (c : Connection (Watched σ)) :
    Pays c ([(readNext c).1].countP ReadResult.isFinding) (readNext c).2 := by
  have hstep := readNext_step c
  generalize (readNext c).1 = result at hstep ⊢
  generalize (readNext c).2 = c' at hstep ⊢
  cases hstep with
  | @buffered part rest htake =>
      have hshorter := length_of_take? htake
      refine ⟨[], (List.append_nil _).symm, ?_⟩
      simp [part.isFinding_result, took]
      omega
  | @completed bytes rest w part hnone hread htake =>
      have hshorter := length_of_take? htake
      rw [List.length_append] at hshorter
      refine ⟨_, contacts_of_read hread, ?_⟩
      simp [part.isFinding_result, took, Contact.output]
      omega
  | @kept bytes w hnone hread hmore =>
      refine ⟨_, contacts_of_read hread, ?_⟩
      simp [ReadResult.wouldBlock, ReadResult.isFinding, Contact.output]
  | @refused outcome w e hnone hread hfailure =>
      refine ⟨_, contacts_of_read hread, ?_⟩
      cases outcome with
      | data bytes => cases hfailure
      | wouldBlock | ended | failed e | closed =>
          cases hfailure
          simp [ReadResult.isFinding, Contact.isLost, Contact.output, Nat.add_comm]

/-- **A run finds no more than its bytes pay for.** -/
theorem answers_pays (c : Connection (Watched σ)) (calls : List Call) :
    Pays c (findings (c.answers calls).1).length (c.answers calls).2 := by
  induction calls generalizing c with
  | nil => exact .refl c
  | cons call calls ih =>
      cases call with
      | peek => exact ih c
      | read =>
          rw [findings_read, answers_read, List.length_append, ← List.countP_eq_length_filter]
          exact (readNext_pays c).trans (ih (readNext c).2)

/-- A run over a stream that stays open finds at most a quarter of its bytes, and comes to an end of
what there is to read. -/
theorem findings_le {c : Connection (Watched σ)} {d : Delivery} (h : Peer.Delivers c.peer d)
    (hquiet : d.ending = .quiet) (calls : List Call) :
    (findings (c.answers calls).1).length ≤ (c.buffer.length + d.bytes.length) / 4 ∧
      (d.arrivals.length + (c.buffer.length + d.bytes.length) / 4 ≤ calls.count .read →
        Drained (c.answers calls).2 .quiet) := by
  rcases hparts : Frame.parts (c.buffer ++ d.bytes) with ⟨ps, left⟩
  have hexpects : Expects c d ps left := ⟨h, hparts⟩
  have hlength : ps.length ≤ (c.buffer.length + d.bytes.length) / 4 := by
    have hfour : 4 * ps.length ≤ c.buffer.length + d.bytes.length := by
      simpa [hparts] using Frame.four_mul_length_parts_le (c.buffer ++ d.bytes)
    omega
  obtain ⟨d', found, ps', n, hps, hfound, hclosed, -⟩ := hexpects.run calls
  have hn : n = 0 := by
    by_contra hn
    rw [(hclosed hn).1] at hquiet
    cases hquiet
  constructor
  · rw [hfound, hn, List.replicate_zero, List.append_nil, List.length_map]
    have hle : found.length ≤ ps.length := by
      rw [hps, List.length_append]
      exact Nat.le_add_right _ _
    exact hle.trans hlength
  · intro hcalls
    rw [← hquiet]
    exact hexpects.drained_of_reads ((Nat.add_le_add_left hlength _).trans hcalls)

/-- **Whoever looks first reads without waiting, and whatever is read makes progress.**  For every
server and every connection to it: a look at the buffer finds a part exactly if the next read asks
nothing of the server, and none exactly if it asks once.  A part that was found is then taken, which
shortens the buffer by four bytes or more and gives a result other than that there is none; only an
integer with too many digits keeps it from giving one.  An operation makes at most one poll cycle,
and while the buffer holds a part it waits for no output and reads none.  And what reads find is
paid for with four bytes each: a run over a stream that stays open finds no more than a quarter of
its bytes, and comes to an end of what is to be read. -/
theorem reads_progress (c : Connection (Watched σ)) :
    (isReady c.buffer = true ↔ (readNext c).2.peer.contacts = c.peer.contacts) ∧
    (isReady c.buffer = false ↔
      ∃ outcome, (readNext c).2.peer.contacts = c.peer.contacts ++ [.read outcome]) ∧
    (isReady c.buffer = true → TakesPart c (readNext c).1 (readNext c).2) ∧
    (∀ op, Contacts c (c.perform op).2) ∧
    (isReady c.buffer = true → ∀ op, ∃ written,
      (c.perform op).2.peer.contacts = c.peer.contacts ++ written ∧
        ∀ contact ∈ written, contact.written?.isSome = true) ∧
    (∀ calls, Pays c (findings (c.answers calls).1).length (c.answers calls).2) ∧
    ∀ d calls, Peer.Delivers c.peer d → d.ending = .quiet →
      (findings (c.answers calls).1).length ≤ (c.buffer.length + d.bytes.length) / 4 ∧
        (d.arrivals.length + (c.buffer.length + d.bytes.length) / 4 ≤ calls.count .read →
          Drained (c.answers calls).2 .quiet) :=
  ⟨isReady_iff_unasked c, not_isReady_iff_asked c, readNext_of_ready, perform_contacts c,
    fun hready op => (perform_contacts c op).of_ready hready, answers_pays c,
    fun _ calls hdelivers hquiet => findings_le hdelivers hquiet calls⟩

/-- A connection that holds two empty objects, while its server is silent. -/
def heldObjects : Connection (Watched ScriptedServer) :=
  { attach (.of (.delivering ⟨[], .quiet⟩)) .zero with
    buffer := encode (.obj []) ++ encode (.obj []) }

/-- The first of them is taken without a question, and there are not many reads that find something. -/
theorem reads_progress_held :
    isReady heldObjects.buffer = true ∧
      TakesPart heldObjects (readNext heldObjects).1 (readNext heldObjects).2 ∧
      (findings (heldObjects.answers (List.replicate 11 .read)).1).length ≤ 11 ∧
      Drained (heldObjects.answers (List.replicate 11 .read)).2 .quiet := by
  have hready : isReady heldObjects.buffer = true := by decide
  have hdelivers : Peer.Delivers heldObjects.peer ⟨[], .quiet⟩ :=
    (ScriptedServer.delivers_delivering _).watched
  obtain ⟨-, -, htakes, -, -, -, hruns⟩ := reads_progress heldObjects
  obtain ⟨hfew, hdrained⟩ := hruns ⟨[], .quiet⟩ (List.replicate 11 .read) hdelivers rfl
  exact ⟨hready, htakes hready, hfew, hdrained (by decide)⟩

end Connection

end LanguageClient
