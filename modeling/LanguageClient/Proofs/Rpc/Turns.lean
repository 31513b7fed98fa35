import LanguageClient.Proofs.Rpc.Delivery
import LanguageClient.Proofs.Rpc.Waiting

/-!
# Reading what an ended server left

A server that has ended leaves output behind it, and no wait for it takes long (`Peer.Ended`).  So
what repeated reads take of the output is known beforehand: the parts of the stream, one after the
other, with nothing where an arrival leaves a part incomplete.  Main statements: `next_of_ended` and
`filterMap_takings`.

```text
the buffer begins with a part      the turn takes it, and nothing arrives
the next arrival completes one     the turn takes it
neither                            the turn takes nothing, and the arrival is kept
```

## Strategy

A turn is a function of the buffer and of the schedule (`Frame.turn`), and brings the end of the
stream nearer (`Frame.parts_turn`).  A read is a turn, whoever delivers the schedule
(`readNext_reads`), and so is asking for the next message while the inbox is empty (`next_turned`).
-/

namespace LanguageClient

/-! ## Servers that have ended -/

namespace Peer

open Connection (readLimit)

/-- What may be asked about the output of a server. -/
inductive Ask where
  | await (timeout : Binary64)
  | read

def Ask.isRead : Ask → Bool
  | await _ => false
  | read => true

variable {σ : Type} [Peer σ]

/-- The server after some questions. -/
def afterAsks : List Ask → σ → σ
  | [], s => s
  | .await timeout :: asks, s => afterAsks asks (Peer.await timeout s).2
  | .read :: asks, s => afterAsks asks (Peer.read readLimit s).2

/-- The process has ended, so that no wait for its output takes long; the output itself comes by a
schedule. -/
structure Ended (s : σ) (d : Delivery) : Prop where
  stopped : ∀ asks, isRunning (afterAsks asks s) = false
  ready : ∀ asks timeout, (Peer.await timeout (afterAsks asks s)).1 = .ready
  delivers : ∀ asks, (Peer.read readLimit (afterAsks asks s)).1 = d.outcome (asks.countP Ask.isRead)

variable {s peer : σ} {d : Delivery}

theorem Ended.await (h : Ended s d) (timeout : Binary64) :
    ∃ peer, Peer.await timeout s = (.ready, peer) ∧ Ended peer d :=
  ⟨(Peer.await timeout s).2, Prod.ext (h.ready [] timeout) rfl,
    fun asks => h.stopped (.await timeout :: asks), fun asks => h.ready (.await timeout :: asks),
    fun asks => h.delivers (.await timeout :: asks)⟩

theorem Ended.read {outcome : ReadOutcome} (h : Ended s d)
    (hread : Peer.read readLimit s = (outcome, peer)) :
    d.outcome 0 = outcome ∧ Ended peer d.rest := by
  obtain ⟨rfl, rfl⟩ := Prod.mk.inj hread
  refine ⟨(h.delivers []).symm, fun asks => h.stopped (.read :: asks),
    fun asks => h.ready (.read :: asks), fun asks => ?_⟩
  rw [← Delivery.outcome_succ, ← List.countP_cons_of_pos (l := asks) (a := Ask.read) rfl]
  exact h.delivers (.read :: asks)

end Peer

namespace ScriptedServer

/-- A scripted server whose process has ended, and whose output is still to be read. -/
def leaving (arrivals : List Arrival) : ScriptedServer :=
  { delivering ⟨arrivals, .closed⟩ with exited := true }

theorem read_exited (s : ScriptedServer) (limit : Nat) :
    Peer.read limit { s with exited := true } =
      ((Peer.read limit s).1, { (Peer.read limit s).2 with exited := true }) := by
  obtain ⟨rules, queue, ended, exited, inputMode, badDescriptor, interrupts, terminations, received⟩ := s
  cases terminations with
  | succ n => rfl
  | zero =>
      cases badDescriptor with
      | true => rfl
      | false => rcases queue with _ | ⟨_ | ⟨b, piece⟩, rest⟩ <;> rfl

theorem read_leaving (arrivals : List Arrival) :
    Peer.read Connection.readLimit (leaving arrivals) =
      ((⟨arrivals, .closed⟩ : Delivery).outcome 0, leaving arrivals.tail) := by
  rw [leaving, read_exited, read_delivering]
  rfl

theorem await_leaving (timeout : Binary64) (arrivals : List Arrival) :
    Peer.await timeout (leaving arrivals) = (.ready, leaving arrivals) := by
  cases arrivals <;> rfl

theorem afterAsks_leaving (asks : List Peer.Ask) (arrivals : List Arrival) :
    Peer.afterAsks asks (leaving arrivals) =
      leaving (arrivals.drop (asks.countP Peer.Ask.isRead)) := by
  induction asks generalizing arrivals with
  | nil => rfl
  | cons ask asks ih =>
      cases ask with
      | await timeout =>
          rw [Peer.afterAsks, await_leaving, ih]
          rfl
      | read =>
          rw [Peer.afterAsks, read_leaving, ih, List.countP_cons_of_pos rfl, List.drop_tail]

theorem ended_leaving (arrivals : List Arrival) :
    Peer.Ended (leaving arrivals) ⟨arrivals, .closed⟩ where
  stopped asks := by
    rw [afterAsks_leaving]
    rfl
  ready asks timeout := by rw [afterAsks_leaving, await_leaving]
  delivers asks := by
    rw [afterAsks_leaving, read_leaving]
    simp [Delivery.outcome]

end ScriptedServer

/-! ## Turns -/

namespace Delivery

/-- What arrives next, if anything does. -/
def next (d : Delivery) : Bytes := (d.arrivals.head?.map Arrival.bytes).getD []

theorem bytes_eq (d : Delivery) : d.bytes = d.next ++ d.rest.bytes := by
  obtain ⟨arrivals, ending⟩ := d
  cases arrivals <;> rfl

theorem next_of_data {d : Delivery} {bytes : Bytes} (h : d.outcome 0 = .data bytes) :
    d.next = bytes := by
  obtain ⟨arrivals, ending⟩ := d
  cases arrivals with
  | nil => cases ending <;> cases h
  | cons arrival arrivals => cases arrival <;> cases h; rfl

theorem next_of_failure {d : Delivery} {e : RpcError} (h : (d.outcome 0).failure? = some e) :
    d.next = [] := by
  obtain ⟨arrivals, ending⟩ := d
  cases arrivals with
  | nil => rfl
  | cons arrival arrivals => cases arrival <;> cases h; rfl

end Delivery

namespace Frame

/-- What one read takes of a stream: the part that the buffer begins with, or else the part that the
next arrival completes, if any; with the buffer and the schedule after it. -/
def turn (buffer : Bytes) (d : Delivery) : Option Part × Bytes × Delivery :=
  match take? buffer with
  | some (part, rest) => (some part, rest, d)
  | none =>
    match take? (buffer ++ d.next) with
    | some (part, rest) => (some part, rest, d.rest)
    | none => (none, buffer ++ d.next, d.rest)

/-- What `n` reads take, one after the other. -/
def turns : (n : Nat) → Bytes → Delivery → List (Option Part)
  | 0, _, _ => []
  | n + 1, buffer, d => (turn buffer d).1 :: turns n (turn buffer d).2.1 (turn buffer d).2.2

section Turn

variable {buffer rest : Bytes} {part : Part} {d : Delivery}

theorem turn_of_buffered (htake : take? buffer = some (part, rest)) (d : Delivery) :
    turn buffer d = (some part, rest, d) := by
  rw [turn, htake]

theorem turn_of_completed (hnone : take? buffer = none)
    (htake : take? (buffer ++ d.next) = some (part, rest)) :
    turn buffer d = (some part, rest, d.rest) := by
  rw [turn, hnone]
  simp only [htake]

theorem turn_of_kept (hnone : take? buffer = none) (hmore : take? (buffer ++ d.next) = none) :
    turn buffer d = (none, buffer ++ d.next, d.rest) := by
  rw [turn, hnone]
  simp only [hmore]

end Turn

/-- A turn takes the first part of the stream, or none, and brings the end of the stream nearer. -/
theorem parts_turn (buffer : Bytes) (d : Delivery) :
    (parts (buffer ++ d.bytes)).1 =
        (turn buffer d).1.toList ++ (parts ((turn buffer d).2.1 ++ (turn buffer d).2.2.bytes)).1 ∧
      (turn buffer d).2.2.arrivals.length +
          (parts ((turn buffer d).2.1 ++ (turn buffer d).2.2.bytes)).1.length ≤
        d.arrivals.length + (parts (buffer ++ d.bytes)).1.length - 1 := by
  cases htake : take? buffer with
  | some taken =>
      obtain ⟨part, rest⟩ := taken
      rw [turn_of_buffered htake, parts_of_some (take?_append htake d.bytes)]
      exact ⟨rfl, by simp⟩
  | none =>
      have hshorter : d.rest.arrivals.length = d.arrivals.length - 1 := d.arrivals.length_tail
      rw [d.bytes_eq, ← List.append_assoc]
      cases hmore : take? (buffer ++ d.next) with
      | some taken =>
          obtain ⟨part, rest⟩ := taken
          rw [turn_of_completed htake hmore, parts_of_some (take?_append hmore d.rest.bytes)]
          refine ⟨rfl, ?_⟩
          simp only [List.length_cons]
          omega
      | none =>
          rw [turn_of_kept htake hmore]
          refine ⟨rfl, ?_⟩
          -- with nothing to arrive, a part to come would be in the buffer
          by_cases hall : d.arrivals = []
          · have hrest : d.rest.bytes = [] := by rw [Delivery.bytes, Delivery.rest, hall]; rfl
            rw [hrest, List.append_nil, parts_of_none hmore]
            simp [Delivery.rest, hall]
          · have hpos := List.length_pos_iff.mpr hall
            dsimp only
            omega

/-- **Enough turns take all parts of the stream, in their order.** -/
theorem filterMap_turns {n : Nat} {buffer : Bytes} {d : Delivery}
    (hn : d.arrivals.length + (parts (buffer ++ d.bytes)).1.length ≤ n) :
    (turns n buffer d).filterMap id = (parts (buffer ++ d.bytes)).1 := by
  induction n generalizing buffer d with
  | zero =>
      have hnil : (parts (buffer ++ d.bytes)).1 = [] := List.eq_nil_of_length_eq_zero (by omega)
      rw [hnil]
      rfl
  | succ n ih =>
      obtain ⟨hparts, hshorter⟩ := parts_turn buffer d
      rw [hparts, ← ih (by omega), turns]
      cases (turn buffer d).1 <;> rfl

end Frame

/-- What is passed on of what a read gives: a notification or a request, or nothing. -/
def ReadResult.passed : ReadResult → Except Fault (Option Members)
  | .ok m => .ok (if m.has "method" then some m else none)
  | .error (.failed _) => .ok none
  | .error (.faulted f) => .error f

/-- What is passed on when its turn has come. -/
def Frame.taking (taken : Option Frame.Part) : Except Fault (Option Members) :=
  taken.elim (.ok none) fun part => part.result.passed

/-- The notification or request that a part holds, if it holds one. -/
def Frame.Part.passed? (part : Frame.Part) : Option Members := part.result.passed.toOption.join

theorem Frame.taking_passed (taken : Option Frame.Part) :
    (Frame.taking taken).toOption.join = taken.bind Frame.Part.passed? := by
  cases taken <;> rfl

namespace Connection

open LanguageClient.Frame

variable {σ : Type} [Peer σ] {d : Delivery}

/-! ## A read and its turn -/

/-- Reading the output of a server brings the first of the schedule, and what is said of the server and
the schedule stays true of what is left of both. -/
def Follows (P : σ → Delivery → Prop) : Prop :=
  ∀ ⦃s peer : σ⦄ ⦃d : Delivery⦄ ⦃outcome : ReadOutcome⦄, P s d →
    Peer.read readLimit s = (outcome, peer) → d.outcome 0 = outcome ∧ P peer d.rest

/-- What a read gives and writes into the journal, by what its turn takes. -/
inductive Reads (c : Connection σ) (d : Delivery) : Option Part → ReadResult → Connection σ → Prop
  | part (part : Part) {c' : Connection σ} (hjournal : c'.journal = c.journal ++ part.entries) :
      Reads c d (some part) part.result c'
  | nothing {c' : Connection σ} (hjournal : c'.journal = c.journal) :
      Reads c d none (.error (.failed ((d.outcome 0).failure?.getD .wouldBlock))) c'

/-- **A read is a turn.** -/
theorem readNext_reads {P : σ → Delivery → Prop} (hP : Follows P) {c : Connection σ}
    (h : P c.peer d) :
    Reads c d (turn c.buffer d).1 (readNext c).1 (readNext c).2 ∧
      P (readNext c).2.peer (turn c.buffer d).2.2 ∧
      (readNext c).2.buffer = (turn c.buffer d).2.1 ∧ (readNext c).2.inbox = c.inbox := by
  have hstep := readNext_step c
  generalize (readNext c).1 = result at hstep ⊢
  generalize (readNext c).2 = c' at hstep ⊢
  cases hstep with
  | @buffered part rest htake =>
      rw [turn_of_buffered htake d]
      exact ⟨.part part rfl, h, rfl, rfl⟩
  | @completed bytes rest peer part hnone hread htake =>
      obtain ⟨houtcome, hpeer⟩ := hP h hread
      obtain rfl := Delivery.next_of_data houtcome
      rw [turn_of_completed hnone htake]
      exact ⟨.part part rfl, hpeer, rfl, rfl⟩
  | @kept bytes peer hnone hread hmore =>
      obtain ⟨houtcome, hpeer⟩ := hP h hread
      obtain rfl := Delivery.next_of_data houtcome
      have hfailure : (d.outcome 0).failure?.getD .wouldBlock = .wouldBlock := by rw [houtcome]; rfl
      rw [turn_of_kept hnone hmore, ReadResult.wouldBlock, ← hfailure]
      exact ⟨.nothing rfl, hpeer, rfl, rfl⟩
  | @refused outcome peer e hnone hread hfailure =>
      obtain ⟨houtcome, hpeer⟩ := hP h hread
      rw [← houtcome] at hfailure
      have hnext : c.buffer ++ d.next = c.buffer := by
        rw [Delivery.next_of_failure hfailure, List.append_nil]
      have hturn := turn_of_kept (d := d) hnone (by rw [hnext]; exact hnone)
      have he : (d.outcome 0).failure?.getD .wouldBlock = e := by rw [hfailure]; rfl
      rw [hturn, ← he]
      exact ⟨.nothing rfl, hpeer, hnext.symm, rfl⟩

/-- From `c` to `c'` a turn was taken; the inbox is as it was. -/
structure Turned (c : Connection σ) (d : Delivery) (c' : Connection σ) : Prop where
  ended : Peer.Ended c'.peer (turn c.buffer d).2.2
  buffer_eq : c'.buffer = (turn c.buffer d).2.1
  inbox_eq : c'.inbox = c.inbox

theorem awaitOutput_of_ended {c : Connection σ} (h : Peer.Ended c.peer d) :
    ∃ c', awaitOutput c = (.ok (), c') ∧ Peer.Ended c'.peer d ∧ c'.buffer = c.buffer ∧
      c'.inbox = c.inbox := by
  unfold awaitOutput
  simp only [Attempt.bind_apply, Attempt.get_apply]
  by_cases hready : isReady c.buffer
  · exact ⟨c, by rw [if_pos hready]; rfl, h, rfl, rfl⟩
  · obtain ⟨peer, hawait, hpeer⟩ := h.await c.pollTimeout
    exact ⟨{ c with peer := peer }, by rw [if_neg hready, hawait]; rfl, hpeer, rfl, rfl⟩

/-- What a read gives is what its turn gives. -/
theorem readNext_turned {c : Connection σ} (h : Peer.Ended c.peer d) :
    Turned c d (readNext c).2 ∧
      taking (turn c.buffer d).1 = ReadResult.passed (readNext c).1 := by
  obtain ⟨hreads, hended, hbuffer, hinbox⟩ := readNext_reads (fun _ _ _ _ => Peer.Ended.read) h
  refine ⟨⟨hended, hbuffer, hinbox⟩, ?_⟩
  generalize (turn c.buffer d).1 = taken at hreads ⊢
  generalize (readNext c).1 = result at hreads ⊢
  cases hreads with
  | part | nothing => rfl

/-- What asking for the next message gives by what it takes. -/
inductive Gives : Except Fault (Option Members) →
    Except (Stop RpcError) (Option Members) → Prop
  | message (m : Members) : Gives (.ok (some m)) (.ok (some m))
  | nothing : Gives (.ok none) (.ok none)
  | failure (e : RpcError) : Gives (.ok none) (.error (.failed e))
  | fault (f : Fault) : Gives (.error f) (.error (.faulted f))

/-- **With an empty inbox, asking for the next message is a turn.** -/
theorem next_turned {c : Connection σ} (h : Peer.Ended c.peer d) (hinbox : c.inbox = []) :
    Gives (taking (turn c.buffer d).1) (next c).1 ∧ Turned c d (next c).2 := by
  obtain ⟨c₁, hawait, hpeer, hbuffer, hsame⟩ := awaitOutput_of_ended h
  obtain ⟨⟨hended', hbuffer', hinbox'⟩, htaking⟩ := readNext_turned hpeer
  rw [hbuffer] at hended' hbuffer' htaking
  rw [htaking]
  rcases hread : readNext c₁ with ⟨(e | f) | m, c'⟩
  all_goals
    rw [hread] at hended' hbuffer' hinbox'
    have hturned : Turned c d c' := ⟨hended', hbuffer', hinbox'.trans hsame⟩
  · -- a failure shows as such, or as that nothing came
    have hnext : (next c).2 = c' ∧ ((next c).1 = .ok none ∨ ∃ e, (next c).1 = .error (.failed e)) := by
      unfold next readOne
      simp only [Attempt.bind_apply, Attempt.get_apply, hinbox, hawait, Attempt.outcome, hread]
      cases e <;> simp
    rw [hnext.1]
    refine ⟨?_, hturned⟩
    rcases hnext.2 with hnone | ⟨e, he⟩
    · rw [hnone]
      exact .nothing
    · rw [he]
      exact .failure e
  · have hnext : next c = (.error (.faulted f), c') := by
      unfold next readOne
      simp only [Attempt.bind_apply, Attempt.get_apply, hinbox, hawait, Attempt.outcome, hread]
    rw [hnext]
    exact ⟨.fault f, hturned⟩
  · have hone : readOne c = (.ok m, c') := by
      unfold readOne
      rw [Attempt.bind_of_ok hawait, Attempt.bind_of_ok (Attempt.outcome_of_ok hread)]
      rfl
    rw [next_of_message hinbox hone]
    dsimp only [ReadResult.passed]
    split
    · exact ⟨.message m, hturned⟩
    · exact ⟨.nothing, hturned.1, hturned.2, hturned.3⟩

/-! ## Asking again and again -/

/-- What asking `n` times for the next message takes: the inbox first, then one turn each time. -/
def takings (c : Connection σ) (d : Delivery) (n : Nat) : List (Except Fault (Option Members)) :=
  (c.inbox.take n).map (fun m => .ok (some m)) ++
    (turns (n - c.inbox.length) c.buffer d).map taking

/-- Asking for the next message takes the first of what there is to take. -/
theorem next_of_ended {c : Connection σ} (h : Peer.Ended c.peer d) :
    ∃ taken d', Gives taken (next c).1 ∧ Peer.Ended (next c).2.peer d' ∧
      ∀ n, takings c d (n + 1) = taken :: takings (next c).2 d' n := by
  cases hinbox : c.inbox with
  | cons m rest =>
      rw [next_of_cons hinbox]
      refine ⟨.ok (some m), d, .message m, h, fun n => ?_⟩
      simp [takings, hinbox]
  | nil =>
      obtain ⟨hgives, hended, hbuffer, hsame⟩ := next_turned h hinbox
      refine ⟨_, _, hgives, hended, fun n => ?_⟩
      simp [takings, hinbox, hsame, hbuffer, turns]

omit [Peer σ] in
theorem filterMap_takings {c : Connection σ} {n : Nat}
    (hn : c.inbox.length + (d.arrivals.length + (parts (c.buffer ++ d.bytes)).1.length) ≤ n) :
    (takings c d n).filterMap (fun taken => taken.toOption.join) =
      c.inbox ++ (parts (c.buffer ++ d.bytes)).1.filterMap Part.passed? := by
  have hinbox : c.inbox.take n = c.inbox := List.take_of_length_le (by omega)
  have hturns : (turns (n - c.inbox.length) c.buffer d).filterMap id =
      (parts (c.buffer ++ d.bytes)).1 :=
    filterMap_turns (by omega)
  rw [takings, List.filterMap_append, hinbox, ← hturns, List.filterMap_map, List.filterMap_map,
    List.filterMap_filterMap]
  congr 1
  · exact List.filterMap_some
  · exact List.filterMap_congr fun taken _ => taking_passed taken

end Connection

end LanguageClient
