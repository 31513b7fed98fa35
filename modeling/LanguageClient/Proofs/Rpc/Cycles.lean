import LanguageClient.Proofs.Rpc.StrayOutput
import LanguageClient.Proofs.Rpc.Turns

/-!
# Poll cycles

When the output of a server is there already, each poll cycle takes one message of it, or makes one
read that completes none.  So the cycle that brings a response is known beforehand: it comes behind
one cycle for every message before the response, and one for every read in vain that is made until the
response is complete (`Offers.answered`).

```text
the buffer begins with a message          the cycle takes it, and reads nothing
the next arrival completes a message      the cycle takes it
the next arrival completes none           the cycle is in vain, and the arrival is kept
nothing is left to arrive                 the cycle is in vain
```

## Strategy

How many reads are in vain is counted on the schedule (`Frame.vain`), without regard to who reads.
What a cycle takes is a turn (`receive_advances`), and every turn but the last brings the response
nearer by one (`Frame.vain_of_some`, `Frame.vain_of_none`).  A wait goes through its cycles as long as
they may be followed by another one (`wait_eq`).
-/

namespace LanguageClient

/-! ## Output that is there already -/

namespace Peer

open Connection (readLimit)

variable {σ : Type} [Peer σ]

/-- The output is there to be read by a schedule, and nothing comes after it; a wait ends at once as long
as something is there, and in vain otherwise. -/
structure Holds (s : σ) (d : Delivery) : Prop where
  quiet : d.ending = .quiet
  ready : ∀ asks timeout, (Peer.await timeout (afterAsks asks s)).1 =
    if d.arrivals.length ≤ asks.countP Ask.isRead then .quiet else .ready
  delivers : ∀ asks, (Peer.read readLimit (afterAsks asks s)).1 = d.outcome (asks.countP Ask.isRead)

variable {s peer : σ} {d : Delivery}

theorem Holds.await (h : Holds s d) (timeout : Binary64) :
    ∃ peer, Peer.await timeout s = (if d.arrivals = [] then .quiet else .ready, peer) ∧
      Holds peer d := by
  refine ⟨(Peer.await timeout s).2, Prod.ext ((h.ready [] timeout).trans ?_) rfl, h.quiet,
    fun asks => h.ready (.await timeout :: asks), fun asks => h.delivers (.await timeout :: asks)⟩
  simp [List.length_eq_zero_iff]

theorem Holds.follows : Connection.Follows (Holds (σ := σ)) := by
  intro s peer d outcome h hread
  obtain ⟨rfl, rfl⟩ := Prod.mk.inj hread
  have hcount : ∀ asks : List Ask, (Ask.read :: asks).countP Ask.isRead =
      asks.countP Ask.isRead + 1 := fun asks => List.countP_cons_of_pos rfl
  refine ⟨(h.delivers []).symm, h.quiet, fun asks timeout => ?_, fun asks => ?_⟩
  · refine (h.ready (.read :: asks) timeout).trans ?_
    rw [hcount]
    simp [Delivery.rest]
  · rw [← Delivery.outcome_succ, ← hcount]
    exact h.delivers (.read :: asks)

theorem afterAsks_watched (asks : List Ask) (s : σ) (contacts : List Contact) :
    (afterAsks asks (⟨s, contacts⟩ : Watched σ)).peer = afterAsks asks s := by
  induction asks generalizing s contacts with
  | nil => rfl
  | cons ask asks ih =>
      cases ask with
      | await timeout => exact ih _ _
      | read => exact ih _ _

/-- It does not matter whether the server is watched. -/
theorem Holds.watched (h : Holds s d) (contacts : List Contact) :
    Holds (⟨s, contacts⟩ : Watched σ) d where
  quiet := h.quiet
  ready asks timeout := by
    rw [← h.ready asks timeout, ← afterAsks_watched asks s contacts]
    rfl
  delivers asks := by
    rw [← h.delivers asks, ← afterAsks_watched asks s contacts]
    rfl

end Peer

namespace ScriptedServer

/-- A scripted server whose output is there already, and that has nothing more to say to what it is
told. -/
def holding (arrivals : List Arrival) (received : List Json) : ScriptedServer :=
  { delivering ⟨arrivals, .quiet⟩ with received := received }

variable (arrivals : List Arrival) (received : List Json)

theorem await_holding (timeout : Binary64) :
    Peer.await timeout (holding arrivals received) =
      (if arrivals = [] then .quiet else .ready, holding arrivals received) := by
  cases arrivals <;> rfl

theorem read_received (s : ScriptedServer) (limit : Nat) :
    Peer.read limit { s with received := received } =
      ((Peer.read limit s).1, { (Peer.read limit s).2 with received := received }) := by
  obtain ⟨rules, queue, ended, exited, inputMode, badDescriptor, interrupts, terminations, heard⟩ := s
  cases terminations with
  | succ n => rfl
  | zero =>
      cases badDescriptor with
      | true => rfl
      | false => rcases queue with _ | ⟨_ | ⟨b, piece⟩, rest⟩ <;> rfl

theorem read_holding :
    Peer.read Connection.readLimit (holding arrivals received) =
      ((⟨arrivals, .quiet⟩ : Delivery).outcome 0, holding arrivals.tail received) := by
  rw [holding, read_received, read_delivering]
  rfl

/-- Whatever it is told, it goes on to hold the same output. -/
theorem hearAll_holding (fuel : Nat) (bytes : Bytes) :
    ∃ heard, hearAll fuel (holding arrivals received) bytes = holding arrivals heard := by
  have hhear : ∀ received message, ∃ heard,
      (holding arrivals received).hear message = holding arrivals heard := by
    intro received message
    refine ⟨received ++ [message], ?_⟩
    unfold hear
    dsimp only
    split <;> rfl
  induction fuel generalizing received bytes with
  | zero =>
      unfold hearAll
      exact ⟨received, rfl⟩
  | succ fuel ih =>
      unfold hearAll
      cases Frame.front bytes with
      | incomplete | malformed => exact ⟨received, rfl⟩
      | body body rest =>
          dsimp only
          rcases Frame.readBody body with (_ | _ | v) | message
          · exact ih received rest
          · exact ih received rest
          · obtain ⟨heard, hheard⟩ := hhear received v
            dsimp only
            rw [hheard]
            exact ih heard rest
          · obtain ⟨heard, hheard⟩ := hhear received (.obj message)
            dsimp only
            rw [hheard]
            exact ih heard rest

theorem afterAsks_holding (asks : List Peer.Ask) :
    Peer.afterAsks asks (holding arrivals received) =
      holding (arrivals.drop (asks.countP Peer.Ask.isRead)) received := by
  induction asks generalizing arrivals with
  | nil => rfl
  | cons ask asks ih =>
      cases ask with
      | await timeout =>
          rw [Peer.afterAsks, await_holding, ih]
          rfl
      | read => rw [Peer.afterAsks, read_holding, ih, List.countP_cons_of_pos rfl, List.drop_tail]

theorem holds_holding : Peer.Holds (holding arrivals received) ⟨arrivals, .quiet⟩ where
  quiet := rfl
  ready asks timeout := by
    rw [afterAsks_holding, await_holding]
    simp [List.drop_eq_nil_iff]
  delivers asks := by
    rw [afterAsks_holding, read_holding]
    simp [Delivery.outcome]

/-- It also holds the same output when it is written to. -/
theorem holds_written (bytes : Bytes) (contacts : List Contact) :
    Peer.Holds (Peer.write bytes (⟨holding arrivals received, contacts⟩ : Watched ScriptedServer)).2
      ⟨arrivals, .quiet⟩ := by
  obtain ⟨heard, hheard⟩ := hearAll_holding arrivals received bytes.length bytes
  have hholds := (holds_holding arrivals heard).watched (contacts ++ [.wrote bytes .accepted])
  rw [← hheard] at hholds
  exact hholds

end ScriptedServer

/-! ## Reads in vain -/

namespace Frame

/-- How many parts are complete in a buffer. -/
def complete (buffer : Bytes) : Nat := (parts buffer).1.length

/-- How many of the arrivals complete no part, of those that come before part `j` is complete. -/
def vain (buffer : Bytes) : List Arrival → (j : Nat) → Nat
  | [], _ => 0
  | arrival :: rest, j =>
    let more := buffer ++ arrival.bytes
    (if complete more = complete buffer ∧ complete more ≤ j then 1 else 0) + vain more rest j

variable {buffer rest : Bytes} {part : Part} {d : Delivery}

theorem complete_of_none (h : take? buffer = none) : complete buffer = 0 := by
  rw [complete, parts_of_none h]
  rfl

theorem complete_of_some (h : take? buffer = some (part, rest)) :
    complete buffer = complete rest + 1 := by
  rw [complete, parts_of_some h]
  rfl

/-- No read is made before a part that is there is taken, and none behind it counts for it. -/
theorem vain_of_take? (h : take? buffer = some (part, rest)) (arrivals : List Arrival) :
    vain buffer arrivals 0 = 0 ∧ ∀ j, vain buffer arrivals (j + 1) = vain rest arrivals j := by
  induction arrivals generalizing buffer rest with
  | nil => exact ⟨rfl, fun _ => rfl⟩
  | cons arrival arrivals ih =>
      have hmore := take?_append h arrival.bytes
      obtain ⟨hfirst, hlater⟩ := ih hmore
      constructor
      · rw [vain, hfirst, complete_of_some hmore]
        simp
      · intro j
        rw [vain, vain, hlater, complete_of_some hmore, complete_of_some h]
        simp

/-- A turn that takes a part brings all others nearer by one place, and spends no read in vain. -/
theorem vain_of_some (h : (turn buffer d).1 = some part) :
    vain buffer d.arrivals 0 = 0 ∧ ∀ j, vain buffer d.arrivals (j + 1) =
      vain (turn buffer d).2.1 (turn buffer d).2.2.arrivals j := by
  cases htake : take? buffer with
  | some taken =>
      rw [turn_of_buffered htake]
      exact vain_of_take? htake d.arrivals
  | none =>
      cases hmore : take? (buffer ++ d.next) with
      | none =>
          rw [turn_of_kept htake hmore] at h
          cases h
      | some taken =>
          obtain ⟨part, rest⟩ := taken
          rw [turn_of_completed htake hmore]
          obtain ⟨arrivals, ending⟩ := d
          cases arrivals with
          | nil =>
              -- what is not complete stays so when nothing arrives
              rw [Delivery.next, List.head?_nil, Option.map_none, Option.getD_none,
                List.append_nil, htake] at hmore
              cases hmore
          | cons arrival arrivals =>
              have hmore : take? (buffer ++ arrival.bytes) = some (part, rest) := hmore
              obtain ⟨hfirst, hlater⟩ := vain_of_take? hmore arrivals
              have hgrown : complete (buffer ++ arrival.bytes) ≠ complete buffer := by
                rw [complete_of_some hmore, complete_of_none htake]
                exact Nat.succ_ne_zero _
              constructor
              · rw [vain, hfirst, if_neg fun h => hgrown h.1]
              · intro j
                rw [vain, hlater, if_neg fun h => hgrown h.1, Nat.zero_add]
                rfl

/-- A turn that takes none spends a read in vain, as long as something arrives. -/
theorem vain_of_none (h : (turn buffer d).1 = none) (harrives : d.arrivals ≠ []) (j : Nat) :
    vain buffer d.arrivals j = vain (turn buffer d).2.1 (turn buffer d).2.2.arrivals j + 1 := by
  cases htake : take? buffer with
  | some taken =>
      rw [turn_of_buffered htake] at h
      cases h
  | none =>
      cases hmore : take? (buffer ++ d.next) with
      | some taken =>
          rw [turn_of_completed htake hmore] at h
          cases h
      | none =>
          rw [turn_of_kept htake hmore]
          obtain ⟨arrivals, ending⟩ := d
          obtain ⟨arrival, arrivals, rfl⟩ := List.exists_cons_of_ne_nil harrives
          have hnext : Delivery.next ⟨arrival :: arrivals, ending⟩ = arrival.bytes := rfl
          rw [hnext] at hmore ⊢
          rw [vain, complete_of_none hmore, complete_of_none htake, if_pos ⟨rfl, Nat.zero_le j⟩,
            Nat.add_comm]
          rfl

end Frame

namespace Connection

open LanguageClient.Frame

variable {σ : Type} [Peer σ] {c : Connection σ} {d : Delivery} {frames : List Members} {id : Json}

/-! ## One cycle -/

/-- Messages are there to be read: the parts of the output, behind those that the buffer begins with. -/
structure Offers (c : Connection σ) (d : Delivery) (frames : List Members) : Prop where
  holds : Peer.Holds c.peer d
  parts_eq : (parts (c.buffer ++ d.bytes)).1.map Part.result = frames.map Except.ok

/-- The frames of plain messages are there to be read. -/
theorem Offers.of_frames (hholds : Peer.Holds c.peer d) (hempty : c.buffer = [])
    (hbytes : d.bytes = frames.flatMap frameOf) (hfit : Fit frames)
    (hplain : ∀ m ∈ frames, (Json.obj m).Plain) : Offers c d frames := by
  refine ⟨hholds, ?_⟩
  rw [hempty, List.nil_append, hbytes, results_frames hfit hplain]

/-- With nothing to arrive, and nothing complete in the buffer, a turn takes nothing and leaves all as it
is. -/
theorem turn_of_empty {buffer : Bytes} (hnone : take? buffer = none) (hall : d.arrivals = []) :
    turn buffer d = (none, buffer, d) := by
  obtain ⟨arrivals, ending⟩ := d
  obtain rfl : arrivals = [] := hall
  have hnext : buffer ++ Delivery.next ⟨[], ending⟩ = buffer := List.append_nil buffer
  rw [turn_of_kept hnone (by rw [hnext]; exact hnone), hnext]
  rfl

theorem take?_of_turn {buffer : Bytes} (h : (turn buffer d).1 = none) : take? buffer = none := by
  cases htake : take? buffer with
  | none => rfl
  | some taken =>
      rw [turn_of_buffered htake] at h
      cases h

/-- A wait ends in time if there is something to take, and goes in vain otherwise. -/
theorem awaitOutput_of_holds (h : Peer.Holds c.peer d) :
    ∃ peer, Peer.Holds peer d ∧
      (awaitOutput c = (.ok (), { c with peer := peer }) ∨
        take? c.buffer = none ∧ d.arrivals = [] ∧
          awaitOutput c = (.error (.failed .timeout), { c with peer := peer })) := by
  unfold awaitOutput
  simp only [Attempt.bind_apply, Attempt.get_apply]
  by_cases hready : isReady c.buffer
  · exact ⟨c.peer, h, Or.inl (by rw [if_pos hready]; rfl)⟩
  · obtain ⟨peer, hawait, hholds⟩ := h.await c.pollTimeout
    refine ⟨peer, hholds, ?_⟩
    rw [if_neg hready, hawait]
    by_cases hall : d.arrivals = []
    · rw [isReady_eq, Bool.not_eq_true, Option.isSome_eq_false_iff, Option.isNone_iff_eq_none] at hready
      exact Or.inr ⟨hready, hall, by rw [if_pos hall]; rfl⟩
    · exact Or.inl (by rw [if_neg hall]; rfl)

/-- How a poll cycle ends by how its read ends: what would block has timed out. -/
def cycleStop : Stop RpcError → Stop RpcError
  | .failed .wouldBlock => .failed .timeout
  | stop => stop

theorem readOne_of_await {c₁ : Connection σ} (hawait : awaitOutput c = (.ok (), c₁)) :
    readOne c = ((readNext c₁).1.mapError cycleStop, (readNext c₁).2) := by
  unfold readOne
  rw [Attempt.bind_of_ok hawait]
  rcases hread : readNext c₁ with ⟨(e | f) | m, c'⟩
  · rw [Attempt.bind_of_ok (Attempt.outcome_of_failed hread)]
    cases e <;> rfl
  · rw [Attempt.bind_of_error (Attempt.outcome_of_faulted hread)]
    rfl
  · rw [Attempt.bind_of_ok (Attempt.outcome_of_ok hread)]
    rfl

omit [Peer σ] in
theorem mapError_result (part : Part) : part.result.mapError cycleStop = part.result := by
  have hfinding := part.isFinding_result
  generalize part.result = result at hfinding ⊢
  rcases result with (e | f) | m
  · cases e with
    | wouldBlock => cases hfinding
    | _ => rfl
  · rfl
  · rfl

omit [Peer σ] in
theorem failure_of_quiet (h : d.ending = .quiet) :
    (d.outcome 0).failure?.getD .wouldBlock = .wouldBlock := by
  obtain ⟨arrivals, ending⟩ := d
  obtain rfl : ending = .quiet := h
  rcases arrivals with _ | ⟨_ | _, _⟩ <;> rfl

/-- What a poll cycle gives and writes into the journal, by what its turn takes. -/
inductive Cycled (c : Connection σ) : Option Part → ReadResult → Connection σ → Prop
  | part {part : Part} {result : ReadResult} {c' : Connection σ} (hresult : result = part.result)
      (hjournal : c'.journal = c.journal ++ part.entries) : Cycled c (some part) result c'
  | vain {c' : Connection σ} (hjournal : c'.journal = c.journal) :
      Cycled c none (.error (.failed .timeout)) c'

/-- **A poll cycle is a turn**; one that takes nothing ends as if it had timed out. -/
theorem readOne_cycled (h : Peer.Holds c.peer d) :
    Cycled c (turn c.buffer d).1 (readOne c).1 (readOne c).2 ∧
      Peer.Holds (readOne c).2.peer (turn c.buffer d).2.2 ∧
      (readOne c).2.buffer = (turn c.buffer d).2.1 ∧ (readOne c).2.inbox = c.inbox := by
  obtain ⟨peer, hholds, hawait | ⟨hnone, hall, hawait⟩⟩ := awaitOutput_of_holds h
  · rw [readOne_of_await hawait]
    obtain ⟨hreads, hrest⟩ := readNext_reads Peer.Holds.follows (c := { c with peer := peer }) hholds
    refine ⟨?_, hrest⟩
    dsimp only at hreads ⊢
    generalize (turn c.buffer d).1 = taken at hreads ⊢
    generalize (readNext { c with peer := peer }).1 = result at hreads ⊢
    cases hreads with
    | part part hjournal =>
        exact .part (mapError_result part) hjournal
    | nothing hjournal =>
        rw [failure_of_quiet h.quiet]
        exact .vain hjournal
  · have hone : readOne c = (.error (.failed .timeout), { c with peer := peer }) :=
      Attempt.bind_of_error hawait _
    rw [hone, turn_of_empty hnone hall]
    exact ⟨.vain rfl, hholds, rfl, rfl⟩

/-! ## A wait -/

/-- What a poll cycle for a response gives that reads a message. -/
def routed (id : Json) (m : Members) : ReadResult :=
  if m.has "method" then .error (.failed .noResponse)
  else if (responseId m).same id then .ok m
  else .error (.failed (.unsolicited (responseId m)))

theorem receive_of_read {c₁ : Connection σ} {m : Members} (hread : readOne c = (.ok m, c₁))
    (id : Json) :
    (receive id c).1 = routed id m ∧ (receive id c).2.peer = c₁.peer ∧
      (receive id c).2.buffer = c₁.buffer ∧
      (receive id c).2.inbox = c₁.inbox ++ [m].filter (·.has "method") ∧
      (receive id c).2.received = c₁.received := by
  rw [receive_of_message hread, routed]
  cases hmethod : m.has "method" with
  | true => simp [hmethod, received]
  | false =>
      cases hid : (responseId m).same id with
      | true => simp [hmethod]
      | false => simp [hmethod, received, Entry.received?]

/-- What one poll cycle for a response does to the messages that are there. -/
inductive Advances (id : Json) (c : Connection σ) (d : Delivery) :
    List Members → ReadResult → Connection σ → Prop
  /-- The first message is taken, and the others are nearer by one place. -/
  | took {m : Members} {rest : List Members} {c' : Connection σ} {d' : Delivery}
      (hoffers : Offers c' d' rest)
      (hinbox : c'.inbox = c.inbox ++ [m].filter (·.has "method"))
      (hreceived : c'.received = c.received ++ [m]) (hfirst : vain c.buffer d.arrivals 0 = 0)
      (hlater : ∀ j, vain c.buffer d.arrivals (j + 1) = vain c'.buffer d'.arrivals j) :
      Advances id c d (m :: rest) (routed id m) c'
  /-- A read was in vain, or there is nothing to read. -/
  | vain {frames : List Members} {c' : Connection σ} {d' : Delivery} (hoffers : Offers c' d' frames)
      (hinbox : c'.inbox = c.inbox) (hreceived : c'.received = c.received)
      (hvain : frames ≠ [] →
        ∀ j, vain c.buffer d.arrivals j = vain c'.buffer d'.arrivals j + 1) :
      Advances id c d frames (.error (.failed .timeout)) c'

/-- **One poll cycle for a response.** -/
theorem receive_advances (h : Offers c d frames) (id : Json) :
    Advances id c d frames (receive id c).1 (receive id c).2 := by
  obtain ⟨hcycled, hholds, hbuffer, hinbox⟩ := readOne_cycled h.holds
  have hparts := h.parts_eq
  rw [(parts_turn c.buffer d).1, List.map_append] at hparts
  generalize hturn : (turn c.buffer d).1 = taken at hcycled hparts
  rcases hread : readOne c with ⟨result, c₁⟩
  rw [hread] at hcycled hholds hbuffer hinbox
  cases hcycled with
  | @part part _ _ hresult hjournal =>
      obtain ⟨m, rest, rfl, hm, hrest⟩ := List.map_eq_cons_iff.mp hparts.symm
      obtain rfl : result = .ok m := hresult.trans hm.symm
      obtain ⟨hresult, hpeer, hkept, hinboxes, hreceived⟩ := receive_of_read hread id
      obtain ⟨hfirst, hlater⟩ := vain_of_some hturn
      rw [hresult]
      rw [hinbox] at hinboxes
      have hoffers : Offers (receive id c).2 (turn c.buffer d).2.2 rest := by
        refine ⟨hpeer ▸ hholds, ?_⟩
        rw [hkept, hbuffer]
        exact hrest.symm
      refine .took hoffers hinboxes ?_ hfirst ?_
      · rw [hreceived, received, hjournal, List.filterMap_append, Part.entries_of_ok hm.symm]
        rfl
      · rw [hkept, hbuffer]
        exact hlater
  | vain hjournal =>
      have hreceive : receive id c = (.error (.failed .timeout), c₁) := Attempt.bind_of_error hread _
      rw [hreceive]
      have hoffers : Offers c₁ (turn c.buffer d).2.2 frames := by
        refine ⟨hholds, ?_⟩
        rw [hbuffer]
        exact hparts
      refine .vain hoffers hinbox ?_ fun hne => ?_
      · rw [received, received, hjournal]
      · -- with nothing to arrive, a message to come would be in the buffer
        rw [hbuffer]
        refine vain_of_none hturn fun hall => hne ?_
        rw [turn_of_empty (take?_of_turn hturn) hall, Delivery.bytes, hall, List.flatMap_nil,
          List.append_nil, parts_of_none (take?_of_turn hturn)] at hparts
        exact List.map_eq_nil_iff.mp hparts.symm

/-- A message that the next read completes, if it is not complete already, is read by the next cycle. -/
theorem Offers.receive_received {m : Members} {rest : List Members} {part : Part} {left : Bytes}
    (h : Offers c d (m :: rest)) (hnext : take? (c.buffer ++ d.next) = some (part, left))
    (id : Json) :
    (receive id c).2.received = c.received ++ [m] := by
  have hfirst : vain c.buffer d.arrivals 0 = 0 := by
    cases htake : take? c.buffer with
    | some taken => exact (vain_of_take? htake d.arrivals).1
    | none => exact (vain_of_some (congrArg Prod.fst (turn_of_completed htake hnext))).1
  generalize hframes : m :: rest = frames at h
  have hadvances := receive_advances h id
  generalize (receive id c).1 = result at hadvances
  generalize (receive id c).2 = c' at hadvances ⊢
  cases hadvances with
  | took hoffers hinbox hreceived =>
      cases hframes
      exact hreceived
  | vain hoffers hinbox hreceived hvain =>
      have hlast := hvain (by rw [← hframes]; exact List.cons_ne_nil _ _) 0
      omega
/-- The connection after so many poll cycles for a response. -/
def cycles (id : Json) : Nat → Connection σ → Connection σ
  | 0, c => c
  | n + 1, c => cycles id n (receive id c).2

/-- The poll cycle for a response that comes after `n` others. -/
def cycle (id : Json) (n : Nat) (c : Connection σ) : ReadResult × Connection σ :=
  receive id (cycles id n c)

theorem cycles_succ (id : Json) (n : Nat) (c : Connection σ) :
    cycles id (n + 1) c = (cycle id n c).2 := by
  induction n generalizing c with
  | zero => rfl
  | succ n ih => exact ih (receive id c).2

/-- A poll cycle has brought no answer, and another one may. -/
inductive Unanswered : ReadResult → Prop
  | timeout : Unanswered (.error (.failed .timeout))
  | noResponse : Unanswered (.error (.failed .noResponse))
  | unsolicited (id : Json) : Unanswered (.error (.failed (.unsolicited id)))

theorem Unanswered.retryable {result : ReadResult} (h : Unanswered result) :
    ∃ e : RpcError, result = .error (.failed e) ∧ e.isRetryable = true := by
  cases h with
  | timeout | noResponse | unsolicited => exact ⟨_, rfl, rfl⟩

theorem routed_of_answers {m : Members} (h : Answers id m) : routed id m = .ok m := by
  rw [routed, h.1, h.2]
  rfl

theorem unanswered_routed {m : Members} (h : ¬Answers id m) : Unanswered (routed id m) := by
  unfold routed
  split
  · exact .noResponse
  · rename_i hmethod
    rw [if_neg fun hid => h ⟨Bool.eq_false_iff.mpr hmethod, hid⟩]
    exact .unsolicited _

/-- **The cycle that brings the response** comes behind one for every message before it, and one for every
read in vain before it is complete. -/
theorem Offers.answered {before after : List Members} {m : Members}
    (h : Offers c d (before ++ m :: after)) (hbefore : ∀ b ∈ before, ¬Answers id b)
    (hm : Answers id m) :
    let n := before.length + vain c.buffer d.arrivals before.length
    (cycle id n c).1 = .ok m ∧ ∀ i < n, Unanswered (cycle id i c).1 := by
  dsimp only
  generalize hn : before.length + vain c.buffer d.arrivals before.length = n
  have hadvances := receive_advances h id
  induction n generalizing c d before with
  | zero =>
      obtain ⟨hnone, hvain⟩ := Nat.add_eq_zero_iff.mp hn
      obtain rfl := List.eq_nil_of_length_eq_zero hnone
      refine ⟨?_, fun i hi => absurd hi (Nat.not_lt_zero i)⟩
      change (receive id c).1 = _
      rw [List.nil_append] at hadvances
      generalize (receive id c).1 = result at hadvances
      cases hadvances with
      | took => exact routed_of_answers hm
      | vain _ _ _ hnearer =>
          rw [List.length_nil, hnearer (List.cons_ne_nil _ _) 0] at hvain
          cases hvain
  | succ n ih =>
      have hnext : ∀ {d' : Delivery} {before' : List Members},
          Unanswered (receive id c).1 → Offers (receive id c).2 d' (before' ++ m :: after) →
          (∀ b ∈ before', ¬Answers id b) →
          before'.length + Frame.vain (receive id c).2.buffer d'.arrivals before'.length = n →
          (cycle id (n + 1) c).1 = .ok m ∧ ∀ i < n + 1, Unanswered (cycle id i c).1 := by
        intro d' before' hidle hoffers hbefore' hn'
        obtain ⟨hcycle, hidles⟩ := ih hoffers hbefore' hn' (receive_advances hoffers id)
        refine ⟨hcycle, fun i hi => ?_⟩
        cases i with
        | zero => exact hidle
        | succ i => exact hidles i (Nat.lt_of_succ_lt_succ hi)
      generalize (receive id c).1 = result at hadvances hnext
      generalize (receive id c).2 = c' at hadvances hnext
      generalize hframes : before ++ m :: after = frames at hadvances
      cases hadvances with
      | took hoffers _ _ hfirst hlater =>
          cases before with
          | nil =>
              rw [List.length_nil, hfirst] at hn
              cases hn
          | cons b before =>
              obtain ⟨rfl, rfl⟩ := List.cons.inj hframes
              obtain ⟨hb, hbefore'⟩ := List.forall_mem_cons.mp hbefore
              refine hnext (unanswered_routed hb) hoffers hbefore' ?_
              rw [List.length_cons, hlater] at hn
              omega
      | vain hoffers _ _ hnearer =>
          subst hframes
          refine hnext .timeout hoffers hbefore ?_
          rw [hnearer (by simp)] at hn
          omega

/-- Without a response every cycle ends as one that another may follow. -/
theorem Offers.unanswered (h : Offers c d frames) (hnone : ∀ m ∈ frames, ¬Answers id m) (n : Nat) :
    Unanswered (cycle id n c).1 := by
  have hadvances := receive_advances h id
  induction n generalizing c d frames with
  | zero =>
      change Unanswered (receive id c).1
      generalize (receive id c).1 = result at hadvances
      cases hadvances with
      | took => exact unanswered_routed (hnone _ List.mem_cons_self)
      | vain => exact .timeout
  | succ n ih =>
      change Unanswered (cycle id n (receive id c).2).1
      generalize (receive id c).1 = result at hadvances
      generalize (receive id c).2 = c' at hadvances
      cases hadvances with
      | took hoffers =>
          exact ih hoffers (List.forall_mem_cons.mp hnone).2 (receive_advances hoffers id)
      | vain hoffers => exact ih hoffers hnone (receive_advances hoffers id)

/-- **Cycles take messages in their order**, and keep those that are no responses. -/
theorem Offers.taken (h : Offers c d frames) (id : Json) (n : Nat) :
    ∃ read, read <+: frames ∧ (cycles id n c).inbox = c.inbox ++ read.filter (·.has "method") ∧
      (cycles id n c).received = c.received ++ read := by
  have hadvances := receive_advances h id
  induction n generalizing c d frames with
  | zero => exact ⟨[], List.nil_prefix, (List.append_nil _).symm, (List.append_nil _).symm⟩
  | succ n ih =>
      rw [cycles]
      generalize (receive id c).1 = result at hadvances
      generalize (receive id c).2 = c' at hadvances
      cases hadvances with
      | @took m rest _ _ hoffers hinbox hreceived =>
          obtain ⟨read, hprefix, hinboxes, hall⟩ := ih hoffers (receive_advances hoffers id)
          refine ⟨m :: read, List.cons_prefix_cons.mpr ⟨rfl, hprefix⟩, ?_, ?_⟩
          · rw [hinboxes, hinbox, List.append_assoc, ← List.filter_append]
            rfl
          · rw [hall, hreceived, List.append_assoc]
            rfl
      | vain hoffers hinbox hreceived =>
          obtain ⟨read, hprefix, hinboxes, hall⟩ := ih hoffers (receive_advances hoffers id)
          exact ⟨read, hprefix, hinboxes.trans (by rw [hinbox]), hall.trans (by rw [hreceived])⟩

theorem wait_zero (id : Json) (c : Connection σ) : wait 0 id c = receive id c := by
  unfold wait
  rcases hreceive : receive id c with ⟨(e | f) | m, c'⟩
  · rw [Attempt.bind_of_ok (Attempt.outcome_of_failed hreceive)]
    rfl
  · rw [Attempt.bind_of_error (Attempt.outcome_of_faulted hreceive)]
  · rw [Attempt.bind_of_ok (Attempt.outcome_of_ok hreceive)]
    rfl

theorem wait_of_ok {m : Members} (h : (receive id c).1 = .ok m) (more : Nat) :
    wait more id c = receive id c := by
  have hreceive : receive id c = (.ok m, (receive id c).2) := Prod.ext h rfl
  unfold wait
  rw [Attempt.bind_of_ok (Attempt.outcome_of_ok hreceive), keepReceiving_of_ok]
  exact hreceive.symm

theorem wait_of_unanswered (h : Unanswered (receive id c).1) (more : Nat) :
    wait (more + 1) id c = wait more id (receive id c).2 := by
  obtain ⟨e, he, hretry⟩ := h.retryable
  have hreceive : receive id c = (.error (.failed e), (receive id c).2) := Prod.ext he rfl
  rw [wait, Attempt.bind_of_ok (Attempt.outcome_of_failed hreceive), keepReceiving, if_pos hretry]
  rfl

/-- **A wait is as many cycles as it takes.** -/
theorem wait_eq {n more : Nat} (hn : n ≤ more) (hidle : ∀ i < n, Unanswered (cycle id i c).1)
    (hend : n = more ∨ ∃ m, (cycle id n c).1 = .ok m) : wait more id c = cycle id n c := by
  induction n generalizing more c with
  | zero =>
      rcases hend with rfl | ⟨m, hm⟩
      · exact wait_zero id c
      · exact wait_of_ok hm more
  | succ n ih =>
      obtain ⟨more, rfl⟩ := Nat.exists_eq_add_one.mpr (Nat.zero_lt_of_lt hn)
      have hfirst : Unanswered (receive id c).1 := hidle 0 (Nat.zero_lt_succ n)
      rw [wait_of_unanswered hfirst]
      refine ih (Nat.le_of_succ_le_succ hn) (fun i hi => hidle (i + 1) (Nat.succ_lt_succ hi)) ?_
      exact hend.imp_left Nat.succ.inj

/-- There is a first message that answers, or there is none. -/
theorem exists_first_answer (id : Json) (frames : List Members) :
    (∀ m ∈ frames, ¬Answers id m) ∨ ∃ before m after, frames = before ++ m :: after ∧
      (∀ b ∈ before, ¬Answers id b) ∧ Answers id m := by
  induction frames with
  | nil => exact Or.inl fun _ hmem => absurd hmem List.not_mem_nil
  | cons first rest ih =>
      by_cases hfirst : Answers id first
      · exact Or.inr ⟨[], first, rest, rfl, fun _ hmem => absurd hmem List.not_mem_nil, hfirst⟩
      · rcases ih with hnone | ⟨before, m, after, rfl, hbefore, hm⟩
        · exact Or.inl (List.forall_mem_cons.mpr ⟨hfirst, hnone⟩)
        · exact Or.inr ⟨first :: before, m, after, rfl, List.forall_mem_cons.mpr ⟨hfirst, hbefore⟩, hm⟩

/-- The response comes in one of the cycles of a wait, which is the last one then; or none of them
brings it. -/
theorem Offers.wait_cases (h : Offers c d frames) (id : Json) (more : Nat) :
    (∃ before m after n, frames = before ++ m :: after ∧ (∀ b ∈ before, ¬Answers id b) ∧
      Answers id m ∧ n = before.length + Frame.vain c.buffer d.arrivals before.length ∧ n ≤ more ∧
      wait more id c = cycle id n c ∧ (cycle id n c).1 = .ok m ∧
      ∀ i < n, Unanswered (cycle id i c).1) ∨
    wait more id c = cycle id more c ∧ ∀ i ≤ more, Unanswered (cycle id i c).1 := by
  have hlast : (∀ i ≤ more, Unanswered (cycle id i c).1) → wait more id c = cycle id more c :=
    fun hidle => wait_eq (le_refl more) (fun i hi => hidle i hi.le) (Or.inl rfl)
  rcases exists_first_answer id frames with hnone | ⟨before, m, after, rfl, hbefore, hm⟩
  · have hidle : ∀ i ≤ more, Unanswered (cycle id i c).1 := fun i _ => h.unanswered hnone i
    exact Or.inr ⟨hlast hidle, hidle⟩
  · obtain ⟨hcycle, hidle⟩ := h.answered hbefore hm
    by_cases hn : before.length + Frame.vain c.buffer d.arrivals before.length ≤ more
    · exact Or.inl ⟨before, m, after, _, rfl, hbefore, hm, rfl, hn,
        wait_eq hn hidle (Or.inr ⟨m, hcycle⟩), hcycle, hidle⟩
    · have hidle : ∀ i ≤ more, Unanswered (cycle id i c).1 := fun i hi => hidle i (by omega)
      exact Or.inr ⟨hlast hidle, hidle⟩

/-- A wait ends with the first cycle that brings the response, or else with the last one. -/
theorem Offers.wait_cycles (h : Offers c d frames) (id : Json) (more : Nat) :
    ∃ n ≤ more, wait more id c = cycle id n c ∧ (∀ i < n, Unanswered (cycle id i c).1) ∧
      ((∃ m, (cycle id n c).1 = .ok m) ∨ n = more ∧ Unanswered (cycle id n c).1) := by
  rcases h.wait_cases id more with
    ⟨before, m, after, n, -, -, -, -, hn, hwait, hcycle, hidle⟩ | ⟨hwait, hidle⟩
  · exact ⟨n, hn, hwait, hidle, Or.inl ⟨m, hcycle⟩⟩
  · exact ⟨more, le_refl more, hwait, fun i hi => hidle i hi.le,
      Or.inr ⟨rfl, hidle more (le_refl more)⟩⟩

/-- **A wait is answered if and only if the response comes in one of its cycles.** -/
theorem Offers.wait_ok_iff (h : Offers c d frames) (id : Json) (more : Nat) (m : Members) :
    (wait more id c).1 = .ok m ↔ ∃ before after, frames = before ++ m :: after ∧
      (∀ b ∈ before, ¬Answers id b) ∧ Answers id m ∧
      before.length + Frame.vain c.buffer d.arrivals before.length ≤ more := by
  constructor
  · intro hok
    rcases h.wait_cases id more with
      ⟨before, m', after, n, rfl, hbefore, hm, rfl, hn, hwait, hcycle, -⟩ | ⟨hwait, hidle⟩
    · rw [hwait, hcycle] at hok
      cases hok
      exact ⟨before, after, rfl, hbefore, hm, hn⟩
    · have hnone := hidle more (le_refl more)
      rw [← hwait, hok] at hnone
      cases hnone
  · rintro ⟨before, after, rfl, hbefore, hm, hn⟩
    obtain ⟨hcycle, hidle⟩ := h.answered hbefore hm
    rw [wait_eq hn hidle (Or.inr ⟨m, hcycle⟩)]
    exact hcycle

end Connection

end LanguageClient
