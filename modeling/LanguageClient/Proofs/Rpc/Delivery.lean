import LanguageClient.Proofs.Rpc.Reading
import LanguageClient.Script.Server

/-!
# Delivering a stream

The bytes of a stream reach a connection through the reads of its output: a chunk at a time, with
reads in between that find nothing, until nothing more arrives or the output ends.  A `Delivery` is
such a schedule, and any peer may follow it (`Peer.Delivers`).

Main statement: `findings_invariant`.  What the reads find, and what stays in the buffer, is
determined by the stream; the cuts, the idle reads and the looks at the buffer do not show.

## Strategy

What is still to come is the buffer followed by the bytes that have not been delivered, and its
parts are what the reads will find (`Expects`).

```text
a part is taken        the parts to come lose their first one
bytes are kept         they move from the delivery to the buffer, and the parts stay
nothing is found       either the delivery has idled, or no part is left
```

`Expects.readNext` is this table for one read, `Expects.run` its induction over a run.
-/

namespace LanguageClient

/-! ## Schedules -/

/-- What one read of the output brings. -/
inductive Arrival where
  | nothing
  | chunk (bytes : Bytes) (hne : bytes ≠ []) (hle : bytes.length ≤ Connection.readLimit)

namespace Arrival

def bytes : Arrival → Bytes
  | nothing => []
  | chunk bytes _ _ => bytes

def outcome : Arrival → ReadOutcome
  | nothing => .wouldBlock
  | chunk bytes _ _ => .data bytes

end Arrival

/-- What reads find once everything has arrived. -/
inductive Delivery.Ending where
  | quiet
  | closed
deriving DecidableEq

def Delivery.Ending.outcome : Delivery.Ending → ReadOutcome
  | quiet => .wouldBlock
  | closed => .ended

/-- A schedule for the bytes of a stream. -/
structure Delivery where
  arrivals : List Arrival
  ending : Delivery.Ending

namespace Delivery

/-- The stream that is delivered. -/
def bytes (d : Delivery) : Bytes := d.arrivals.flatMap Arrival.bytes

/-- What the read after `n` others gives. -/
def outcome (d : Delivery) (n : Nat) : ReadOutcome :=
  (d.arrivals[n]?.map Arrival.outcome).getD d.ending.outcome

/-- The schedule after one read. -/
def rest (d : Delivery) : Delivery := { d with arrivals := d.arrivals.tail }

theorem outcome_succ (d : Delivery) (n : Nat) : d.outcome (n + 1) = d.rest.outcome n := by
  obtain ⟨arrivals, ending⟩ := d
  cases arrivals <;> rfl

theorem bytes_of_data {d : Delivery} {bytes : Bytes} (h : d.outcome 0 = .data bytes) :
    d.bytes = bytes ++ d.rest.bytes ∧ d.arrivals ≠ [] := by
  obtain ⟨arrivals, ending⟩ := d
  cases arrivals with
  | nil => cases ending <;> cases h
  | cons arrival arrivals =>
      refine ⟨?_, List.cons_ne_nil _ _⟩
      cases arrival with
      | nothing => cases h
      | chunk bytes' hne hle =>
          cases h
          rfl

theorem bytes_of_failure {d : Delivery} {e : RpcError} (h : (d.outcome 0).failure? = some e) :
    d.bytes = d.rest.bytes ∧
      (e = .wouldBlock ∨ d.arrivals = [] ∧ d.ending = .closed ∧ e = .streamClosed) := by
  obtain ⟨arrivals, ending⟩ := d
  cases arrivals with
  | nil =>
      refine ⟨rfl, ?_⟩
      cases ending with
      | quiet => exact Or.inl (Option.some.inj h).symm
      | closed => exact Or.inr ⟨rfl, rfl, (Option.some.inj h).symm⟩
  | cons arrival arrivals =>
      cases arrival with
      | nothing => exact ⟨rfl, Or.inl (Option.some.inj h).symm⟩
      | chunk bytes hne hle => cases h

theorem bytes_eq_nil_of_outcome {d : Delivery} {e : Ending}
    (h : ∀ n, d.outcome n = e.outcome) : d.bytes = [] := by
  rw [bytes, List.flatMap_eq_nil_iff]
  intro arrival harrival
  obtain ⟨n, hn, rfl⟩ := List.getElem_of_mem harrival
  -- a chunk would show in the read whose turn it is
  have hread := h n
  rw [outcome, List.getElem?_eq_getElem hn, Option.map_some, Option.getD_some] at hread
  cases harrive : d.arrivals[n] with
  | nothing => rfl
  | chunk bytes hne hle =>
      rw [harrive] at hread
      cases e <;> cases hread

end Delivery

/-! ## Peers that follow a schedule -/

namespace Peer

open Connection (readLimit)

variable {σ : Type} [Peer σ]

/-- The peer after `n` reads. -/
def afterReads : Nat → σ → σ
  | 0, s => s
  | n + 1, s => afterReads n (read readLimit s).2

/-- The reads of the output bring what the schedule says. -/
def Delivers (s : σ) (d : Delivery) : Prop :=
  ∀ n, (read readLimit (afterReads n s)).1 = d.outcome n

/-- One read brings the first of the schedule, and leaves a peer that brings the others. -/
theorem Delivers.read {s peer : σ} {d : Delivery} {outcome : ReadOutcome} (h : Delivers s d)
    (hread : Peer.read readLimit s = (outcome, peer)) :
    d.outcome 0 = outcome ∧ Delivers peer d.rest := by
  have hfirst := h 0
  rw [afterReads, hread] at hfirst
  refine ⟨hfirst.symm, fun n => ?_⟩
  have hnext := h (n + 1)
  rw [afterReads, hread, d.outcome_succ] at hnext
  exact hnext

end Peer

/-- A scripted server that follows a schedule. -/
def ScriptedServer.delivering (d : Delivery) : ScriptedServer where
  rules := []
  queue := d.arrivals.map Arrival.bytes
  ended := d.ending = .closed
  exited := false
  inputMode := .ok
  badDescriptor := false
  interrupts := false
  terminations := 0
  received := []

theorem ScriptedServer.read_delivering (d : Delivery) :
    Peer.read Connection.readLimit (delivering d) = (d.outcome 0, delivering d.rest) := by
  obtain ⟨arrivals, ending⟩ := d
  cases arrivals with
  | nil => cases ending <;> rfl
  | cons arrival arrivals =>
      cases arrival with
      | nothing => rfl
      | chunk bytes hne hle =>
          obtain ⟨b, bytes, rfl⟩ := List.exists_cons_of_ne_nil hne
          -- a chunk fits into one read, so nothing of it goes back into the queue
          have hdrop : (b :: bytes).drop Connection.readLimit = [] := List.drop_of_length_le hle
          have htake : (b :: bytes).take Connection.readLimit = b :: bytes :=
            List.take_of_length_le hle
          show ScriptedServer.read _ _ = _
          simp only [ScriptedServer.read, isTerminated, delivering, List.map_cons, Arrival.bytes,
            hdrop, htake]
          rfl

/-- Every schedule is followed by some peer. -/
theorem ScriptedServer.delivers_delivering (d : Delivery) : Peer.Delivers (delivering d) d := by
  intro n
  induction n generalizing d with
  | zero => rw [Peer.afterReads, read_delivering]
  | succ n ih => rw [Peer.afterReads, read_delivering, ih d.rest, d.outcome_succ]

/-! ## Runs -/

/-- What the reader of a stream may do: read the next message, or ask whether a read would find
something in the buffer. -/
inductive Call where
  | read
  | peek
deriving DecidableEq

inductive Answer where
  | result (result : ReadResult)
  | ready (isReady : Bool)

/-- The result of a read. -/
def Answer.result? : Answer → Option ReadResult
  | result r => some r
  | ready _ => none

namespace Connection

open LanguageClient.Frame

variable {σ : Type} [Peer σ]

def answer (c : Connection σ) : Call → Answer × Connection σ
  | .read => (.result (readNext c).1, (readNext c).2)
  | .peek => (.ready (isReady c.buffer), c)

/-- The answers to some calls, and the connection after them. -/
def answers (c : Connection σ) : List Call → List Answer × Connection σ
  | [] => ([], c)
  | call :: calls =>
    ((c.answer call).1 :: ((c.answer call).2.answers calls).1, ((c.answer call).2.answers calls).2)

/-- The results of the reads, but for those that found no complete message. -/
def findings (answers : List Answer) : List ReadResult :=
  (answers.filterMap Answer.result?).filter ReadResult.isFinding

/-- Everything has arrived, and no part of it is left in the buffer. -/
def Drained (c : Connection σ) (ending : Delivery.Ending) : Prop :=
  Peer.Delivers c.peer ⟨[], ending⟩ ∧ isReady c.buffer = false

/-- The parts that are still to come, and what stays in the buffer when they have been taken. -/
structure Expects (c : Connection σ) (d : Delivery) (parts : List Part) (left : Bytes) : Prop where
  delivers : Peer.Delivers c.peer d
  parts_eq : Frame.parts (c.buffer ++ d.bytes) = (parts, left)

/-- The effect of one read on the schedule and on the parts to come. -/
inductive Advance (d : Delivery) : List Part → ReadResult → Delivery → List Part → Prop
  | buffered (part : Part) (parts : List Part) : Advance d (part :: parts) part.result d parts
  | completed (part : Part) (parts : List Part) (hmore : d.arrivals ≠ []) :
      Advance d (part :: parts) part.result d.rest parts
  | idle (parts : List Part) (hmore : d.arrivals = [] → parts = []) :
      Advance d parts .wouldBlock d.rest parts
  | ended (hall : d.arrivals = []) (hending : d.ending = .closed) :
      Advance d [] .streamClosed d.rest []

theorem Advance.ending_eq {d d' : Delivery} {ps ps' : List Part} {r : ReadResult}
    (h : Advance d ps r d' ps') : d'.ending = d.ending := by
  cases h <;> rfl

/-- Every read brings the end nearer, until it is reached. -/
theorem Advance.measure {d d' : Delivery} {ps ps' : List Part} {r : ReadResult}
    (h : Advance d ps r d' ps') :
    d'.arrivals.length + ps'.length ≤ d.arrivals.length + ps.length - 1 := by
  cases h with
  | buffered part => simp
  | completed part parts hmore => simp [Delivery.rest]
  | idle parts hmore =>
      simp only [Delivery.rest, List.length_tail]
      by_cases hall : d.arrivals = []
      · simp [hall, hmore hall]
      · have := List.length_pos_iff.mpr hall
        omega
  | ended hall => simp [Delivery.rest, hall]

section Expects

variable {c : Connection σ} {d : Delivery} {ps : List Part} {left : Bytes}

/-- Without a part in the buffer, and with nothing to arrive, no part is to come. -/
theorem Expects.eq_nil (h : Expects c d ps left) (hbytes : d.bytes = [])
    (hnone : take? c.buffer = none) : ps = [] ∧ c.buffer = left := by
  have hparts := h.parts_eq
  rw [hbytes, List.append_nil, parts_of_none hnone] at hparts
  obtain ⟨rfl, rfl⟩ := Prod.mk.inj hparts
  exact ⟨rfl, rfl⟩

/-- **What one read does to the parts that are to come.** -/
theorem Expects.readNext (h : Expects c d ps left) :
    ∃ d' ps', Advance d ps (readNext c).1 d' ps' ∧ Expects (readNext c).2 d' ps' left := by
  have hparts := h.parts_eq
  have hstep := readNext_step c
  generalize (Connection.readNext c).1 = result at hstep ⊢
  generalize (Connection.readNext c).2 = after at hstep ⊢
  cases hstep with
  | @buffered part rest htake =>
      rw [parts_of_some (take?_append htake d.bytes)] at hparts
      obtain ⟨rfl, rfl⟩ := Prod.mk.inj hparts
      exact ⟨d, _, .buffered part _, h.delivers, rfl⟩
  | @completed bytes rest peer part hnone hread htake =>
      obtain ⟨hfirst, hrest⟩ := h.delivers.read hread
      obtain ⟨hbytes, hmore⟩ := Delivery.bytes_of_data hfirst
      rw [hbytes, ← List.append_assoc, parts_of_some (take?_append htake d.rest.bytes)] at hparts
      obtain ⟨rfl, rfl⟩ := Prod.mk.inj hparts
      exact ⟨d.rest, _, .completed part _ hmore, hrest, rfl⟩
  | @kept bytes peer hnone hread hstill =>
      obtain ⟨hfirst, hrest⟩ := h.delivers.read hread
      obtain ⟨hbytes, hmore⟩ := Delivery.bytes_of_data hfirst
      -- the bytes move from the schedule to the buffer
      rw [hbytes, ← List.append_assoc] at hparts
      exact ⟨d.rest, ps, .idle ps fun hall => absurd hall hmore, hrest, hparts⟩
  | @refused outcome peer e hnone hread hfailure =>
      obtain ⟨hfirst, hrest⟩ := h.delivers.read hread
      rw [← hfirst] at hfailure
      obtain ⟨hbytes, hcase⟩ := Delivery.bytes_of_failure hfailure
      -- with nothing to arrive, a part to come would be in the buffer
      have hempty : d.arrivals = [] → ps = [] := fun hall =>
        (h.eq_nil (by rw [Delivery.bytes, hall]; rfl) hnone).1
      rw [hbytes] at hparts
      rcases hcase with rfl | ⟨hall, hending, rfl⟩
      · exact ⟨d.rest, ps, .idle ps hempty, hrest, hparts⟩
      · obtain rfl := hempty hall
        exact ⟨d.rest, [], .ended hall hending, hrest, hparts⟩

/-- A look at the buffer changes nothing. -/
theorem answers_peek (c : Connection σ) (calls : List Call) :
    findings (c.answers (.peek :: calls)).1 = findings (c.answers calls).1 ∧
      (c.answers (.peek :: calls)).2 = (c.answers calls).2 := ⟨rfl, rfl⟩

theorem findings_read (c : Connection σ) (calls : List Call) :
    findings (c.answers (.read :: calls)).1 =
      [(Connection.readNext c).1].filter ReadResult.isFinding ++
        findings ((Connection.readNext c).2.answers calls).1 :=
  List.filter_append [(Connection.readNext c).1] _

theorem answers_read (c : Connection σ) (calls : List Call) :
    (c.answers (.read :: calls)).2 = ((Connection.readNext c).2.answers calls).2 := rfl

/-- **A run finds the parts in their order, and then that the stream is closed.** -/
theorem Expects.run (h : Expects c d ps left) (calls : List Call) :
    ∃ d' found ps' n, ps = found ++ ps' ∧
      findings (c.answers calls).1 = found.map Part.result ++ List.replicate n .streamClosed ∧
      (n ≠ 0 → d.ending = .closed ∧ ps' = [] ∧ d'.arrivals = []) ∧
      Expects (c.answers calls).2 d' ps' left ∧ d'.ending = d.ending ∧
      d'.arrivals.length + ps'.length ≤
        d.arrivals.length + ps.length - calls.count .read := by
  induction calls generalizing c d ps with
  | nil => exact ⟨d, [], ps, 0, rfl, rfl, by simp, h, rfl, by simp⟩
  | cons call calls ih =>
      cases call with
      | peek => simpa [answers_peek] using ih h
      | read =>
          obtain ⟨d₁, ps₁, hadvance, h₁⟩ := h.readNext
          obtain ⟨d', found, ps', n, hps, hfound, hclosed, hexpects, hending, hmeasure⟩ := ih h₁
          have hnearer := hadvance.measure
          rw [hadvance.ending_eq] at hclosed hending
          rw [findings_read, answers_read, hfound, List.count_cons_self]
          generalize (Connection.readNext c).1 = result at hadvance
          have hcount : d'.arrivals.length + ps'.length ≤
              d.arrivals.length + ps.length - (calls.count .read + 1) := by omega
          cases hadvance with
          | buffered part | completed part =>
              have hresult := part.isFinding_result
              exact ⟨d', part :: found, ps', n, by simp [hps], by simp [hresult], hclosed, hexpects,
                hending, hcount⟩
          | idle => exact ⟨d', found, ps', n, hps, rfl, hclosed, hexpects, hending, hcount⟩
          | ended hall hover =>
              -- nothing is to come, so whatever is found from here on is the end again
              obtain ⟨rfl, rfl⟩ := List.append_eq_nil_iff.mp hps.symm
              have hnone : d'.arrivals = [] := by
                rw [hall] at hcount
                exact List.eq_nil_of_length_eq_zero (by simpa using hcount)
              exact ⟨d', [], [], n + 1, rfl, rfl, fun _ => ⟨hover, rfl, hnone⟩, hexpects, hending,
                hcount⟩

theorem Expects.of_drained (h : Expects c d ps left) (hdrained : Drained c d.ending) :
    ps = [] ∧ c.buffer = left := by
  obtain ⟨hquiet, hready⟩ := hdrained
  refine h.eq_nil (Delivery.bytes_eq_nil_of_outcome fun n => (h.delivers n).symm.trans (hquiet n)) ?_
  rwa [isReady_eq, Option.isSome_eq_false_iff, Option.isNone_iff_eq_none] at hready

theorem Expects.drained (h : Expects c d [] left) (hall : d.arrivals = []) :
    Drained c d.ending := by
  obtain ⟨arrivals, ending⟩ := d
  obtain rfl : arrivals = [] := hall
  refine ⟨h.delivers, ?_⟩
  have hnone : take? c.buffer = none := by
    have hparts := h.parts_eq
    rw [Delivery.bytes, List.flatMap_nil, List.append_nil] at hparts
    exact take?_of_parts_nil hparts
  rw [isReady_eq, hnone]
  rfl

/-! ## What a run finds -/

/-- A run that drains the connection finds the parts of the stream, and leaves the rest. -/
theorem Expects.findings_of_drained (h : Expects c d ps left) {calls : List Call}
    (hdrained : Drained (c.answers calls).2 d.ending) :
    (∃ n, (d.ending = .quiet → n = 0) ∧
      findings (c.answers calls).1 = ps.map Part.result ++ List.replicate n .streamClosed) ∧
    (c.answers calls).2.buffer = left := by
  obtain ⟨d', found, ps', n, hps, hfound, hclosed, hexpects, hending, -⟩ := h.run calls
  rw [← hending] at hdrained
  obtain ⟨rfl, hleft⟩ := hexpects.of_drained hdrained
  refine ⟨⟨n, fun hquiet => ?_, ?_⟩, hleft⟩
  · -- an output that stays open is never seen closed
    by_contra hn
    rw [(hclosed hn).1] at hquiet
    exact absurd hquiet (by decide)
  · rw [hfound, hps, List.append_nil]

/-- Enough reads drain the connection. -/
theorem Expects.drained_of_reads (h : Expects c d ps left) {calls : List Call}
    (hcalls : d.arrivals.length + ps.length ≤ calls.count .read) :
    Drained (c.answers calls).2 d.ending := by
  obtain ⟨d', found, ps', n, -, -, -, hexpects, hending, hmeasure⟩ := h.run calls
  have hall : d'.arrivals = [] := List.eq_nil_of_length_eq_zero (by omega)
  obtain rfl : ps' = [] := List.eq_nil_of_length_eq_zero (by omega)
  rw [← hending]
  exact hexpects.drained hall

/-- Nothing is left once the end has been seen. -/
theorem Expects.drained_of_streamClosed (h : Expects c d ps left) {calls : List Call}
    (hseen : .streamClosed ∈ findings (c.answers calls).1) :
    Drained (c.answers calls).2 d.ending := by
  obtain ⟨d', found, ps', n, -, hfound, hclosed, hexpects, hending, -⟩ := h.run calls
  have hn : n ≠ 0 := by
    rintro rfl
    rw [hfound, List.replicate_zero, List.append_nil] at hseen
    obtain ⟨part, -, hpart⟩ := List.mem_map.mp hseen
    exact part.result_ne_streamClosed hpart
  obtain ⟨-, rfl, hall⟩ := hclosed hn
  rw [← hending]
  exact hexpects.drained hall

end Expects

/-- **The stream alone determines what is found.**  Two connections to any peers get the same
stream, each partly in the buffer and partly by a schedule of its own.  Enough reads drain them, and
so does a run that sees the end; then both runs have found the parts of the stream, have left the
same bytes, and have found nothing more but the end. -/
theorem findings_invariant {σ τ : Type} [Peer σ] [Peer τ] {stream : Bytes}
    {c : Connection σ} {d : Delivery} (hdelivers : Peer.Delivers c.peer d)
    (hstream : c.buffer ++ d.bytes = stream)
    {c' : Connection τ} {d' : Delivery} (hdelivers' : Peer.Delivers c'.peer d')
    (hstream' : c'.buffer ++ d'.bytes = stream) (calls calls' : List Call) :
    (d.arrivals.length + stream.length ≤ calls.count .read →
      Drained (c.answers calls).2 d.ending) ∧
    (.streamClosed ∈ findings (c.answers calls).1 → Drained (c.answers calls).2 d.ending) ∧
    (Drained (c.answers calls).2 d.ending → Drained (c'.answers calls').2 d'.ending →
      (c.answers calls).2.buffer = (c'.answers calls').2.buffer ∧
      ∃ found n n', found = (parts stream).1.map Part.result ∧ .streamClosed ∉ found ∧
        findings (c.answers calls).1 = found ++ List.replicate n .streamClosed ∧
        findings (c'.answers calls').1 = found ++ List.replicate n' .streamClosed ∧
        (d.ending = .quiet → n = 0) ∧ (d'.ending = .quiet → n' = 0)) := by
  have hexpects : Expects c d (parts stream).1 (parts stream).2 := ⟨hdelivers, by rw [hstream]⟩
  have hexpects' : Expects c' d' (parts stream).1 (parts stream).2 :=
    ⟨hdelivers', by rw [hstream']⟩
  refine ⟨fun hcalls => ?_, hexpects.drained_of_streamClosed, fun hdrained hdrained' => ?_⟩
  · have hparts := length_parts_le stream
    exact hexpects.drained_of_reads (by omega)
  · obtain ⟨⟨n, hquiet, hfound⟩, hleft⟩ := hexpects.findings_of_drained hdrained
    obtain ⟨⟨n', hquiet', hfound'⟩, hleft'⟩ := hexpects'.findings_of_drained hdrained'
    refine ⟨hleft.trans hleft'.symm, _, n, n', rfl, ?_, hfound, hfound', hquiet, hquiet'⟩
    intro hmem
    obtain ⟨part, -, hpart⟩ := List.mem_map.mp hmem
    exact part.result_ne_streamClosed hpart

/-- An empty object, cut inside its header, with an idle read before the second piece. -/
def cutHeader : Delivery where
  arrivals :=
    [.chunk ((encode (.obj [])).take 7) (by decide) (by decide), .nothing,
      .chunk ((encode (.obj [])).drop 7) (by decide) (by decide)]
  ending := .closed

def cutConnection : Connection ScriptedServer := attach (.delivering cutHeader) .zero

def fullConnection : Connection ScriptedServer :=
  { attach (.delivering ⟨[], .quiet⟩) .zero with buffer := encode (.obj []) }

/-- The cut object is found as in a buffer that holds all of it. -/
theorem findings_invariant_cutHeader :
    ∃ n, findings (cutConnection.answers (.peek :: List.replicate 26 .read)).1 =
      findings (fullConnection.answers (List.replicate 23 .read)).1 ++
        List.replicate n .streamClosed := by
  have hcut : Peer.Delivers cutConnection.peer cutHeader := ScriptedServer.delivers_delivering _
  have hfull : Peer.Delivers fullConnection.peer ⟨[], .quiet⟩ :=
    ScriptedServer.delivers_delivering _
  have hcutStream : cutConnection.buffer ++ cutHeader.bytes = encode (.obj []) := by decide
  have hfullStream : fullConnection.buffer ++ Delivery.bytes ⟨[], .quiet⟩ = encode (.obj []) := by
    decide
  obtain ⟨hdrained, -, hsame⟩ := findings_invariant hcut hcutStream hfull hfullStream
    (.peek :: List.replicate 26 .read) (List.replicate 23 .read)
  obtain ⟨hdrained', -, -⟩ := findings_invariant hfull hfullStream hcut hcutStream
    (List.replicate 23 .read) []
  obtain ⟨-, found, n, n', -, -, hfound, hfound', -, hquiet⟩ :=
    hsame (hdrained (by decide)) (hdrained' (by decide))
  refine ⟨n, ?_⟩
  rw [hfound, hfound', hquiet rfl, List.replicate_zero, List.append_nil]

end Connection

end LanguageClient
