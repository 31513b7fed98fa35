import LanguageClient.Proofs.Attempt
import LanguageClient.Proofs.Frame.Parts
import LanguageClient.Rpc.Connection

/-!
# One read

A read of the next message takes one part of the stream, or it reports that there is none.  What
it gives and what it writes into the journal depend on this part alone (`Part.result`,
`Part.entries`); how the part came to be in the buffer leaves no trace.  `readNext_step` says all
that a read can do, and is the only place where `readNext` is opened.
-/

namespace LanguageClient

/-- What a read of the next message gives. -/
abbrev ReadResult := Except (Stop RpcError) Members

namespace ReadResult

def wouldBlock : ReadResult := .error (.failed .wouldBlock)

def streamClosed : ReadResult := .error (.failed .streamClosed)

/-- Something was found: a message, damage, or the end. -/
def isFinding : ReadResult → Bool
  | .error (.failed .wouldBlock) => false
  | _ => true

end ReadResult

namespace Frame

/-! ## What a part gives -/

/-- How a read stops at a body that is no message. -/
def BodyError.stop : BodyError → Stop RpcError
  | .notUtf8 e => .failed (.invalidJson (.notUtf8 e))
  | .notJson (.malformed flaw line column offset) =>
    .failed (.invalidJson (.notJson flaw line column offset))
  | .notJson (.tooManyDigits n) => .faulted (.tooManyDigits n)
  | .notAnObject d => .failed (.notAnObject d)

/-- The remark about a body that is no JSON. -/
def BodyError.entries (body : Bytes) : BodyError → Journal
  | .notUtf8 _ | .notJson (.malformed ..) =>
    [.remark .error ("Invalid JSON in message content: " ++ Quoted.bytes (body.take 100) ++ "...")]
  | .notJson (.tooManyDigits _) | .notAnObject _ => []

/-- What a read gives that takes the part. -/
def Part.result : Part → ReadResult
  | .malformed e => .error (.failed (.invalidFrame e))
  | .body bytes => (readBody bytes).mapError BodyError.stop

/-- What a read that takes the part writes into the journal. -/
def Part.entries : Part → Journal
  | .malformed e => [.remark .error e.message]
  | .body bytes =>
    match readBody bytes with
    | .ok message => [.traffic .receive message]
    | .error e => e.entries bytes

/-- A read that takes a part says something about this part. -/
theorem Part.isFinding_result (part : Part) : part.result.isFinding = true := by
  cases part with
  | malformed e => rfl
  | body bytes =>
      rw [Part.result]
      cases readBody bytes with
      | ok message => rfl
      | error e => rcases e with _ | (_ | _) | _ <;> rfl

theorem Part.result_ne_streamClosed (part : Part) : part.result ≠ .streamClosed := by
  cases part with
  | malformed e => exact fun h => nomatch h
  | body bytes =>
      rw [Part.result]
      cases readBody bytes with
      | ok message => exact fun h => nomatch h
      | error e => rcases e with _ | (_ | _) | _ <;> exact fun h => nomatch h

end Frame

/-- The failure of a read of the output that brings no bytes. -/
def ReadOutcome.failure? : ReadOutcome → Option RpcError
  | .data _ => none
  | .wouldBlock => some .wouldBlock
  | .ended => some .streamClosed
  | .failed e => some (.unreadable (.system e))
  | .closed => some (.unreadable .closed)

namespace Connection

open LanguageClient.Frame

variable {σ : Type}

/-- The connection once a part of the stream is taken. -/
def took (c : Connection σ) (part : Part) (rest : Bytes) : Connection σ :=
  { c with buffer := rest, journal := c.journal ++ part.entries }

/-- Taking a body is taking a part; a bad header is a part without one. -/
theorem takeBody_eq (c : Connection σ) :
    takeBody c =
      match take? c.buffer with
      | none => (.ok none, c)
      | some (.malformed e, rest) =>
        (.error (.failed (.invalidFrame e)), c.took (.malformed e) rest)
      | some (.body bytes, rest) => (.ok (some bytes), { c with buffer := rest }) := by
  unfold takeBody take?
  simp only [Attempt.bind_apply, Attempt.get_apply]
  cases Frame.front c.buffer with
  | incomplete => rfl
  | malformed e rest => rfl
  | body bytes rest => rfl

variable [Peer σ]

/-! ## What a read does -/

/-- All that a read can do: take a part that the buffer holds, take one that the bytes just read
complete, keep these bytes, or report why there are none. -/
inductive ReadStep (c : Connection σ) : ReadResult → Connection σ → Prop
  | buffered {part : Part} {rest : Bytes} (htake : take? c.buffer = some (part, rest)) :
      ReadStep c part.result (c.took part rest)
  | completed {bytes rest : Bytes} {peer : σ} {part : Part} (hnone : take? c.buffer = none)
      (hread : Peer.read readLimit c.peer = (.data bytes, peer))
      (htake : take? (c.buffer ++ bytes) = some (part, rest)) :
      ReadStep c part.result ({ c with peer := peer }.took part rest)
  | kept {bytes : Bytes} {peer : σ} (hnone : take? c.buffer = none)
      (hread : Peer.read readLimit c.peer = (.data bytes, peer))
      (hmore : take? (c.buffer ++ bytes) = none) :
      ReadStep c .wouldBlock { c with peer := peer, buffer := c.buffer ++ bytes }
  | refused {outcome : ReadOutcome} {peer : σ} {e : RpcError} (hnone : take? c.buffer = none)
      (hread : Peer.read readLimit c.peer = (outcome, peer)) (hfailure : outcome.failure? = some e) :
      ReadStep c (.error (.failed e)) { c with peer := peer }

/-- What happens once the body is there depends on the body alone. -/
theorem readNext_of_body {c c' : Connection σ} {bytes : Bytes}
    (h : nextBody c = (.ok bytes, c')) :
    readNext c =
      ((Part.body bytes).result,
        { c' with journal := c'.journal ++ (Part.body bytes).entries }) := by
  unfold readNext
  rw [Attempt.bind_of_ok h]
  simp only [Part.result, Part.entries]
  cases readBody bytes with
  | ok message => rfl
  | error e =>
      cases e with
      | notUtf8 e => rfl
      | notJson e =>
          cases e with
          | malformed flaw line column offset => rfl
          | tooManyDigits n => simp [BodyError.stop, BodyError.entries, Except.mapError]
      | notAnObject d => simp [BodyError.stop, BodyError.entries, Except.mapError]

theorem readNext_of_stop {c c' : Connection σ} {e : Stop RpcError}
    (h : nextBody c = (.error e, c')) : readNext c = (.error e, c') :=
  Attempt.bind_of_error h _

theorem readNext_of_take? {c : Connection σ} {part : Part} {rest : Bytes}
    (htake : take? c.buffer = some (part, rest)) : readNext c = (part.result, c.took part rest) := by
  have htaken := takeBody_eq c
  rw [htake] at htaken
  cases part with
  | malformed e => exact readNext_of_stop (Attempt.bind_of_error htaken _)
  | body bytes => exact readNext_of_body (Attempt.bind_of_ok htaken _)

/-- Without such a part the output is read, and the buffer is looked at once more. -/
theorem nextBody_of_none {c : Connection σ} (hnone : take? c.buffer = none) :
    nextBody c =
      (fill >>= fun _ => takeBody >>= fun body? =>
        match body? with
        | some body => pure body
        | none => Attempt.fail .wouldBlock) c := by
  have htaken := takeBody_eq c
  rw [hnone] at htaken
  exact Attempt.bind_of_ok htaken _

theorem fill_of_data {c : Connection σ} {bytes : Bytes} {peer : σ}
    (hread : Peer.read readLimit c.peer = (.data bytes, peer)) :
    fill c = (.ok (), { c with peer := peer, buffer := c.buffer ++ bytes }) := by
  unfold fill
  simp only [Attempt.bind_apply, Attempt.get_apply, hread]
  rfl

theorem fill_of_failure {c : Connection σ} {outcome : ReadOutcome} {peer : σ} {e : RpcError}
    (hread : Peer.read readLimit c.peer = (outcome, peer)) (hfailure : outcome.failure? = some e) :
    fill c = (.error (.failed e), { c with peer := peer }) := by
  unfold fill
  simp only [Attempt.bind_apply, Attempt.get_apply, hread]
  cases outcome with
  | data bytes => cases hfailure
  | wouldBlock | ended | failed e | closed => cases hfailure; rfl

/-- **What a read does is one of these steps.** -/
theorem readNext_step (c : Connection σ) : ReadStep c (readNext c).1 (readNext c).2 := by
  cases htake : take? c.buffer with
  | some taken =>
      rw [readNext_of_take? htake]
      exact .buffered htake
  | none =>
      -- the output is read, and what it brings is looked at with the buffer
      have hnext := nextBody_of_none htake
      rcases hread : Peer.read readLimit c.peer with ⟨outcome, peer⟩
      cases hfailure : outcome.failure? with
      | some e =>
          rw [Attempt.bind_of_error (fill_of_failure hread hfailure)] at hnext
          rw [readNext_of_stop hnext]
          exact .refused htake hread hfailure
      | none =>
          obtain ⟨bytes, rfl⟩ : ∃ bytes, outcome = .data bytes := by
            cases outcome <;> simp_all [ReadOutcome.failure?]
          rw [Attempt.bind_of_ok (fill_of_data hread)] at hnext
          have htaken := takeBody_eq { c with peer := peer, buffer := c.buffer ++ bytes }
          cases hmore : take? (c.buffer ++ bytes) with
          | none =>
              simp only [hmore] at htaken
              rw [Attempt.bind_of_ok htaken] at hnext
              rw [readNext_of_stop hnext]
              exact .kept htake hread hmore
          | some taken =>
              obtain ⟨part, rest⟩ := taken
              simp only [hmore] at htaken
              cases part with
              | malformed e =>
                  rw [Attempt.bind_of_error htaken] at hnext
                  rw [readNext_of_stop hnext]
                  exact .completed htake hread hmore
              | body body =>
                  rw [Attempt.bind_of_ok htaken] at hnext
                  rw [readNext_of_body hnext]
                  exact .completed htake hread hmore

end Connection

end LanguageClient
