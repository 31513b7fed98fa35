import LanguageClient.Proofs.Attempt
import LanguageClient.Proofs.Rpc.Watched
import LanguageClient.Rpc.Exchange

/-!
# Servers that answer alike

A connection knows its server by what the server answers.  Where one server is the image of another
under a map that keeps the answers (`Peer.Alike`), every operation on a connection to the image gives
what it gives on the connection itself, and ends in an image again.  A watched server and the server
that it wraps are such a pair.  The journal does not matter either: it is written to and never read,
so all this holds whatever had been noted before (`Connection.imageAfter`).

## Strategy

An operation is made of steps that agree with their images (`Attempt.Mirrors`), so it agrees with its
own.  The lemmas follow the definitions one by one; only a write, a wait and a read ask the server,
and only a note touches the journal.
-/

namespace LanguageClient

/-- A map of servers that keeps all answers. -/
structure Peer.Alike {τ σ : Type} [Peer τ] [Peer σ] (f : τ → σ) : Prop where
  write : ∀ bytes s, Peer.write bytes (f s) = ((Peer.write bytes s).1, f (Peer.write bytes s).2)
  await : ∀ timeout s,
    Peer.await timeout (f s) = ((Peer.await timeout s).1, f (Peer.await timeout s).2)
  read : ∀ limit s, Peer.read limit (f s) = ((Peer.read limit s).1, f (Peer.read limit s).2)
  isRunning : ∀ s, Peer.isRunning (f s) = Peer.isRunning s
  terminate : ∀ s, Peer.terminate (f s) = f (Peer.terminate s)

/-- A watch does not show in the answers. -/
theorem Watched.alike {σ : Type} [Peer σ] : Peer.Alike (Watched.peer : Watched σ → σ) :=
  ⟨fun _ _ => rfl, fun _ _ => rfl, fun _ _ => rfl, fun _ => rfl, fun _ => rfl⟩

theorem Peer.alike_id {σ : Type} [Peer σ] : Peer.Alike (id : σ → σ) :=
  ⟨fun _ _ => rfl, fun _ _ => rfl, fun _ _ => rfl, fun _ => rfl, fun _ => rfl⟩

namespace Attempt

variable {ε S T α β : Type}

/-- On the image of a state the second attempt gives what the first one gives on the state, and ends
in the image of where that one ends. -/
def Mirrors (f : S → T) (action : Attempt ε S α) (image : Attempt ε T α) : Prop :=
  ∀ s, image (f s) = ((action s).1, f (action s).2)

variable {f : S → T}

theorem mirrors_pure (a : α) : Mirrors f (pure a : Attempt ε S α) (pure a) := fun _ => rfl

theorem mirrors_fail (e : ε) : Mirrors f (fail e : Attempt ε S α) (fail e) := fun _ => rfl

theorem mirrors_fault (e : Fault) : Mirrors f (fault e : Attempt ε S α) (fault e) := fun _ => rfl

theorem mirrors_ofExcept {ε' : Type} (g : ε' → Stop ε) (result : Except ε' α) :
    Mirrors f (ofExcept g result : Attempt ε S α) (ofExcept g result) := by
  cases result with
  | error e => exact fun _ => rfl
  | ok a => exact fun _ => rfl

theorem mirrors_set (s : S) : Mirrors f (set s : Attempt ε S Unit) (set (f s)) := fun _ => rfl

theorem mirrors_modify {g : S → S} {g' : T → T} (h : ∀ s, g' (f s) = f (g s)) :
    Mirrors f (modify g : Attempt ε S Unit) (modify g') := by
  intro s
  rw [modify_apply, modify_apply, h]

/-- **Agreement goes on through a sequence of steps.** -/
theorem Mirrors.bind {action : Attempt ε S α} {image : Attempt ε T α} (h : Mirrors f action image)
    {next : α → Attempt ε S β} {next' : α → Attempt ε T β}
    (hnext : ∀ a, Mirrors f (next a) (next' a)) :
    Mirrors f (action >>= next) (image >>= next') := by
  intro s
  rw [bind_apply, bind_apply, h s]
  rcases action s with ⟨e | a, t⟩
  · rfl
  · exact hnext a t

theorem Mirrors.get_bind {next : S → Attempt ε S β} {next' : T → Attempt ε T β}
    (hnext : ∀ s, Mirrors f (next s) (next' (f s))) :
    Mirrors f (get >>= next) (get >>= next') :=
  fun s => hnext s s

/-- What follows a failure does not matter. -/
theorem mirrors_fail_bind (e : ε) (next : α → Attempt ε S β) (next' : α → Attempt ε T β) :
    Mirrors f (fail e >>= next) (fail e >>= next') := fun _ => rfl

theorem mirrors_ite {p : Prop} [Decidable p] {action action₁ : Attempt ε S α}
    {image image₁ : Attempt ε T α} (h : Mirrors f action image) (h₁ : Mirrors f action₁ image₁) :
    Mirrors f (if p then action else action₁) (if p then image else image₁) := by
  by_cases hp : p
  · rw [if_pos hp, if_pos hp]
    exact h
  · rw [if_neg hp, if_neg hp]
    exact h₁

theorem Mirrors.outcome {action : Attempt ε S α} {image : Attempt ε T α}
    (h : Mirrors f action image) {ε' : Type} :
    Mirrors f (action.outcome : Attempt ε' S (Except ε α)) image.outcome := by
  intro s
  rw [Attempt.outcome, Attempt.outcome, h s]
  rcases action s with ⟨(e | e) | a, t⟩ <;> rfl

end Attempt

namespace Connection

open Attempt

variable {τ σ : Type} (f : τ → σ)

/-- The same connection to the image of its server. -/
def image (c : Connection τ) : Connection σ :=
  ⟨f c.peer, c.pollTimeout, c.buffer, c.inbox, c.journal⟩

/-- The same connection to the image of its server, when other things had been noted before. -/
def imageAfter (past : Journal) (c : Connection τ) : Connection σ :=
  { c.image f with journal := past ++ c.journal }

variable (past : Journal)

@[simp] theorem imageAfter_peer (c : Connection τ) : (c.imageAfter f past).peer = f c.peer := rfl

@[simp] theorem imageAfter_pollTimeout (c : Connection τ) :
    (c.imageAfter f past).pollTimeout = c.pollTimeout := rfl

@[simp] theorem imageAfter_buffer (c : Connection τ) :
    (c.imageAfter f past).buffer = c.buffer := rfl

@[simp] theorem imageAfter_inbox (c : Connection τ) : (c.imageAfter f past).inbox = c.inbox := rfl

theorem mirrors_note (entry : Entry) : Mirrors (imageAfter f past) (note entry) (note entry) := by
  refine mirrors_modify fun c => ?_
  show { c.image f with journal := (past ++ c.journal) ++ [entry] } = _
  rw [List.append_assoc]
  rfl

theorem mirrors_remark (level : Level) (text : Text) :
    Mirrors (imageAfter f past) (remark level text) (remark level text) :=
  mirrors_note f past _

theorem mirrors_takeBody : Mirrors (imageAfter f past) takeBody takeBody := by
  refine .get_bind fun c => ?_
  rw [imageAfter_buffer]
  cases Frame.front c.buffer with
  | incomplete => exact mirrors_pure _
  | malformed e rest =>
      exact (mirrors_set { c with buffer := rest }).bind fun _ =>
        (mirrors_remark f past _ _).bind fun _ => mirrors_fail _
  | body body rest => exact (mirrors_set { c with buffer := rest }).bind fun _ => mirrors_pure _

variable {f past} [Peer τ] [Peer σ] (h : Peer.Alike f)

include h

theorem mirrors_send (method : Text) (message : Members) :
    Mirrors (imageAfter f past) (send method message) (send method message) := by
  refine .get_bind fun c => ?_
  rw [imageAfter_peer, h.write]
  rcases Peer.write (Frame.encode (.obj message)) c.peer with ⟨outcome, peer⟩
  refine (mirrors_set { c with peer := peer }).bind fun _ => ?_
  cases outcome with
  | accepted => exact mirrors_note f past _
  | broken | failed | closed => exact (mirrors_remark f past _ _).bind fun _ => mirrors_fail _

theorem mirrors_fill : Mirrors (imageAfter f past) fill fill := by
  refine .get_bind fun c => ?_
  rw [imageAfter_peer, h.read]
  rcases Peer.read readLimit c.peer with ⟨outcome, peer⟩
  refine (mirrors_set { c with peer := peer }).bind fun _ => ?_
  cases outcome with
  | data bytes => exact mirrors_modify fun _ => rfl
  | wouldBlock | ended | failed | closed => exact mirrors_fail _

theorem mirrors_nextBody : Mirrors (imageAfter f past) nextBody nextBody := by
  refine (mirrors_takeBody f past).bind fun body? => ?_
  cases body? with
  | some body => exact mirrors_pure _
  | none =>
      refine (mirrors_fill h).bind fun _ => (mirrors_takeBody f past).bind fun body? => ?_
      cases body? with
      | some body => exact mirrors_pure _
      | none => exact mirrors_fail _

theorem mirrors_readNext : Mirrors (imageAfter f past) readNext readNext := by
  refine (mirrors_nextBody h).bind fun body => ?_
  rcases Frame.readBody body with (e | (e | n) | d) | message
  · exact (mirrors_remark f past _ _).bind fun _ => mirrors_fail _
  · exact (mirrors_remark f past _ _).bind fun _ => mirrors_fail _
  · exact mirrors_fault _
  · exact mirrors_fail _
  · exact (mirrors_note f past _).bind fun _ => mirrors_pure _

theorem mirrors_awaitOutput : Mirrors (imageAfter f past) awaitOutput awaitOutput := by
  refine .get_bind fun c => ?_
  rw [imageAfter_buffer, imageAfter_peer, imageAfter_pollTimeout, h.await]
  refine mirrors_ite (mirrors_pure _) ?_
  rcases Peer.await c.pollTimeout c.peer with ⟨readiness, peer⟩
  refine (mirrors_set { c with peer := peer }).bind fun _ => ?_
  cases readiness with
  | ready => exact mirrors_pure _
  | quiet => exact mirrors_fail _
  | interrupted | closed => exact mirrors_fault _

theorem mirrors_readOne : Mirrors (imageAfter f past) readOne readOne := by
  refine (mirrors_awaitOutput h).bind fun _ => (mirrors_readNext h).outcome.bind fun result => ?_
  rcases result with e | message
  · cases e with
    | _ => exact mirrors_fail _
  · exact mirrors_pure _

theorem mirrors_receive (id : Json) : Mirrors (imageAfter f past) (receive id) (receive id) := by
  refine (mirrors_readOne h).bind fun message => ?_
  -- a message with a method goes to the inbox, which is the same in the image
  refine mirrors_ite (.bind (mirrors_modify fun c => ?_) fun _ => mirrors_fail_bind _ _ _) ?_
  · rfl
  · exact mirrors_ite (mirrors_pure _) ((mirrors_remark f past _ _).bind fun _ => mirrors_fail _)

theorem mirrors_keepReceiving (id : Json) (cycles : Nat) (last : Except RpcError Members) :
    Mirrors (imageAfter f past) (keepReceiving id cycles last) (keepReceiving id cycles last) := by
  induction cycles generalizing last with
  | zero => exact mirrors_ofExcept _ _
  | succ cycles ih =>
      rcases last with e | message
      · exact mirrors_ite ((mirrors_receive h id).outcome.bind fun last => ih last) (mirrors_fail _)
      · exact mirrors_pure _

theorem mirrors_call (id : Json) (method : Text) (params : Json) :
    Mirrors (imageAfter f past) (call id method params) (call id method params) :=
  (mirrors_send h method _).bind fun _ => mirrors_receive h id

theorem mirrors_callRepeatedly (cycles : Nat) (id : Json) (method : Text) (params : Json) :
    Mirrors (imageAfter f past) (callRepeatedly cycles id method params)
      (callRepeatedly cycles id method params) :=
  (mirrors_call h id method params).outcome.bind fun last => mirrors_keepReceiving h id _ last

theorem mirrors_next : Mirrors (imageAfter f past) next next := by
  refine .get_bind fun c => ?_
  rw [imageAfter_inbox]
  cases c.inbox with
  | cons message rest => exact (mirrors_set { c with inbox := rest }).bind fun _ => mirrors_pure _
  | nil =>
      refine (mirrors_readOne h).outcome.bind fun result => ?_
      rcases result with e | message
      · cases e with
        | timeout => exact mirrors_pure _
        | _ => exact mirrors_fail _
      · exact mirrors_ite (mirrors_pure _) ((mirrors_remark f past _ _).bind fun _ => mirrors_pure _)

end Connection

end LanguageClient
