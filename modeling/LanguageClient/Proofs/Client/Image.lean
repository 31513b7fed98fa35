import LanguageClient.Proofs.Client.History
import LanguageClient.Proofs.Rpc.Image

/-!
# Clients of servers that answer alike

What a client does depends on its server by the server's answers only.  It depends neither on the
process id nor on the journal, which it only writes to.  So a run of a client whose server is watched
gives what it gives without the watch, and the client ends as it would without it.  Main statement:
`run_unwatched`.

## Strategy

Every operation of a client agrees with its image under a map that keeps the answers, as every
exchange does, and under any process id (`recast`) and any past of the journal (`recastAfter`).  A
run is then compared call by call.
-/

namespace LanguageClient.Client

open LanguageClient.Attempt

variable {τ σ : Type} (f : τ → σ) (g : Nat → Nat)

/-- The same client of the image of its server. -/
def image (c : Client τ) : Client σ :=
  ⟨c.connection.image f, c.processId, c.workingDirectory, c.cycles, c.nextId, c.phase,
    c.isInitialized, c.offersHover, c.serverInfo⟩

/-- The same client of the image of its server, which has another process id. -/
def recast (c : Client τ) : Client σ := { c.image f with processId := g c.processId }

/-- The same, when other things had been noted before. -/
def recastAfter (past : Journal) (c : Client τ) : Client σ :=
  { c.recast f g with connection := c.connection.imageAfter f past }

variable (past : Journal)

@[simp] theorem recastAfter_connection (c : Client τ) :
    (c.recastAfter f g past).connection = c.connection.imageAfter f past := rfl

@[simp] theorem recastAfter_phase (c : Client τ) : (c.recastAfter f g past).phase = c.phase := rfl

@[simp] theorem recastAfter_offersHover (c : Client τ) :
    (c.recastAfter f g past).offersHover = c.offersHover := rfl

/-- What agrees whatever has been noted agrees when nothing has. -/
theorem mirrors_recast {α : Type} {action : Operation τ α} {action' : Operation σ α}
    (h : Mirrors (recastAfter f g []) action action') : Mirrors (recast f g) action action' := h

/-- What agrees whatever the process id agrees under the same one. -/
theorem mirrors_image {α : Type} {action : Operation τ α} {action' : Operation σ α}
    (h : Mirrors (recastAfter f id []) action action') : Mirrors (image f) action action' := h

/-! ## Operations -/

theorem mirrors_exchange {α : Type} {action : Exchange τ α} {action' : Exchange σ α}
    (h : Mirrors (Connection.imageAfter f past) action action') :
    Mirrors (recastAfter f g past) (exchange action) (exchange action') := by
  intro c
  rw [exchange_apply, exchange_apply, recastAfter_connection, h c.connection]
  rfl

theorem mirrors_remark (level : Level) (text : Text) :
    Mirrors (recastAfter f g past) (remark level text) (remark level text) := by
  refine mirrors_modify fun c => ?_
  show Client.mk ({ c.connection.image f with
    journal := (past ++ c.connection.journal) ++ [.remark level text] }) _ _ _ _ _ _ _ _ = _
  rw [List.append_assoc]
  rfl

theorem mirrors_takeId : Mirrors (recastAfter f g past) takeId takeId := fun _ => rfl

theorem mirrors_documentUri (path : Text) :
    Mirrors (recastAfter f g past) (documentUri path) (documentUri path) :=
  .get_bind fun _ => (mirrors_ofExcept _ _).bind fun _ => mirrors_pure _

/-- What a notification is has nothing to do with the server, and is remarked on alike. -/
theorem mirrors_event (method : Method) (m : Members) :
    Mirrors (recastAfter f g past) (event method m) (event method m) := by
  cases method with
  | showMessage =>
      unfold event
      cases Message.serverMessage m with
      | error e => exact mirrors_fail _
      | ok message => exact mirrors_pure _
  | logMessage =>
      unfold event
      cases Message.serverMessage m with
      | error e => exact mirrors_fail _
      | ok message => exact (mirrors_remark f g past _ _).bind fun _ => mirrors_pure _
  | publishDiagnostics =>
      refine (mirrors_ofExcept _ _).bind fun result => ?_
      cases result with
      | error e => exact mirrors_fail _
      | ok diagnostics => exact (mirrors_ofExcept _ _).bind fun _ => mirrors_pure _
  | _ => exact mirrors_pure _

theorem mirrors_interpret (m : Members) :
    Mirrors (recastAfter f g past) (interpret m) (interpret m) := by
  refine (mirrors_ofExcept _ _).bind fun kind => (mirrors_ofExcept _ _).bind fun method => ?_
  exact mirrors_ite (mirrors_fail_bind _ _ _) (mirrors_event f g past method m)

variable {f g past}

theorem outcomeOf_recastAfter {α : Type} {answer : α → Answer} {operation : Operation τ α}
    {operation' : Operation σ α} (hmirrors : Mirrors (recastAfter f g past) operation operation')
    (c : Client τ) :
    outcomeOf answer (operation' (c.recastAfter f g past)) =
      ((outcomeOf answer (operation c)).1,
        (outcomeOf answer (operation c)).2.recastAfter f g past) := by
  rw [hmirrors c]
  rfl

variable [Peer τ] [Peer σ] (h : Peer.Alike f)

include h

theorem isRunning_recastAfter (c : Client τ) :
    (c.recastAfter f g past).isRunning = c.isRunning := h.isRunning _

theorem isRunning_image (c : Client τ) : (c.image f).isRunning = c.isRunning := h.isRunning _

theorem close_recastAfter (c : Client τ) :
    (c.recastAfter f g past).close = c.close.recastAfter f g past := by
  unfold close
  rw [recastAfter_phase]
  by_cases hclosed : c.phase = .closed
  · rw [if_pos hclosed, if_pos hclosed]
  · rw [if_neg hclosed, if_neg hclosed, recastAfter_connection, Connection.imageAfter_peer,
      h.terminate]
    rfl

theorem close_image (c : Client τ) : (c.image f).close = c.close.image f := by
  show (c.recastAfter f id []).close = c.close.recastAfter f id []
  exact close_recastAfter h c

theorem mirrors_checkReady (method : Text) :
    Mirrors (recastAfter f g past) (checkReady method) (checkReady method) := by
  refine .get_bind fun c => ?_
  rw [isRunning_recastAfter h, recastAfter_phase]
  exact mirrors_ite (mirrors_fail_bind _ _ _) (mirrors_ite (mirrors_fail _) (mirrors_pure _))

theorem mirrors_request (method : Method) (params : Json) :
    Mirrors (recastAfter f g past) (request method params) (request method params) := by
  refine (mirrors_takeId f g past).bind fun id => .get_bind fun c => ?_
  refine (mirrors_exchange f g past (Connection.mirrors_callRepeatedly h _ _ _ _)).bind
    fun response => ?_
  rcases response with e | m
  · exact (mirrors_remark f g past _ _).bind fun _ => mirrors_pure _
  · exact mirrors_pure _

theorem mirrors_notify (method : Method) (params : Payload) :
    Mirrors (recastAfter f g past) (notify method params) (notify method params) := by
  refine (mirrors_checkReady h _).bind fun _ => ?_
  refine (mirrors_exchange f g past (Connection.mirrors_send h _ _)).bind fun result => ?_
  rcases result with e | done
  · exact mirrors_fail _
  · exact mirrors_pure _

theorem mirrors_handshake (params : Payload) :
    Mirrors (recastAfter f g past) (handshake params) (handshake params) := by
  refine .get_bind fun c => ?_
  -- the guard and the new phase are the client's own
  rw [recastAfter_phase]
  refine mirrors_ite (mirrors_fail_bind _ _ _) ?_
  refine .bind (mirrors_set { c with phase := .initializing }) fun _ => ?_
  refine (mirrors_request h _ _).bind fun response => ?_
  rcases accepted response with cause | m
  · exact mirrors_fail _
  · dsimp only
    rcases InitializeResult.decode ((m.get? "result").getD .null) with e | r
    · exact mirrors_fail _
    · refine .bind (mirrors_modify fun c => ?_) fun _ =>
        mirrors_ite (mirrors_remark f g past _ _) (mirrors_pure _)
      rfl

theorem mirrors_announce (params : Payload) :
    Mirrors (recastAfter f g past) (announce params) (announce params) := by
  refine .get_bind fun c => ?_
  rw [recastAfter_phase]
  refine mirrors_ite (mirrors_fail_bind _ _ _) ?_
  refine .bind (mirrors_set { c with phase := .initializing }) fun _ => ?_
  refine (mirrors_takeId f g past).bind fun id => ?_
  refine (mirrors_exchange f g past (Connection.mirrors_send h _ _)).bind fun result => ?_
  rcases result with e | done
  · exact (mirrors_remark f g past _ _).bind fun _ => mirrors_fail _
  · exact mirrors_pure _

theorem mirrors_confirm : Mirrors (recastAfter f g past) confirm confirm := by
  refine .get_bind fun c => ?_
  rw [isRunning_recastAfter h, recastAfter_phase]
  refine mirrors_ite (mirrors_fail_bind _ _ _) (mirrors_ite (mirrors_fail_bind _ _ _) ?_)
  refine (mirrors_exchange f g past (Connection.mirrors_send h _ _)).bind fun result => ?_
  rcases result with e | done
  · exact mirrors_fail _
  · exact mirrors_modify fun _ => rfl

theorem mirrors_shutdown : Mirrors (recastAfter f g past) shutdown shutdown := by
  refine (mirrors_checkReady h _).bind fun _ => (mirrors_request h _ _).bind fun response => ?_
  rcases accepted response with cause | m
  · exact mirrors_fail _
  · dsimp only
    rcases Message.shutdownAnswer m with e | done
    · exact mirrors_fail _
    · exact mirrors_modify fun _ => rfl

theorem mirrors_hover (path : Text) (place : BufferPosition) :
    Mirrors (recastAfter f g past) (hover path place) (hover path place) := by
  refine .get_bind fun c => ?_
  rw [isRunning_recastAfter h, recastAfter_offersHover]
  refine mirrors_ite (mirrors_fail_bind _ _ _) (mirrors_ite (mirrors_fail_bind _ _ _) ?_)
  refine (mirrors_checkReady h _).bind fun _ => ?_
  refine (mirrors_documentUri f g past path).bind fun uri => ?_
  refine (mirrors_request h _ _).bind fun response => ?_
  rcases accepted response with cause | m
  · exact mirrors_fail _
  · dsimp only
    rcases Message.hoverAnswer m with e | found
    · exact mirrors_fail _
    · exact mirrors_pure _

theorem mirrors_poll : Mirrors (recastAfter f g past) poll poll := by
  refine .get_bind fun c => ?_
  rw [recastAfter_phase]
  refine mirrors_ite (mirrors_fail_bind _ _ _) ?_
  refine (mirrors_exchange f g past (Connection.mirrors_next h)).bind fun result => ?_
  rcases result with e | (_ | m)
  -- after an exchange without a message the server is asked once more whether it runs
  · refine .get_bind fun c => ?_
    rw [isRunning_recastAfter h]
    exact mirrors_ite (mirrors_fail_bind _ _ _) (mirrors_fail _)
  · refine .get_bind fun c => ?_
    rw [isRunning_recastAfter h]
    exact mirrors_ite (mirrors_fail_bind _ _ _) (mirrors_pure _)
  · exact (mirrors_interpret f g past m).bind fun _ => mirrors_pure _

/-- **A call gives the same whichever of two servers is there that answer alike, whatever their process
ids, and whatever has been noted before.** -/
theorem perform_recastAfter (c : Client τ) (call : Call) :
    (c.recastAfter f g past).perform call =
      ((c.perform call).1, (c.perform call).2.recastAfter f g past) := by
  cases call with
  | handshake params => exact outcomeOf_recastAfter (mirrors_handshake h params) c
  | confirm => exact outcomeOf_recastAfter (mirrors_confirm h) c
  | shutdown => exact outcomeOf_recastAfter (mirrors_shutdown h) c
  | close => exact congrArg (Prod.mk _) (close_recastAfter h c)
  | changeConfiguration settings => exact outcomeOf_recastAfter (mirrors_notify h _ _) c
  | openDocument path language text =>
      exact outcomeOf_recastAfter
        ((mirrors_documentUri f g past path).bind fun _ => mirrors_notify h _ _) c
  | changeDocument version path text =>
      exact outcomeOf_recastAfter
        ((mirrors_documentUri f g past path).bind fun _ => mirrors_notify h _ _) c
  | closeDocument path =>
      exact outcomeOf_recastAfter
        ((mirrors_documentUri f g past path).bind fun _ => mirrors_notify h _ _) c
  | hover path place => exact outcomeOf_recastAfter (mirrors_hover h path place) c
  | poll => exact outcomeOf_recastAfter (mirrors_poll h) c
  | takeId => exact outcomeOf_recastAfter (mirrors_takeId f g past) c

theorem perform_image (c : Client τ) (call : Call) :
    (c.image f).perform call = ((c.perform call).1, (c.perform call).2.image f) := by
  show (c.recastAfter f id []).perform call = _
  exact perform_recastAfter h c call

omit h

/-! ## Runs -/

omit [Peer σ] in
/-- The client after its server has done something of its own accord. -/
def changed (c : Client σ) (change : σ → σ) : Client σ :=
  { c with connection := { c.connection with peer := change c.connection.peer } }

/-- The results of the calls of a run, and the client after it, with nobody watching. -/
def results (c : Client σ) :
    List (Step σ) → List (Except (Stop ClientError) Answer) × Client σ
  | [] => ([], c)
  | .call call :: steps =>
    ((c.perform call).1 :: ((c.perform call).2.results steps).1,
      ((c.perform call).2.results steps).2)
  | .server change :: steps => (c.changed change).results steps

/-- A history tells what happens without a watch. -/
theorem results_unwatched (c : Client (Watched σ)) (steps : List (Step σ)) :
    (c.image Watched.peer).results steps =
      ((c.history steps).1.map Event.result, (c.history steps).2.image Watched.peer) := by
  induction steps generalizing c with
  | nil => rfl
  | cons step steps ih =>
      cases step with
      | call call =>
          rw [results, perform_image Watched.alike, history]
          dsimp only
          rw [ih]
          rfl
      | server change => exact ih (c.served change)

/-- **A run gives what it gives without a watch.** -/
theorem run_unwatched (peer : σ) (processId : Nat) (workingDirectory : Text)
    (pollTimeout : Binary64) (cycles : Int) (steps : List (Step σ)) :
    (attach peer processId workingDirectory pollTimeout cycles).results steps =
      ((run peer processId workingDirectory pollTimeout cycles steps).1.map Event.result,
        (run peer processId workingDirectory pollTimeout cycles steps).2.image Watched.peer) :=
  results_unwatched (attach (.of peer) processId workingDirectory pollTimeout cycles) steps

end LanguageClient.Client
