import LanguageClient.Proofs.Client.Image
import LanguageClient.Proofs.Rpc.Tracing
import LanguageClient.Script.Server
import LanguageClient.Session

/-!
# Clients with a trace

A session is a client with a trace, or without one.  Main statement: `tracing_faithful`.  With a trace
every call gives what it gives without one and leaves the client and its server as they are without
one, whichever attempts to record are refused; and the attempts are the messages that passed on the
wire, in their order, counted from zero.

## Strategy

A call of a client can be followed by a trace (`Step.traceable`): it does not look into the journal
(`perform_recastAfter`), and it writes before it listens (`Did.inTurn`).  The rest is said of
whatever can be followed (`Act.faithful`).  A session runs its calls as `Act.traced` does, with the
recorder of its system (`Session.act_traced`).
-/

namespace LanguageClient

open Connected

/-- A client works over its connection. -/
instance {σ : Type} : Connected (Client σ) σ where
  connection c := c.connection
  reconnect connection c := { c with connection := connection }
  connection_reconnect _ _ := rfl
  reconnect_connection _ := rfl
  reconnect_reconnect _ _ _ := rfl

namespace Client

variable {σ : Type} [Peer σ]

def Step.act : Step σ → Act (Client (Watched σ)) (Except (Stop ClientError) Answer)
  | .call deed => fun c => (some (c.perform deed).1, (c.perform deed).2)
  | .server change => fun c => (none, c.served change)

theorem Step.traceable (step : Step σ) : step.act.Traceable := by
  cases step with
  | call call =>
      refine ⟨fun past c => ?_, fun c => (perform_did c call).inTurn⟩
      have h : (c.recastAfter id id past).perform call = _ := perform_recastAfter Peer.alike_id c call
      exact congrArg (fun x => (some x.1, x.2)) h
  | server change =>
      exact ⟨fun past c => rfl, fun c => ⟨.none, .of_none (.served c.connection change)⟩⟩

/-- A run without a trace is the run whose history is known. -/
theorem runs_eq_history (c : Client (Watched σ)) (steps : List (Step σ)) :
    Act.runs (steps.map Step.act) c =
      ((c.history steps).1.map Event.result, (c.history steps).2) := by
  induction steps generalizing c with
  | nil => rfl
  | cons step steps ih =>
      cases step with
      | call call =>
          rw [List.map_cons, Act.runs, history]
          exact congrArg (fun x => (_ :: x.1, x.2)) (ih (c.perform call).2)
      | server change =>
          rw [List.map_cons, Act.runs, history]
          exact ih (c.served change)

/-- **Whatever is done with a client, a trace of it is faithful and does not interfere.** -/
theorem faithful {F : Type} (record : Recorder F) (file : Text) (files : F) (peer : σ)
    (processId : Nat) (workingDirectory : Text) (pollTimeout : Binary64) (cycles : Int)
    (steps : List (Step σ)) :
    Faithful record file files (steps.map Step.act)
      (attach (.of peer) processId workingDirectory pollTimeout cycles) := by
  refine Act.faithful record file files (fun act hmem => ?_) rfl
  obtain ⟨step, -, rfl⟩ := List.mem_map.mp hmem
  exact step.traceable

end Client

/-! ## Sessions -/

namespace Session

variable {η σ : Type} [Peer σ]

/-- A step of a client as one of its session. -/
def act (s : Surroundings) :
    Client.Step σ → Act (Session (Watched σ) × Site η (Watched σ))
      (Except (Stop ClientError) Client.Answer)
  | .call call => fun x =>
    let (result, session, site) := x.1.run s (fun c => c.perform call) x.2
    (some result, session, site)
  | .server change => fun x => (none, x.1.mapServer (Watched.map change), x.2)

/-- The session of a client without a trace, which has handed its journal over. -/
def untraced (site : Site η (Watched σ)) (c : Client (Watched σ)) :
    Session (Watched σ) × Site η (Watched σ) :=
  (⟨cleared c, none⟩, { site with journal := site.journal ++ journal c })

/-- The session of a client with a trace. -/
def traced (site : Site η (Watched σ)) (x : Traced (Client (Watched σ)) Files) :
    Session (Watched σ) × Site η (Watched σ) :=
  (⟨x.user, some x.trace⟩,
    { site with files := x.files, journal := site.journal ++ x.log })

variable (s : Surroundings) (site : Site η (Watched σ))

/-- Without a trace, a session does what its client does. -/
theorem act_untraced (step : Client.Step σ) (c : Client (Watched σ)) :
    act s step (untraced site c) = ((step.act c).1, untraced site (step.act c).2) := by
  have hact := step.traceable.blind (journal c) (cleared c)
  rw [after_cleared] at hact
  rw [hact]
  dsimp only
  rw [untraced, untraced, journal_after, cleared_after]
  cases step with
  | call call =>
      simp only [act, run, settle, Client.takeJournal, ← List.append_assoc]
      rfl
  | server change =>
      -- the server writes no journal
      have hserved : journal ((cleared c).served change) = [] := rfl
      simp only [act, Client.Step.act, hserved, cleared_of_nil hserved, List.append_nil]
      rfl

/-- With a trace, it does what its client does with the recorder of its system. -/
theorem act_traced (step : Client.Step σ) {x : Traced (Client (Watched σ)) Files}
    (hfile : x.trace.obstacle? = none) (hjournal : journal x.user = []) :
    act s step (traced site x) =
      ((step.act.traced (Trace.recorder s) x).1,
        traced site (step.act.traced (Trace.recorder s) x).2) := by
  cases step with
  | call call =>
      simp only [act, run, settle, traced, Client.takeJournal, Act.traced,
        Trace.follow_eq_followWith s hfile, List.append_assoc]
      rfl
  | server change =>
      have hserved : journal (x.user.served change) = [] := hjournal
      simp only [act, Act.traced, Client.Step.act, hserved, cleared_of_nil hserved,
        Trace.followWith, List.append_nil]
      rfl

/-- The results of a run of a session, and the session and its site after it. -/
def runs (c : Client (Watched σ)) (trace : Option Trace) (steps : List (Client.Step σ)) :
    List (Except (Stop ClientError) Client.Answer) × Session (Watched σ) × Site η (Watched σ) :=
  Act.runs (steps.map (act s)) (⟨c, trace⟩, site)

theorem runs_untraced (steps : List (Client.Step σ)) {c : Client (Watched σ)}
    (hc : journal c = []) :
    runs s site c none steps =
      ((c.history steps).1.map Client.Event.result, untraced site (c.history steps).2) := by
  have hstart : untraced site c = (⟨c, none⟩, site) := by
    rw [untraced, hc, cleared_of_nil hc, List.append_nil]
  rw [runs, ← hstart, Act.runs_map (fun step _ c => act_untraced s site step c) c,
    c.runs_eq_history]

theorem runs_traced {file : Text} (hfile : (⟨file, 0⟩ : Trace).obstacle? = none)
    (steps : List (Client.Step σ)) {c : Client (Watched σ)} (hc : journal c = []) :
    runs s site c (some ⟨file, 0⟩) steps =
      ((c.history steps).1.map Client.Event.result, traced site
        (tracedBy (Trace.recorder s) ⟨file, 0⟩ site.files (c.history steps).2)) := by
  have hstart : traced site (tracedBy (Trace.recorder s) ⟨file, 0⟩ site.files c) =
      (⟨c, some ⟨file, 0⟩⟩, site) := by
    rw [tracedBy_of_nil _ _ _ hc, traced, List.append_nil]
  have hstep : ∀ step ∈ steps, ∀ c : Client (Watched σ),
      act s step (traced site (tracedBy (Trace.recorder s) ⟨file, 0⟩ site.files c)) =
        ((Client.Step.act step c).1, traced site
          (tracedBy (Trace.recorder s) ⟨file, 0⟩ site.files (Client.Step.act step c).2)) := by
    intro step _ c
    -- the next attempts are for the same file
    have hsame : (tracedBy (Trace.recorder s) ⟨file, 0⟩ site.files c).trace.obstacle? = none :=
      (Trace.followWith_obstacle? ..).trans hfile
    rw [act_traced s site step hsame (journal_cleared c), step.traceable.blind.traced]
  rw [runs, ← hstart, Act.runs_map hstep c, c.runs_eq_history]

/-- What a session with a trace is held to, beside the same session without one. -/
structure Undisturbed (file : Text) (c : Client (Watched σ)) (steps : List (Client.Step σ)) :
    Prop where
  results_eq : (runs s site c (some ⟨file, 0⟩) steps).1 = (runs s site c none steps).1
  client_eq :
    (runs s site c (some ⟨file, 0⟩) steps).2.1.client = (runs s site c none steps).2.1.client
  /-- Its trace records with the recorder of its system. -/
  traced_eq :
    let run := tracedRun (Trace.recorder s) file site.files (steps.map Client.Step.act) c
    runs s site c (some ⟨file, 0⟩) steps = (run.1, traced site run.2.unwatched)

/-- **A session is not disturbed by its trace**, unless something stands in the way of the file. -/
theorem undisturbed {file : Text} (hfile : (⟨file, 0⟩ : Trace).obstacle? = none)
    (steps : List (Client.Step σ)) {c : Client (Watched σ)} (hc : journal c = []) :
    Undisturbed s site file c steps := by
  have huntraced := runs_untraced s site steps hc
  have htraced := runs_traced s site hfile steps hc
  have hblind : ∀ act ∈ steps.map Client.Step.act, act.Blind := by
    intro act hmem
    obtain ⟨step, -, rfl⟩ := List.mem_map.mp hmem
    exact step.traceable.blind
  refine ⟨by rw [huntraced, htraced], by rw [huntraced, htraced]; rfl, ?_⟩
  dsimp only
  rw [htraced, tracedRun_eq _ _ _ hblind hc, tracedBy_unwatched, c.runs_eq_history]

end Session

/-- A server that says something before it answers the first request. -/
def chatty : ScriptedServer :=
  .start ⟨[], [("initialize",
    [[.send (.object [("method", .ofString "window/logMessage")]), .reply (.object [])]])]⟩

/-- The first request to it. -/
def greeting : List (Client.Step ScriptedServer) := [.call (.handshake (.map []))]

/-- The file of a trace. -/
def chatLog : Text := "/traces/chat.yaml"

/-- A system without files. -/
def emptySystem : Surroundings := ⟨"/", "/home", 1, "2024-01-01", "12:00:00", []⟩

end LanguageClient
