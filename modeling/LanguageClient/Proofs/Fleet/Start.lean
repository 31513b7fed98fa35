import LanguageClient.Proofs.Rpc.Traffic
import LanguageClient.Session

/-!
# Starting a session

Starting a session launches a server and then starts the trace.  Main statement: `start_accounts`.
It says for every host and every configuration which outcome there is, and what becomes of a server
that was launched.

```text
what the host answers     the trace     the outcome     the server
nothing to launch                       a failure
refused                                 a failure
unusable                                a failure       stopped, and given up
impossible                              a fault
started                   starts        a session       in the session
started                   does not      a fault         given up as it runs
```

So a start is all or nothing, but for the last line.
-/

namespace LanguageClient

/-! ## What a start depends on -/

namespace StartOutcome

variable {σ : Type}

/-- The server that runs and can be used. -/
def running? : StartOutcome σ → Option (Nat × σ)
  | started processId peer => some (processId, peer)
  | _ => none

/-- The server that runs and cannot be used, once it has been stopped. -/
def stopped? [Peer σ] : StartOutcome σ → Option (Nat × σ)
  | unusable processId peer _ => some (processId, Peer.terminate peer)
  | _ => none

/-- Why the command cannot be handed to the system. -/
def fault? : StartOutcome σ → Option Fault
  | impossible f => some f
  | _ => none

end StartOutcome

namespace Site

variable {η σ ι : Type} [Host η σ]

/-- What the host answers to a command.  It is not asked about an empty one. -/
def answer? (command : Text) (site : Site η σ) : Option (StartOutcome σ) :=
  if command.words = [] then none else some (Host.start command site.host).1

/-- The host once it has been asked about a command. -/
def hostAfter (command : Text) (site : Site η σ) : η :=
  if command.words = [] then site.host else (Host.start command site.host).2

omit [Host η σ] in
/-- A trace in the directory that is configured, or why it cannot be started. -/
def newTrace (s : Surroundings) (config : Config ι) (name : Text) (site : Site η σ) :
    Except Fault Trace :=
  match config.resolvedTraceDirectory s with
  | .str directory => (Trace.start s.workingDirectory directory name site.files).map (·.1)
  | _ => .error .wrongKind

omit [Host η σ] in
/-- The trace of a session, if it is to have one. -/
def traceOf (s : Surroundings) (config : Config ι) (name : Option Text) (command : Text)
    (site : Site η σ) : Except Fault (Option Trace) :=
  if config.trace = .off then .ok none
  else (site.newTrace s config (traceName name command)).map some

omit [Host η σ] in
/-- Why a session cannot have its trace. -/
def traceFault? (s : Surroundings) (config : Config ι) (name : Option Text) (command : Text)
    (site : Site η σ) : Option Fault :=
  match site.traceOf s config name command with
  | .error f => some f
  | .ok _ => none

omit [Host η σ] in
/-- Why nothing can be recorded in the trace of a session. -/
def traceObstacle? (s : Surroundings) (config : Config ι) (name : Option Text) (command : Text)
    (site : Site η σ) : Option Fault :=
  match site.traceOf s config name command with
  | .ok trace => trace.bind Trace.obstacle?
  | .error _ => none

/-- A site where a host has been asked about a command, and some servers have been given up. -/
structure Left (command : Text) (site site' : Site η σ) (given : List (Nat × σ)) : Prop where
  host_eq : site'.host = site.hostAfter command
  abandoned_eq : site'.abandoned = site.abandoned ++ given

/-- The session of a server that has just been launched. -/
def sessionOf (s : Surroundings) (config : Config ι) (server : Nat × σ) (trace : Option Trace) :
    Session σ :=
  ⟨Client.attach server.2 server.1 s.workingDirectory config.pollTimeout config.cycles, trace⟩

variable [Peer σ]

/-- All that a start can come to. -/
inductive Starts (s : Surroundings) (config : Config ι) (name : Option Text) (command : Text)
    (site : Site η σ) : Except (Stop LaunchError) (Session σ) → Site η σ → Prop
  | empty (hanswer : site.answer? command = none) (hleft : Left command site site []) :
      Starts s config name command site (.error (.failed .emptyCommand)) site
  | refused {e : SystemError} {site' : Site η σ} (hanswer : site.answer? command = some (.refused e))
      (hleft : Left command site site' []) :
      Starts s config name command site (.error (.failed (.refused e))) site'
  | unusable {processId : Nat} {peer : σ} {e : SystemError} {site' : Site η σ}
      (hanswer : site.answer? command = some (.unusable processId peer e))
      (hleft : Left command site site' [(processId, Peer.terminate peer)]) :
      Starts s config name command site (.error (.failed (.blocking e))) site'
  | impossible {f : Fault} {site' : Site η σ} (hanswer : site.answer? command = some (.impossible f))
      (hleft : Left command site site' []) :
      Starts s config name command site (.error (.faulted f)) site'
  | untraced {processId : Nat} {peer : σ} {f : Fault} {site' : Site η σ}
      (hanswer : site.answer? command = some (.started processId peer))
      (htrace : traceOf s config name command site = .error f)
      (hleft : Left command site site' [(processId, peer)]) :
      Starts s config name command site (.error (.faulted f)) site'
  | started {processId : Nat} {peer : σ} {trace : Option Trace} {site' : Site η σ}
      (hanswer : site.answer? command = some (.started processId peer))
      (htrace : traceOf s config name command site = .ok trace)
      (hleft : Left command site site' []) :
      Starts s config name command site (.ok (sessionOf s config (processId, peer) trace)) site'

theorem Starts.left {s : Surroundings} {config : Config ι} {name : Option Text} {command : Text}
    {site site' : Site η σ} {result : Except (Stop LaunchError) (Session σ)}
    (h : Starts s config name command site result site') : ∃ given, Left command site site' given := by
  cases h with
  | empty _ hleft | refused _ hleft | unusable _ hleft | impossible _ hleft
  | untraced _ _ hleft | started _ _ hleft => exact ⟨_, hleft⟩

/-! ## Starting -/

omit [Host η σ] [Peer σ] in
/-- Starting a trace changes the files of the site only. -/
theorem startTrace_caught {ε : Type} (s : Surroundings) (config : Config ι) (name : Text)
    (site : Site η σ) :
    ∃ files, (startTrace s config name : Attempt ε (Site η σ) Trace).caught site =
      (.ok (site.newTrace s config name), { site with files := files }) := by
  unfold startTrace newTrace Attempt.caught
  cases config.resolvedTraceDirectory s with
  | str directory =>
      dsimp only
      rw [Attempt.bind_of_ok (Attempt.get_apply site)]
      cases Trace.start s.workingDirectory directory name site.files with
      | error f => exact ⟨site.files, rfl⟩
      | ok started => exact ⟨started.2, rfl⟩
  | _ => exact ⟨site.files, rfl⟩

/-- **A start comes to one of these.** -/
theorem start_starts (s : Surroundings) (config : Config ι) (name : Option Text) (command : Text)
    (site : Site η σ) :
    Starts s config name command site (start s config name command site).1
      (start s config name command site).2 := by
  cases hwords : command.words with
  | nil =>
      have hanswer : site.answer? command = none := by rw [answer?, if_pos hwords]
      have hhost : site.hostAfter command = site.host := by rw [hostAfter, if_pos hwords]
      have hstart : start s config name command site = (.error (.failed .emptyCommand), site) := by
        unfold start launch
        rw [hwords]
        rfl
      rw [hstart]
      exact .empty hanswer ⟨hhost.symm, (List.append_nil _).symm⟩
  | cons program arguments =>
      have hne : command.words ≠ [] := hwords ▸ List.cons_ne_nil _ _
      have hanswer : site.answer? command = some (Host.start command site.host).1 := if_neg hne
      have hhost : site.hostAfter command = (Host.start command site.host).2 := if_neg hne
      rcases hask : Host.start command site.host with ⟨outcome, host⟩
      rw [hask] at hanswer hhost
      unfold start launch
      rw [hwords]
      dsimp only
      simp only [Attempt.bind_apply, Attempt.get_apply, Attempt.set_apply, hask]
      cases outcome with
      | started processId peer =>
          by_cases htrace : config.trace = .off
          · have htraceOf : traceOf s config name command site = .ok none := if_pos htrace
            simp only [htrace, if_true]
            exact .started hanswer htraceOf ⟨hhost.symm, (List.append_nil _).symm⟩
          · have htraceOf : traceOf s config name command site =
                (site.newTrace s config (traceName name command)).map some := if_neg htrace
            obtain ⟨files, hcaught⟩ := startTrace_caught (ε := LaunchError) s config
              (traceName name command) { site with host := host }
            have hsame : ({ site with host := host } : Site η σ).newTrace s config
                (traceName name command) = site.newTrace s config (traceName name command) := rfl
            rw [hsame] at hcaught
            simp only [Attempt.pure_apply, htrace, if_false, Attempt.bind_of_ok hcaught]
            cases hnew : site.newTrace s config (traceName name command) with
            | error f =>
                rw [hnew] at htraceOf
                exact .untraced hanswer htraceOf ⟨hhost.symm, rfl⟩
            | ok trace =>
                rw [hnew] at htraceOf
                exact .started hanswer htraceOf ⟨hhost.symm, (List.append_nil _).symm⟩
      | unusable processId peer e => exact .unusable hanswer ⟨hhost.symm, rfl⟩
      | refused e => exact .refused hanswer ⟨hhost.symm, (List.append_nil _).symm⟩
      | impossible f => exact .impossible hanswer ⟨hhost.symm, (List.append_nil _).symm⟩

/-- **Starting, and what becomes of the server.**  There is a session if and only if a server was
launched and has its trace.  There is a fault if and only if the command cannot be handed to the
system, or a server was launched and cannot have its trace; and this last server is given up as it
runs, the only one that is not stopped. -/
theorem start_accounts (s : Surroundings) (config : Config ι) (name : Option Text) (command : Text)
    (site : Site η σ) :
    let answer := site.answer? command
    let launched := answer.bind StartOutcome.running?
    let result := (start s config name command site).1
    let site' := (start s config name command site).2
    result.toOption = (launched.bind fun server =>
        (site.traceOf s config name command).toOption.map (sessionOf s config server)) ∧
      Attempt.fault? result = (answer.bind StartOutcome.fault?).or
        (launched.bind fun _ => site.traceFault? s config name command) ∧
      site'.abandoned = site.abandoned ++ (answer.bind StartOutcome.stopped?).toList ++
        (launched.bind fun server =>
          (site.traceFault? s config name command).map fun _ => server).toList := by
  dsimp only
  have hstarts := start_starts s config name command site
  generalize (start s config name command site).1 = result at hstarts ⊢
  generalize (start s config name command site).2 = site' at hstarts ⊢
  unfold traceFault?
  cases hstarts with
  | empty hanswer hleft =>
      rw [hanswer]
      exact ⟨rfl, rfl, hleft.abandoned_eq.trans (List.append_nil _).symm⟩
  | refused hanswer hleft =>
      rw [hanswer, hleft.abandoned_eq]
      exact ⟨rfl, rfl, (List.append_nil _).symm⟩
  | unusable hanswer hleft =>
      rw [hanswer, hleft.abandoned_eq]
      exact ⟨rfl, rfl, (List.append_nil _).symm⟩
  | impossible hanswer hleft =>
      rw [hanswer, hleft.abandoned_eq]
      exact ⟨rfl, rfl, (List.append_nil _).symm⟩
  | untraced hanswer htrace hleft =>
      rw [hanswer, hleft.abandoned_eq, htrace]
      exact ⟨rfl, rfl, congrArg (· ++ _) (List.append_nil _).symm⟩
  | started hanswer htrace hleft =>
      rw [hanswer, hleft.abandoned_eq, htrace]
      exact ⟨rfl, rfl, (List.append_nil _).symm⟩

end Site

end LanguageClient
