import LanguageClient.Client.Basic
import LanguageClient.Config.Basic
import LanguageClient.Host
import LanguageClient.Trace

/-!
# Sessions

A session is a client together with the trace of its traffic.  Starting one launches
the server, and then makes the directory of the trace; where that fails the server has
been launched all the same, and nobody owns it.

Everything that operations on servers change besides the servers themselves is the
site: the host, the files, the journal, and the servers that nobody owns.
-/

namespace LanguageClient

structure Site (η σ : Type) where
  host : η
  files : Files
  journal : Journal
  /-- Servers that were launched and belong to no client, by their process ids. -/
  abandoned : List (Nat × σ)

/-- A client and the trace of its traffic. -/
structure Session (σ : Type) where
  client : Client σ
  trace : Option Trace

namespace Site

variable {η σ : Type}

def remark (level : Level) (text : Text) (site : Site η σ) : Site η σ :=
  { site with journal := site.journal ++ [.remark level text] }

/-- Gives up a server as it is. -/
def abandon (processId : Nat) (peer : σ) (site : Site η σ) : Site η σ :=
  { site with abandoned := site.abandoned ++ [(processId, peer)] }

/-- Gives up a session without stopping its server. -/
def abandonSession (session : Session σ) (site : Site η σ) : Site η σ :=
  site.abandon session.client.processId session.client.connection.peer

/-! ## Starting -/

/-- Launches the server of a command.  A server that cannot be used is stopped at once. -/
def launch [Peer σ] [Host η σ] (command : Text) : Attempt LaunchError (Site η σ) (Nat × σ) := do
  match command.words with
  | [] => Attempt.fail .emptyCommand
  | program :: _ =>
    let site ← get
    let (outcome, host) := Host.start command site.host
    set { site with host := host }
    match outcome with
    | .started processId peer => return (processId, peer)
    | .unusable processId peer e =>
      modify (remark .error ("Failed to make server output non-blocking: " ++ e.message))
      modify (abandon processId (Peer.terminate peer))
      Attempt.fail (.blocking e)
    | .refused e =>
      modify (remark .error
        ("Failed to start language server " ++ program ++ Text.ofString ": " ++ e.message))
      Attempt.fail (.refused e)
    | .impossible f => Attempt.fault f

/-- The trace that a configuration asks for, in a directory that has to be a path. -/
def startTrace {ι ε : Type} (s : Surroundings) (config : Config ι) (name : Text) :
    Attempt ε (Site η σ) Trace := do
  match config.resolvedTraceDirectory s with
  | .str directory =>
    let site ← get
    let (trace, files) ← Attempt.ofExcept .faulted
      (Trace.start s.workingDirectory directory name site.files)
    set { site with files := files }
    return trace
  | _ => Attempt.fault .wrongKind

/-- The name of a trace: the given one, or that of the program. -/
def traceName (given : Option Text) (command : Text) : Text :=
  match given with
  | none | some [] => Path.baseName (command.words.headD [])
  | some name => name

/-- Launches a server and attaches a client to it.  Where the trace cannot be started, the server is
given up as it runs. -/
def start {ι : Type} [Peer σ] [Host η σ] (s : Surroundings) (config : Config ι) (name : Option Text)
    (command : Text) : Attempt LaunchError (Site η σ) (Session σ) := do
  let (processId, peer) ← launch command
  let client := Client.attach peer processId s.workingDirectory config.pollTimeout config.cycles
  if config.trace = .off then return ⟨client, none⟩
  match ← (startTrace s config (traceName name command)).caught with
  | .ok trace => return ⟨client, some trace⟩
  | .error f =>
    modify (abandon processId peer)
    Attempt.fault f

end Site

namespace Session

variable {η σ : Type}

/-- The server process has not ended. -/
def isRunning [Peer σ] (session : Session σ) : Bool := session.client.isRunning

/-- The session after its server has done something of its own accord. -/
def mapServer (f : σ → σ) (session : Session σ) : Session σ :=
  let connection := session.client.connection
  { session with
    client := { session.client with connection := { connection with peer := f connection.peer } } }

def close [Peer σ] (session : Session σ) : Session σ :=
  { session with client := session.client.close }

/-- Hands the journal of the client over to the site, and the traffic in it to the trace. -/
def settle (s : Surroundings) (session : Session σ) (site : Site η σ) : Session σ × Site η σ :=
  let (journal, client) := session.client.takeJournal
  match session.trace with
  | none => (⟨client, none⟩, { site with journal := site.journal ++ journal })
  | some trace =>
    let (trace, files, journal) := trace.follow s site.files journal
    (⟨client, some trace⟩, { site with files := files, journal := site.journal ++ journal })

/-- Runs an operation of the client.  The session and the site go on however it ends. -/
def run {α : Type} (s : Surroundings) (action : Operation σ α) (session : Session σ)
    (site : Site η σ) : Except (Stop ClientError) α × Session σ × Site η σ :=
  let (result, client) := action session.client
  (result, settle s { session with client := client } site)

end Session

end LanguageClient
