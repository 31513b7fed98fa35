import LanguageClient.Client.Handshake
import LanguageClient.Session

/-!
# The fleet

A fleet keeps at most one session for every language of a configuration.  A session is
started when it is first asked for.  A server that cannot be started, or that refuses
the first request, is remembered as a failure of its language, and is not tried again.

## Strategy

Every server that was ever launched is in one of three places: in the table of open
sessions, among the retired sessions, whose servers have been stopped, or among the
servers that the site has given up.  Operations only move servers between these
places, and nothing is ever removed from the last two.
-/

namespace LanguageClient

/-- Why there is no session for a language. -/
inductive FleetError where
  | disabled
  | noServer (language : Text)
  | noLanguage (path : Text)
  | launch (error : LaunchError)
  /-- The session could not be opened, or an operation on it failed. -/
  | client (error : ClientError)

def FleetError.message : FleetError → Text
  | disabled => "lsp: disabled"
  | noServer language => "lsp: no server configured for " ++ language
  | noLanguage path => "lsp: no language configured for " ++ path
  | launch e => e.message
  | client e => e.message

/-- The sessions of a configuration, by language. -/
structure Fleet (η σ : Type) where
  config : Config Text
  /-- The workspace that servers are told of. -/
  workspace : Text
  site : Site η σ
  /-- The open sessions, in the order in which they were opened. -/
  sessions : List (Text × Session σ)
  failures : List (Text × FleetError)
  /-- The sessions that have been closed. -/
  retired : List (Text × Session σ)

namespace Fleet

variable {η σ : Type}

def ofConfig (config : Config Text) (workspace : Text) (site : Site η σ) : Fleet η σ :=
  ⟨config, workspace, site, [], [], []⟩

/-! ## Tables -/

/-- The open session of a language. -/
def session? (fleet : Fleet η σ) (language : Text) : Option (Session σ) :=
  (fleet.sessions.find? (·.1 = language)).map (·.2)

/-- Why there is no session for a language, as far as that has been tried. -/
def failure? (fleet : Fleet η σ) (language : Text) : Option FleetError :=
  (fleet.failures.find? (·.1 = language)).map (·.2)

/-- The server that a language is configured with. -/
def server? (fleet : Fleet η σ) (language : Text) : Option LanguageServer :=
  (fleet.config.languages.find? (·.1 = language)).map (·.2)

def remark (level : Level) (text : Text) (fleet : Fleet η σ) : Fleet η σ :=
  { fleet with site := fleet.site.remark level text }

def adopt (language : Text) (session : Session σ) (fleet : Fleet η σ) : Fleet η σ :=
  { fleet with sessions := fleet.sessions ++ [(language, session)] }

/-- Puts a session in the place of the one that a language has. -/
def update (language : Text) (session : Session σ) (fleet : Fleet η σ) : Fleet η σ :=
  { fleet with
    sessions := fleet.sessions.map fun s => if s.1 = language then (language, session) else s }

/-- Takes the session of a language out of the table. -/
def drop (language : Text) (fleet : Fleet η σ) : Fleet η σ :=
  { fleet with sessions := fleet.sessions.filter (·.1 ≠ language) }

/-- Remembers why a language has no session. -/
def remember (language : Text) (e : FleetError) (fleet : Fleet η σ) : Fleet η σ :=
  { fleet with failures := fleet.failures ++ [(language, e)] }

/-- Gives up a session without stopping its server. -/
def abandon (session : Session σ) (fleet : Fleet η σ) : Fleet η σ :=
  { fleet with site := fleet.site.abandonSession session }

/-! ## Servers -/

/-- Every server that was ever launched, in the order of the process ids. -/
def servers (fleet : Fleet η σ) : List (Nat × σ) :=
  let owned := (fleet.sessions ++ fleet.retired).map fun s =>
    (s.2.client.processId, s.2.client.connection.peer)
  (owned ++ fleet.site.abandoned).mergeSort fun a b => a.1 ≤ b.1

/-- The fleet after its servers have done something of their own accord. -/
def mapServers (f : Nat → σ → σ) (fleet : Fleet η σ) : Fleet η σ :=
  let act (s : Text × Session σ) : Text × Session σ := (s.1, s.2.mapServer (f s.2.client.processId))
  { fleet with
    sessions := fleet.sessions.map act
    retired := fleet.retired.map act
    site := { fleet.site with abandoned := fleet.site.abandoned.map fun s => (s.1, f s.1 s.2) } }

variable [Peer σ]

/-! ## Closing -/

/-- Closes a session and keeps it among the retired ones. -/
def retire (language : Text) (session : Session σ) (fleet : Fleet η σ) : Fleet η σ :=
  { fleet with retired := fleet.retired ++ [(language, session.close)] }

def running (fleet : Fleet η σ) : List Text :=
  (fleet.sessions.filter (·.2.isRunning)).map (·.1)

/-! ## Sessions -/

/-- Runs an operation of a session at the fleet's site.  However the operation ends, the way it ended
and the session after it are the answer; the session is not put into the table. -/
def operate {α : Type} (s : Surroundings) (session : Session σ) (action : Operation σ α) :
    Attempt FleetError (Fleet η σ) (Except (Stop ClientError) α × Session σ) := fun fleet =>
  let (result, session, site) := session.run s action fleet.site
  (.ok (result, session), { fleet with site := site })

/-- Introduces the client to its server.  Where there is an obstacle to what follows a message, the first
request is written and no more. -/
def introduce (params : Payload) : (obstacle : Option Fault) → Operation σ Unit
  | none => do Client.handshake params; Client.confirm
  | some f => do Client.announce params; Attempt.fault f

/-- Opens a launched session: sends the first request and tells the server that it is open.  A session
that cannot be opened is retired. -/
def openSession (s : Surroundings) (language : Text) (session : Session σ) :
    Attempt FleetError (Fleet η σ) (Session σ) := do
  let fleet ← get
  let introduction :=
    { Introduction.standard s.processId with trace := .verbosity fleet.config.trace }
  match handshakeParams s fleet.workspace introduction with
  | .error e =>
    modify (abandon session)
    Attempt.fault (.notEncodable e)
  | .ok params =>
    let (result, session) ←
      operate s session (introduce params (session.trace.bind Trace.obstacle?))
    match result with
    | .ok () => return session
    | .error (.failed e) =>
      modify (retire language session)
      Attempt.fail (.client e)
    | .error (.faulted f) =>
      modify (abandon session)
      Attempt.fault f

/-- Launches the server of a language and opens a session with it. -/
def start [Host η σ] (s : Surroundings) (language command : Text) :
    Attempt FleetError (Fleet η σ) (Session σ) := do
  let fleet ← get
  let session ← Attempt.onPart Fleet.site (fun site fleet => { fleet with site := site })
    ((Site.start s fleet.config (some language) command).mapError .launch)
  openSession s language session

/-- Retires the session of a language whose server has ended. -/
def retireEnded (language : Text) (fleet : Fleet η σ) : Fleet η σ :=
  match fleet.session? language with
  | none => fleet
  | some session =>
    if session.isRunning then fleet
    else
      ((fleet.remark .warning
        ("Language server for " ++ language ++ Text.ofString " is no longer running")).drop
          language).retire language session

/-- The open session of a language, which is started if need be. -/
def sessionFor [Host η σ] (s : Surroundings) (language : Text) :
    Attempt FleetError (Fleet η σ) (Session σ) := do
  if !(← get).config.enable then Attempt.fail .disabled
  modify (retireEnded language)
  let fleet ← get
  if let some session := fleet.session? language then return session
  if let some e := fleet.failure? language then Attempt.fail e
  let some server := fleet.server? language | Attempt.fail (.noServer language)
  match ← (start s language server.command).outcome with
  | .ok session =>
    modify (adopt language session)
    return session
  | .error e =>
    modify (remark .error
      ("LSP unavailable for " ++ language ++ Text.ofString ": " ++ e.message))
    modify (remember language e)
    Attempt.fail e

/-- The open session of the language that a file is in. -/
def sessionForPath [Host η σ] (s : Surroundings) (path : Text) :
    Attempt FleetError (Fleet η σ) (Session σ) := do
  match (← get).config.languageFor? path with
  | none => Attempt.fail (.noLanguage path)
  | some language => sessionFor s language

/-- Runs an operation of the open session of a language. -/
def perform {α : Type} (s : Surroundings) (language : Text) (action : Operation σ α) :
    Attempt FleetError (Fleet η σ) α := do
  let some session := (← get).session? language | Attempt.fail (.noServer language)
  let (result, session) ← operate s session action
  modify (update language session)
  Attempt.ofExcept (fun stop => match stop with
    | .failed e => .failed (.client e)
    | .faulted f => .faulted f) result

/-! ## All sessions -/

/-- Polls the sessions of some languages.  What has nothing to say is left out. -/
def pollEach (s : Surroundings) : List Text →
    Attempt FleetError (Fleet η σ) (List (Text × Except FleetError ServerEvent))
  | [] => return []
  | language :: languages => do
    let outcome ← (perform s language Client.poll).outcome
    let rest ← pollEach s languages
    match outcome with
    | .ok none => return rest
    | .ok (some event) => return (language, .ok event) :: rest
    | .error e => return (language, .error e) :: rest

def pollAll (s : Surroundings) :
    Attempt FleetError (Fleet η σ) (List (Text × Except FleetError ServerEvent)) := do
  pollEach s ((← get).sessions.map (·.1))

/-- Shuts down and retires sessions that have been taken out of the table.  A fault leaves the servers
that are left as they are. -/
def closeEach (s : Surroundings) : List (Text × Session σ) → Attempt FleetError (Fleet η σ) Unit
  | [] => return
  | (language, session) :: rest => do
    if !session.isRunning then
      modify (retire language session)
      closeEach s rest
    else
      let (result, session) ← operate s session Client.shutdown
      match result with
      | .ok () =>
        modify (retire language session)
        closeEach s rest
      | .error (.failed e) =>
        modify (remark .warning
          ("Shutdown of " ++ language ++ Text.ofString " server failed: " ++ e.message))
        modify (retire language session)
        closeEach s rest
      | .error (.faulted f) =>
        modify fun fleet => (session :: rest.map (·.2)).foldl (fun fleet s => fleet.abandon s) fleet
        Attempt.fault f

/-- Shuts every server down and stops it. -/
def closeAll (s : Surroundings) : Attempt FleetError (Fleet η σ) Unit := do
  let sessions := (← get).sessions
  modify fun fleet => { fleet with sessions := [] }
  closeEach s sessions

end Fleet

end LanguageClient
