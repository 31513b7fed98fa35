import LanguageClient.Protocol.HoverText
import LanguageClient.Protocol.Record
import LanguageClient.Rpc.Exchange
import LanguageClient.Surroundings

/-!
# The client of one server

A client owns one server process.  Its session goes through the phases
`uninitialized`, `initializing`, `initialized`, `shuttingDown` and `closed`, and
every operation says in which of them it is allowed.  Failures are values that name
their cause; nothing is written when an operation is refused.
-/

namespace LanguageClient

inductive Phase where
  | uninitialized
  | initializing
  | initialized
  | shuttingDown
  | closed
deriving DecidableEq

namespace Phase

def name : Phase → Text
  | uninitialized => "uninitialized"
  | initializing => "initializing"
  | initialized => "initialized"
  | shuttingDown => "shutting_down"
  | closed => "closed"

end Phase

/-- The client of one server process. -/
structure Client (σ : Type) where
  connection : Connection σ
  processId : Nat
  /-- Relative paths of documents are seen from here. -/
  workingDirectory : Text
  /-- Poll cycles made for one response, at least one. -/
  cycles : Nat
  /-- The id of the next request. -/
  nextId : Nat
  phase : Phase
  /-- The server has been told that the session is open, and it is not closed. -/
  isInitialized : Bool
  /-- The server answers hover requests. -/
  offersHover : Bool
  serverInfo : Option ServerInfo

/-- Why a request gets no usable answer. -/
inductive Cause where
  /-- The exchange with the server failed. -/
  | exchange (error : RpcError)
  /-- The server answered with an error. -/
  | refused (error : ResponseError)
  /-- The server answered with something in the place of an error. -/
  | garbled (error : MessageError)
  /-- The result of the first request cannot be decoded. -/
  | badResult (error : DecodeError)
  /-- The result cannot be used. -/
  | badAnswer (error : MessageError)
  /-- The session is in the wrong phase. -/
  | phase (phase : Phase)

/-- How an operation of a client fails. -/
inductive ClientError where
  | crashed
  | closed
  | notInitialized (method : Text)
  | hoverUnavailable
  | handshake (cause : Cause)
  | confirmation (cause : Cause)
  | shutdown (cause : Cause)
  | hover (cause : Cause)
  | notification (method : Text) (error : RpcError)
  /-- Reading the next message failed. -/
  | exchange (error : RpcError)
  /-- What was read is no message. -/
  | notAMessage (error : MessageError)
  /-- The method of what was read is not known. -/
  | badMethod (error : MessageError)
  | serverRequest (method : Method)
  | badNotification (method : Method) (error : MessageError)

def Cause.message : Cause → Text
  | exchange e => e.message
  | refused e => e.text
  | garbled e => e.message
  | badResult e => "json to InitializeResult failed " ++ e.message
  | badAnswer e => e.message
  | phase p => "client is " ++ p.name

def ClientError.message : ClientError → Text
  | crashed => "lsp: server crashed"
  | closed => "lsp: client closed"
  | notInitialized method => "lsp: " ++ method ++ ": client not initialized"
  | hoverUnavailable => "lsp: textDocument/hover unavailable"
  | handshake c => "lsp: Initialize request failed: " ++ c.message
  | confirmation c => "lsp: initialized notification failed: " ++ c.message
  | shutdown (.badAnswer e) => "lsp: " ++ e.message
  | shutdown c => "lsp: Shutdown request failed: " ++ c.message
  | hover c => "lsp: textDocument/hover request failed: " ++ c.message
  | notification method e => "lsp: " ++ method ++ " notification failed: " ++ e.message
  | exchange e => e.message
  | notAMessage e => e.message
  | badMethod e => "lsp: " ++ e.message
  | serverRequest m => "lsp: Not supported: server request " ++ m.wireName
  | badNotification m e => "lsp: " ++ m.wireName ++ ": " ++ e.message

inductive EventValue where
  | message (m : ServerMessage)
  /-- `none` when the server sent no list of diagnostics. -/
  | diagnostics (d : Option Diagnostics)
  /-- The parameters of a method that is not read further. -/
  | other (params : Json)

/-- A notification of the server.  `path` names the file that diagnostics are about. -/
structure ServerEvent where
  method : Method
  value : EventValue
  path : Option Text

abbrev Operation (σ α : Type) := Attempt ClientError (Client σ) α

namespace Client

variable {σ : Type}

/-- The client of a server process that has just been started. -/
def attach (peer : σ) (processId : Nat) (workingDirectory : Text) (pollTimeout : Binary64)
    (cycles : Int) : Client σ where
  connection := Connection.attach peer pollTimeout
  processId := processId
  workingDirectory := workingDirectory
  cycles := (max 1 cycles).toNat
  nextId := 1
  phase := .uninitialized
  isInitialized := false
  offersHover := false
  serverInfo := none

/-- An exchange on the client's connection; its failure is a value. -/
def exchange {α : Type} (action : Exchange σ α) : Operation σ (Except RpcError α) :=
  Attempt.onPart Client.connection (fun c s => { s with connection := c }) action.outcome

/-- Appends a remark to the journal. -/
def remark (level : Level) (text : Text) : Operation σ Unit :=
  modify fun c => { c with connection :=
    { c.connection with journal := c.connection.journal ++ [.remark level text] } }

/-- What has happened since the journal was last taken, and the client with an empty journal. -/
def takeJournal (c : Client σ) : Journal × Client σ :=
  (c.connection.journal, { c with connection := { c.connection with journal := [] } })

/-- Takes an id for a request. -/
def takeId : Operation σ Nat := do
  let c ← get
  set { c with nextId := c.nextId + 1 }
  return c.nextId

variable [Peer σ]

/-- The server process has not ended. -/
def isRunning (c : Client σ) : Bool := Peer.isRunning c.connection.peer

/-- Documents and requests are allowed: the server runs and the session is open. -/
def checkReady (method : Text) : Operation σ Unit := do
  let c ← get
  if !c.isRunning then Attempt.fail .crashed
  if c.phase ≠ .initialized then Attempt.fail (.notInitialized method)

/-- Writes a request and waits for its response.  The request is written once; only the wait is
repeated. -/
def request (method : Method) (params : Json) : Operation σ (Except RpcError Members) := do
  let id ← takeId
  let c ← get
  let response ← exchange (Connection.callRepeatedly c.cycles (.int id) method.wireName params)
  if let .error e := response then
    remark .error (method.wireName ++ " request (id=" ++ Text.ofNat id ++ ") failed: " ++ e.message)
  return response

/-- The response to a request, unless the exchange failed or the server answered with an error. -/
def accepted (response : Except RpcError Members) : Except Cause Members :=
  match response with
  | .error e => .error (.exchange e)
  | .ok m =>
    if Message.hasError m then
      match Message.error (.obj m) with
      | .ok e => .error (.refused e)
      | .error e => .error (.garbled e)
    else .ok m

/-! ## Lifecycle -/

/-- The first request.  It may be repeated until the session is open. -/
def handshake (params : Payload) : Operation σ Unit := do
  let c ← get
  if c.phase ≠ .uninitialized ∧ c.phase ≠ .initializing then
    Attempt.fail (.handshake (.phase c.phase))
  set { c with phase := .initializing }
  match accepted (← request .handshake params.encode) with
  | .error cause => Attempt.fail (.handshake cause)
  | .ok m =>
    match InitializeResult.decode ((m.get? "result").getD .null) with
    | .error e => Attempt.fail (.handshake (.badResult e))
    | .ok r =>
      let offersHover := match r.capabilities.hoverProvider with
        | some (.bool true) => true
        | _ => false
      modify fun c => { c with offersHover := offersHover, serverInfo := r.serverInfo }
      if r.capabilities.all.isEmpty then remark .warning "Server returned no capabilities"

/-- Writes the first request, and does not wait for the response. -/
def announce (params : Payload) : Operation σ Unit := do
  let c ← get
  if c.phase ≠ .uninitialized ∧ c.phase ≠ .initializing then
    Attempt.fail (.handshake (.phase c.phase))
  set { c with phase := .initializing }
  let id ← takeId
  if let .error e := ← exchange (Connection.request (.int id) Method.handshake.wireName params.encode)
    then
    remark .error (Method.handshake.wireName ++ " request (id=" ++ Text.ofNat id ++ ") failed: " ++
      e.message)
    Attempt.fail (.handshake (.exchange e))

/-- Tells the server that the session is open. -/
def confirm : Operation σ Unit := do
  let c ← get
  if !c.isRunning then Attempt.fail .crashed
  if c.phase ≠ .initializing then Attempt.fail (.confirmation (.phase c.phase))
  match ← exchange (Connection.notify Method.initialized.wireName
      (Layout.initializedParams.build []).encode) with
  | .error e => Attempt.fail (.confirmation (.exchange e))
  | .ok () => modify fun c => { c with isInitialized := true, phase := .initialized }

/-- Asks the server to get ready to end.  When that fails the session stays open. -/
def shutdown : Operation σ Unit := do
  checkReady Method.shutdown.wireName
  match accepted (← request .shutdown .null) with
  | .error cause => Attempt.fail (.shutdown cause)
  | .ok m =>
    match Message.shutdownAnswer m with
    | .error e => Attempt.fail (.shutdown (.badAnswer e))
    | .ok () => modify fun c => { c with phase := .shuttingDown }

/-- Stops the server process.  Nothing is allowed afterwards; closing again does nothing. -/
def close (c : Client σ) : Client σ :=
  if c.phase = .closed then c
  else { c with
    connection := { c.connection with peer := Peer.terminate c.connection.peer }
    isInitialized := false
    phase := .closed }

/-! ## Notifications -/

/-- Writes a notification, if the session is open. -/
def notify (method : Method) (params : Payload) : Operation σ Unit := do
  checkReady method.wireName
  match ← exchange (Connection.notify method.wireName params.encode) with
  | .error e => Attempt.fail (.notification method.wireName e)
  | .ok () => return

/-- The URI by which the server knows a document. -/
def documentUri (path : Text) : Operation σ Payload := do
  let c ← get
  let uri ← Attempt.ofExcept (fun e => .faulted (.notEncodable e))
    (Uri.ofPath (Path.absolute c.workingDirectory path))
  return .text uri

/-- Tells the server of changed settings. -/
def changeConfiguration (settings : Payload) : Operation σ Unit :=
  notify .didChangeConfiguration (Layout.configurationParams.build [("settings", settings)])

/-- Tells the server that a document is open in the editor. -/
def openDocument (path : Text) (language text : Payload) : Operation σ Unit := do
  let uri ← documentUri path
  let item := Layout.documentItem.build
    [("uri", uri), ("language_id", language), ("version", .int 1), ("text", text)]
  notify .didOpen (Layout.openParams.build [("text_document", item)])

/-- Tells the server the new text of a document. -/
def changeDocument (version : Payload) (path : Text) (text : Payload) : Operation σ Unit := do
  let uri ← documentUri path
  let document := Layout.versionedIdentifier.build [("uri", uri), ("version", version)]
  notify .didChange (Layout.changeParams.build
    [("text_document", document),
      ("content_changes", .list [Layout.contentChange.build [("text", text)]])])

/-- Tells the server that a document is no longer open. -/
def closeDocument (path : Text) : Operation σ Unit := do
  let uri ← documentUri path
  notify .didClose (Layout.closeParams.build
    [("text_document", Layout.documentIdentifier.build [("uri", uri)])])

/-! ## Requests -/

/-- Asks what there is to say about a place; nothing means that there is nothing to show. -/
def hover (path : Text) (place : BufferPosition) : Operation σ (Option Hover) := do
  let c ← get
  if !c.isRunning then Attempt.fail .crashed
  if !c.offersHover then Attempt.fail .hoverUnavailable
  checkReady Method.hover.wireName
  let uri ← documentUri path
  let position := place.toPosition
  let params := Layout.hoverParams.build
    [("text_document", Layout.documentIdentifier.build [("uri", uri)]),
      ("position", Layout.position.build
        [("line", .ofJson position.line), ("character", .ofJson position.character)])]
  match accepted (← request .hover params.encode) with
  | .error cause => Attempt.fail (.hover cause)
  | .ok m =>
    match Message.hoverAnswer m with
    | .error e => Attempt.fail (.hover (.badAnswer e))
    | .ok h => return h

/-! ## Inbound messages -/

/-- The level at which a message of the server is logged. -/
def levelOf : MessageType → Level
  | .error => .error
  | .warning => .warning
  | .info => .info
  | .log | .debug => .debug

/-- The path that the parameters of a diagnostics notification are about, if it is a local file. -/
def subjectOf (m : Members) : Except Uri.Malformed (Option Text) := do
  let uri := (m.get? "params").bind (·.member? "uri")
  match ← Uri.toPath (Message.textOf (uri.getD .null)) with
  | .ok path => return some path
  | .error _ => return none

/-- The event that a notification of a known method is. -/
def event (method : Method) (m : Members) : Operation σ ServerEvent := do
  match method with
  | .showMessage =>
    match Message.serverMessage m with
    | .error e => Attempt.fail (.badNotification method e)
    | .ok message => return ⟨method, .message message, none⟩
  | .logMessage =>
    match Message.serverMessage m with
    | .error e => Attempt.fail (.badNotification method e)
    | .ok message =>
      remark (levelOf message.type) ("[LSP Server] " ++ message.message)
      return ⟨method, .message message, none⟩
  | .publishDiagnostics =>
    match ← Attempt.ofExcept (fun e => .faulted (.malformedUri e)) (Message.diagnostics m) with
    | .error e => Attempt.fail (.badNotification method e)
    | .ok diagnostics =>
      let path ← Attempt.ofExcept (fun e => .faulted (.malformedUri e)) (subjectOf m)
      return ⟨method, .diagnostics diagnostics, path⟩
  | _ => return ⟨method, .other ((m.get? "params").getD .null), none⟩

/-- The event that a message is.  Requests of the server and unknown methods are refused. -/
def interpret (m : Members) : Operation σ ServerEvent := do
  let kind ← Attempt.ofExcept (fun e => .failed (.notAMessage e)) (Message.classify (.obj m))
  let method ← Attempt.ofExcept (fun e => .failed (.badMethod e)) (Message.method (.obj m))
  if kind = .request then Attempt.fail (.serverRequest method)
  event method m

/-- The next event, after at most one wait.  What was written before the server ended is still
delivered. -/
def poll : Operation σ (Option ServerEvent) := do
  let c ← get
  if c.phase = .closed then Attempt.fail .closed
  match ← exchange Connection.next with
  | .ok (some m) => return some (← interpret m)
  | .ok none =>
    if !(← get).isRunning then Attempt.fail .crashed
    return none
  | .error e =>
    if !(← get).isRunning then Attempt.fail .crashed
    Attempt.fail (.exchange e)

end Client

end LanguageClient
