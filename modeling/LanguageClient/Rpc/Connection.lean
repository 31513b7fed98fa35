import LanguageClient.Fault
import LanguageClient.Frame.Buffer
import LanguageClient.Journal
import LanguageClient.Peer

/-!
# Connections

A connection writes messages to a server as frames and reads the server's frames
from an output that never blocks.  Bytes beyond the message just read stay in the
buffer; one read of the output is made only when no frame is complete.
-/

namespace LanguageClient

/-- The connection to a server: what has been read and not used, what has happened. -/
structure Connection (σ : Type) where
  peer : σ
  /-- The longest wait for output, in seconds. -/
  pollTimeout : Binary64
  /-- Output that belongs to no message taken yet. -/
  buffer : Bytes
  /-- Notifications and requests of the server that nobody has asked for yet. -/
  inbox : List Members
  journal : Journal

/-- Why a message could not be written. -/
inductive WriteError where
  | brokenPipe
  | system (error : SystemError)
  | closed
deriving DecidableEq

/-- Why the output could not be read. -/
inductive OutputError where
  | system (error : SystemError)
  | closed
deriving DecidableEq

/-- Why a body is no JSON. -/
inductive BodyFlaw where
  | notUtf8 (error : Utf8.DecodeError)
  | notJson (flaw : Json.Flaw) (line column offset : Nat)
deriving DecidableEq

/-- How an exchange with a server fails. -/
inductive RpcError where
  | unsent (method : Text) (cause : WriteError)
  | unreadable (cause : OutputError)
  /-- The server has closed its output. -/
  | streamClosed
  /-- The output holds no complete message yet. -/
  | wouldBlock
  | invalidFrame (error : Frame.MissingLength)
  | invalidJson (flaw : BodyFlaw)
  | notAnObject (document : Json)
  /-- Nothing arrived within the wait. -/
  | timeout
  /-- Something else than a response arrived. -/
  | noResponse
  /-- A response to another request arrived. -/
  | unsolicited (id : Json)

/-- The wording of a failed write. -/
def WriteError.message : WriteError → Text
  | brokenPipe => "broken pipe"
  | system e => e.message
  | closed => "write to closed file"

/-- The wording of a failed read. -/
def OutputError.message : OutputError → Text
  | system e => e.message
  | closed => "I/O operation on closed file"

def BodyFlaw.message : BodyFlaw → Text
  | notUtf8 e => e.message
  | notJson flaw line column offset => (Json.ParseError.malformed flaw line column offset).message

namespace RpcError

def message : RpcError → Text
  | unsent method cause => "Failed to send " ++ method ++ ": " ++ cause.message
  | unreadable cause => "Failed to read server output: " ++ cause.message
  | streamClosed => "stream closed"
  | wouldBlock => "would block"
  | invalidFrame e => "Invalid frame: " ++ e.message
  | invalidJson flaw => "Invalid JSON: " ++ flaw.message
  | notAnObject d => "Invalid message: " ++ d.shown
  | timeout => "timeout"
  | noResponse => "no response"
  | unsolicited id => "unsolicited response: id " ++ id.worded

/-- Asking again may still give the awaited response. -/
def isRetryable : RpcError → Bool
  | wouldBlock | timeout | noResponse | unsolicited _ => true
  | _ => false

/-- The texts of the failures after which asking again may help: three whole ones, and the start of
the fourth. -/
def isRetryableText (t : Text) : Bool :=
  [Text.ofString "would block", Text.ofString "timeout", Text.ofString "no response"].contains t ||
    (Cut.after? (Text.ofString "unsolicited response") t).isSome

end RpcError

abbrev Exchange (σ α : Type) := Attempt RpcError (Connection σ) α

namespace Connection

variable {σ : Type}

/-- A connection on which nothing has happened. -/
def attach (peer : σ) (pollTimeout : Binary64) : Connection σ := ⟨peer, pollTimeout, [], [], []⟩

def note (entry : Entry) : Exchange σ Unit :=
  modify fun c => { c with journal := c.journal ++ [entry] }

/-- Appends a remark for the log. -/
def remark (level : Level) (text : Text) : Exchange σ Unit := note (.remark level text)

variable [Peer σ]

/-! ## Writing -/

/-- Writes a message with a method. -/
def send (method : Text) (message : Members) : Exchange σ Unit := do
  let c ← get
  let (outcome, peer) := Peer.write (Frame.encode (.obj message)) c.peer
  set { c with peer := peer }
  match outcome with
  | .accepted => note (.traffic .send message)
  | .broken =>
    remark .error "Broken pipe while sending message - server may have exited"
    Attempt.fail (.unsent method .brokenPipe)
  | .failed e =>
    remark .error ("Error while sending message: " ++ e.message)
    Attempt.fail (.unsent method (.system e))
  | .closed =>
    remark .error ("Error while sending message: " ++ WriteError.closed.message)
    Attempt.fail (.unsent method .closed)

/-- The members of an outgoing message: version, id, method and parameters, as far as there are any. -/
def outgoing (id : Option Json) (method : Text) (params : Json) : Members :=
  [(Text.ofString "jsonrpc", Json.ofString "2.0")] ++
    (match id with
      | some id => [(Text.ofString "id", id)]
      | none => []) ++
    [(Text.ofString "method", Json.str method)] ++
    (if params.isNull then [] else [(Text.ofString "params", params)])

def request (id : Json) (method : Text) (params : Json) : Exchange σ Unit :=
  send method (outgoing (some id) method params)

def notify (method : Text) (params : Json) : Exchange σ Unit :=
  send method (outgoing none method params)

/-! ## Reading -/

/-- Takes the body of the next frame out of the buffer, if it is complete.  A bad header is dropped. -/
def takeBody : Exchange σ (Option Bytes) := do
  let c ← get
  match Frame.front c.buffer with
  | .incomplete => return none
  | .malformed e rest =>
    set { c with buffer := rest }
    remark .error e.message
    Attempt.fail (.invalidFrame e)
  | .body body rest =>
    set { c with buffer := rest }
    return some body

/-- The most that is read at once. -/
def readLimit : Nat := 65536

def fill : Exchange σ Unit := do
  let c ← get
  let (outcome, peer) := Peer.read readLimit c.peer
  set { c with peer := peer }
  match outcome with
  | .data bytes => modify fun c => { c with buffer := c.buffer ++ bytes }
  | .wouldBlock => Attempt.fail .wouldBlock
  | .ended => Attempt.fail .streamClosed
  | .failed e => Attempt.fail (.unreadable (.system e))
  | .closed => Attempt.fail (.unreadable .closed)

/-- Takes the body of the next frame, reading the output once if none is complete. -/
def nextBody : Exchange σ Bytes := do
  match ← takeBody with
  | some body => return body
  | none =>
    fill
    match ← takeBody with
    | some body => return body
    | none => Attempt.fail .wouldBlock

/-- The log shows the start of a body that is no message. -/
def remarkBody (body : Bytes) : Exchange σ Unit :=
  remark .error ("Invalid JSON in message content: " ++ Quoted.bytes (body.take 100) ++ "...")

def readNext : Exchange σ Members := do
  let body ← nextBody
  match Frame.readBody body with
  | .ok message =>
    note (.traffic .receive message)
    return message
  | .error (.notUtf8 e) =>
    remarkBody body
    Attempt.fail (.invalidJson (.notUtf8 e))
  | .error (.notJson (.malformed flaw line column offset)) =>
    remarkBody body
    Attempt.fail (.invalidJson (.notJson flaw line column offset))
  | .error (.notJson (.tooManyDigits n)) => Attempt.fault (.tooManyDigits n)
  | .error (.notAnObject d) => Attempt.fail (.notAnObject d)

end Connection

end LanguageClient
