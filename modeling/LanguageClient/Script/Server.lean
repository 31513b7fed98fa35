import LanguageClient.Frame.Buffer
import LanguageClient.Peer

/-!
# Scripted servers

A scripted server answers from a script: for every method, what it does at the
first message of that method, at the second, and so on.  It is a peer like any
other, so sessions can be rehearsed without a process, and every way in which a
server can misbehave can be written down.

What a client can rely on is not said here; it is said of every peer.  This file is
only a language in which particular peers are described.
-/

namespace LanguageClient

namespace Script

/-- How writes to the server end. -/
inductive InputMode where
  | ok
  | broken
  | failing
deriving DecidableEq

inductive Action where
  /-- Answers the message with a result. -/
  | reply (result : Json)
  /-- Answers the message with an error. -/
  | replyError (error : Json)
  /-- Writes the frame of a document. -/
  | send (document : Json)
  /-- Writes several frames at once. -/
  | batch (documents : List Json)
  /-- Writes one frame in pieces of so many bytes. -/
  | split (document : Json) (size : Nat)
  /-- Writes bytes. -/
  | raw (bytes : Bytes)
  /-- Makes the output look ready while there is nothing to read. -/
  | spurious
  /-- Closes the output. -/
  | endOutput
  /-- Ends the process. -/
  | exit
  /-- Sets how later writes to the server end. -/
  | input (mode : InputMode)
  /-- Makes reads of the output fail, or stops doing so. -/
  | badDescriptor (bad : Bool)
  /-- Interrupts the client's next wait. -/
  | interrupt

end Script

/-- What a server does at its start, and at the first, second, … message of a method. -/
structure Script where
  start : List Script.Action
  rules : List (Text × List (List Script.Action))

/-- A scripted server at some moment. -/
structure ScriptedServer where
  /-- What is left of the script. -/
  rules : List (Text × List (List Script.Action))
  /-- Output that has not been read, in pieces. -/
  queue : List Bytes
  /-- The output ends after the queue. -/
  ended : Bool
  exited : Bool
  inputMode : Script.InputMode
  badDescriptor : Bool
  interrupts : Bool
  /-- How often the client has stopped the server. -/
  terminations : Nat
  /-- The messages that have been written to the server, in order. -/
  received : List Json

namespace ScriptedServer

/-- Queues a piece of output, unless the output has ended. -/
def enqueue (s : ScriptedServer) (piece : Bytes) : ScriptedServer :=
  if s.ended then s else { s with queue := s.queue ++ [piece] }

/-- The pieces of a list, each of `size` elements but the last. -/
def piecesOf (size : Nat) (fuel : Nat) (bytes : Bytes) : List Bytes :=
  match fuel, bytes with
  | 0, _ => []
  | _, [] => []
  | fuel + 1, bytes => bytes.take size :: piecesOf size fuel (bytes.drop size)

def response (id : Json) (member : String) (v : Json) : Json :=
  Json.object [("jsonrpc", .ofString "2.0"), ("id", id), (member, v)]

/-- Does one thing, in answer to the message with an id. -/
def perform (id : Json) (s : ScriptedServer) : Script.Action → ScriptedServer
  | .reply v => s.enqueue (Frame.encode (response id "result" v))
  | .replyError v => s.enqueue (Frame.encode (response id "error" v))
  | .send v => s.enqueue (Frame.encode v)
  | .batch vs => s.enqueue (vs.flatMap Frame.encode)
  | .split v size =>
    let frame := Frame.encode v
    (piecesOf (max 1 size) frame.length frame).foldl enqueue s
  | .raw bytes => s.enqueue bytes
  | .spurious => s.enqueue []
  | .endOutput => { s with ended := true }
  | .exit => { s with ended := true, exited := true }
  | .input mode => { s with inputMode := mode }
  | .badDescriptor bad => { s with badDescriptor := bad }
  | .interrupt => { s with interrupts := true }

def performAll (id : Json) (s : ScriptedServer) (actions : List Script.Action) : ScriptedServer :=
  actions.foldl (perform id) s

/-- The server just after its start. -/
def start (script : Script) : ScriptedServer :=
  performAll .null ⟨script.rules, [], false, false, .ok, false, false, 0, []⟩ script.start

/-- Takes what the script says about the next message of a method. -/
def takeRule (method : Text) : List (Text × List (List Script.Action)) →
    List Script.Action × List (Text × List (List Script.Action))
  | [] => ([], [])
  | (name, turns) :: rest =>
    if name = method then
      match turns with
      | [] => ([], (name, []) :: rest)
      | turn :: turns => (turn, (name, turns) :: rest)
    else
      let (turn, rest) := takeRule method rest
      (turn, (name, turns) :: rest)

/-- Takes notice of a message and does what the script says. -/
def hear (s : ScriptedServer) (message : Json) : ScriptedServer :=
  let s := { s with received := s.received ++ [message] }
  match message.member? "method" with
  | some (.str method) =>
    let (turn, rules) := takeRule method s.rules
    performAll ((message.member? "id").getD .null) { s with rules := rules } turn
  | _ => s

/-- Takes notice of all messages in the bytes written. -/
def hearAll (fuel : Nat) (s : ScriptedServer) (bytes : Bytes) : ScriptedServer :=
  match fuel, Frame.front bytes with
  | fuel + 1, .body body rest =>
    match Frame.readBody body with
    | .ok message => hearAll fuel (s.hear (.obj message)) rest
    | .error (.notAnObject v) => hearAll fuel (s.hear v) rest
    | .error _ => hearAll fuel s rest
  | _, _ => s

/-- The client has stopped the server. -/
def isTerminated (s : ScriptedServer) : Bool := 0 < s.terminations

/-- Reads the first piece of the queue. -/
def read (limit : Nat) (s : ScriptedServer) : ReadOutcome × ScriptedServer :=
  if s.isTerminated then (.closed, s)
  else if s.badDescriptor then (.failed ⟨.badDescriptor, none⟩, s)
  else match s.queue with
    | [] => (if s.ended then .ended else .wouldBlock, s)
    | [] :: rest => (.wouldBlock, { s with queue := rest })
    | piece :: rest =>
      let kept := piece.drop limit
      (.data (piece.take limit),
        { s with queue := if kept.isEmpty then rest else kept :: rest })

/-- Waits for output; a wait takes no time. -/
def await (s : ScriptedServer) : Readiness × ScriptedServer :=
  if s.isTerminated then (.quiet, s)
  else if s.interrupts then (.interrupted, { s with interrupts := false })
  else if !s.queue.isEmpty || s.ended || s.badDescriptor then (.ready, s)
  else (.quiet, s)

def write (bytes : Bytes) (s : ScriptedServer) : WriteOutcome × ScriptedServer :=
  if s.isTerminated then (.closed, s)
  else if s.exited || s.inputMode = .broken then (.broken, s)
  else if s.inputMode = .failing then (.failed ⟨.inputOutput, none⟩, s)
  else (.accepted, hearAll bytes.length s bytes)

instance : Peer ScriptedServer where
  write := write
  await _ s := s.await
  read := read
  isRunning s := !s.exited && !s.isTerminated
  terminate s := { s with terminations := s.terminations + 1 }

end ScriptedServer

end LanguageClient
