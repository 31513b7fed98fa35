import LanguageClient.Protocol.Inbound
import LanguageClient.Protocol.Payload
import LanguageClient.Uri.File

/-!
# Messages of the server

A message is an object.  One with a method is a notification, or a request when it
also has an id; one without a method that has an id and a result or an error is a
response.  What a message holds is read into the structures of the protocol, and
what cannot be read is refused with a cause.
-/

namespace LanguageClient

inductive MessageKind where
  | response
  | request
  | notification
deriving DecidableEq

/-- The methods that the client knows. -/
inductive Method where
  | handshake
  | initialized
  | shutdown
  | showMessage
  | logMessage
  | didChangeConfiguration
  | didOpen
  | didChange
  | didClose
  | publishDiagnostics
  | hover
deriving DecidableEq

/-- How severe a message to the user is. -/
inductive MessageType where
  | error
  | warning
  | info
  | log
  | debug
deriving DecidableEq

namespace MessageKind

def name : MessageKind → Text
  | response => "response"
  | request => "request"
  | notification => "notification"

end MessageKind

namespace Method

/-- The name of a method on the wire. -/
def wireName : Method → Text
  | handshake => "initialize"
  | initialized => "initialized"
  | shutdown => "shutdown"
  | showMessage => "window/showMessage"
  | logMessage => "window/logMessage"
  | didChangeConfiguration => "workspace/didChangeConfiguration"
  | didOpen => "textDocument/didOpen"
  | didChange => "textDocument/didChange"
  | didClose => "textDocument/didClose"
  | publishDiagnostics => "textDocument/publishDiagnostics"
  | hover => "textDocument/hover"

def all : List Method :=
  [handshake, initialized, shutdown, showMessage, logMessage, didChangeConfiguration, didOpen,
    didChange, didClose, publishDiagnostics, hover]

/-- The method that a name on the wire stands for. -/
def ofWireName? (name : Text) : Option Method := all.find? (·.wireName = name)

end Method

namespace MessageType

/-- The number of a type on the wire. -/
def number : MessageType → Nat
  | error => 1
  | warning => 2
  | info => 3
  | log => 4
  | debug => 5

def all : List MessageType := [error, warning, info, log, debug]

def name : MessageType → Text
  | error => "ERROR"
  | warning => "WARN"
  | info => "INFO"
  | log => "LOG"
  | debug => "DEBUG"

end MessageType

/-- Why a message, or what it holds, is refused. -/
inductive MessageError where
  /-- The document is no message. -/
  | notAMessage (document : Json)
  /-- There is no method. -/
  | noMethod
  /-- The method is not one the client knows. -/
  | unknownMethod (name : Json)
  /-- The word is no verbosity. -/
  | unknownVerbosity
  /-- The response holds no error of the right shape. -/
  | notAnError (document : Json)
  /-- The answer to a shutdown is not `null`. -/
  | shutdownRefused (document : Json)
  /-- The response has no result. -/
  | noResult (document : Json)
  /-- The result is no hover. -/
  | badHover (error : DecodeError)
  /-- The notification has no parameters of the right shape. -/
  | badNotification
  /-- The parameters are no diagnostics. -/
  | badDiagnostics (error : DecodeError)
  /-- The number is no message type. -/
  | badMessageType
  /-- The diagnostics are not about a local file. -/
  | notALocalFile (refusal : Uri.Refusal)

/-- The wording of a missing member. -/
def MemberError.message : MemberError → Text
  | missing name => Quoted.text name
  | notAnObject => "not an object"

/-- The wording of a decoding error. -/
def DecodeError.message : DecodeError → Text
  | shape e => e.message
  | member e => e.message

def MessageError.message : MessageError → Text
  | notAMessage d => "Invalid message: " ++ d.shown
  | noMethod => "Invalid value"
  | unknownVerbosity => "Invalid value"
  | unknownMethod name => "Not supported: " ++ name.worded
  | notAnError d => "Invalid error: " ++ d.worded
  | shutdownRefused d => "Shutdown request failed: " ++ d.worded
  | noResult d => "Invalid response: " ++ d.worded
  | badHover e => "Invalid response: json to Hover failed " ++ e.message
  | badNotification => "Invalid notify"
  | badDiagnostics e => "Invalid notify: " ++ e.message
  | badMessageType => "Invalid value"
  | notALocalFile r => "Invalid uri: " ++ r.message

structure ServerMessage where
  type : MessageType
  message : Text

/-- All diagnostics that the server reports for one file. -/
structure Diagnostics where
  path : Text
  diagnostics : List Diagnostic

namespace Message

/-! ## Kinds and methods -/

def hasError (m : Members) : Bool := m.has "error"

/-- The members name a method by a text. -/
def namesMethod (members : Members) : Bool :=
  match Members.get? members "method" with
  | some (.str _) => true
  | _ => false

def classify (document : Json) : Except MessageError MessageKind :=
  match document with
  | .obj members =>
    let hasId := Members.has members "id"
    if namesMethod members && hasId then .ok .request
    else if namesMethod members then .ok .notification
    else if hasId && (Members.has members "result" || Members.has members "error") then .ok .response
    else .error (.notAMessage document)
  | _ => .error (.notAMessage document)

def method (document : Json) : Except MessageError Method :=
  match document.member? "method" with
  | none => .error .noMethod
  | some (.str name) =>
    match Method.ofWireName? name with
    | some m => .ok m
    | none => .error (.unknownMethod (.str name))
  | some name => .error (.unknownMethod name)

/-- The verbosity that a value names. -/
def verbosity (v : Json) : Except MessageError Verbosity :=
  match v with
  | .str name =>
    match Verbosity.ofWireName? name with
    | some w => .ok w
    | none => .error .unknownVerbosity
  | _ => .error .unknownVerbosity

/-- The message type that a number stands for; only integers do. -/
def messageType (v : Json) : Except MessageError MessageType :=
  match v with
  | .int n =>
    match MessageType.all.find? fun t => (t.number : Int) = n with
    | some t => .ok t
    | none => .error .badMessageType
  | _ => .error .badMessageType

/-! ## Responses -/

/-- The error that a response carries. -/
def error (document : Json) : Except MessageError ResponseError :=
  match document.member? "error" with
  | none => .error (.notAnError document)
  | some e =>
    match ResponseError.decode e with
    | .ok e => .ok e
    | .error _ => .error (.notAnError document)

/-- A shutdown is answered by the result `null` and no error. -/
def shutdownAnswer (m : Members) : Except MessageError Unit :=
  match m.get? "result" with
  | some .null => if hasError m then .error (.shutdownRefused (.obj m)) else .ok ()
  | _ => .error (.shutdownRefused (.obj m))

/-- The hover that a response carries; `null` means there is nothing to show. -/
def hoverAnswer (m : Members) : Except MessageError (Option Hover) :=
  match m.get? "result" with
  | none => .error (.noResult (.obj m))
  | some .null => .ok none
  | some v =>
    match Hover.decode v with
    | .ok h => .ok (some h)
    | .error e => .error (.badHover e)

/-! ## Notifications -/

/-- The message to the user that a notification carries. -/
def serverMessage (m : Members) : Except MessageError ServerMessage :=
  match m.get? "params" with
  | some (.obj params) =>
    match Members.get? params "type", Members.get? params "message" with
    | some (.int n), some (.str text) => do
      let type ← messageType (.int n)
      return ⟨type, text⟩
    | _, _ => .error .badNotification
  | _ => .error .badNotification

/-- The text of a member that the schema makes a string. -/
def textOf : Json → Text
  | .str t => t
  | _ => []

/-- The diagnostics that a notification carries; `none` when it has no list of them.  A text that
cannot be taken for a URI is an error of its own. -/
def diagnostics (m : Members) :
    Except Uri.Malformed (Except MessageError (Option Diagnostics)) :=
  match m.get? "params" with
  | some (.obj params) =>
    match PublishDiagnostics.decode (.obj params) with
    | .error e => .ok (.error (.badDiagnostics e))
    | .ok decoded =>
      match decoded.diagnostics with
      | none => .ok (.ok none)
      | some diagnostics => do
        match ← Uri.toPath (textOf decoded.uri) with
        | .ok path => return .ok (some ⟨path, diagnostics⟩)
        | .error r => return .error (.notALocalFile r)
  | _ => .ok (.error .badNotification)

end Message

end LanguageClient
