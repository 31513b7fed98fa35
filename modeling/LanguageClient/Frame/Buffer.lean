import LanguageClient.Frame.Header
import LanguageClient.Json.Parser
import LanguageClient.Json.Printer

/-!
# Frames in a byte stream

Output arrives in pieces of any size.  The bytes that have arrived and have not
been taken yet are the buffer, and everything that can be said about the next
frame is a function of the buffer alone: it is not complete yet, its header is
bad, or its body is there.

A bad header is dropped together with its empty line, so that reading can go on
behind it.
-/

namespace LanguageClient.Frame

/-- The frame of a message: its length, an empty line, and the message in ASCII. -/
def encode (message : Json) : Bytes :=
  let body := Utf8.ofChars message.render
  Utf8.ofChars ("Content-Length: ".toList ++ Nat.toDigits 10 body.length) ++ separator ++ body

/-- What stands at the start of a buffer. -/
inductive Front where
  /-- The header or the body has not arrived in full. -/
  | incomplete
  /-- The header gives no length; `rest` is what follows it. -/
  | malformed (error : MissingLength) (rest : Bytes)
  /-- A complete frame and what follows it. -/
  | body (bytes rest : Bytes)

/-- Looks at the start of a buffer. -/
def front (buffer : Bytes) : Front :=
  match Cut.first? separator buffer with
  | none => .incomplete
  | some (header, rest) =>
    match contentLength header with
    | .error e => .malformed e rest
    | .ok n => if rest.length < n then .incomplete else .body (rest.take n) (rest.drop n)

/-- A frame, or a bad header, can be taken without waiting for more output.  This looks at the buffer
on its own, and takes nothing apart. -/
def isReady (buffer : Bytes) : Bool :=
  match Cut.first? separator buffer with
  | none => false
  | some (header, rest) =>
    match contentLength header with
    -- a bad header is reported by the next read
    | .error _ => true
    | .ok n => n ≤ rest.length

/-! ## Bodies -/

/-- Why the body of a frame is no message. -/
inductive BodyError where
  | notUtf8 (error : Utf8.DecodeError)
  | notJson (error : Json.ParseError)
  | notAnObject (document : Json)

/-- The message that a body spells. -/
def readBody (body : Bytes) : Except BodyError Members :=
  match Utf8.decode body with
  | .error e => .error (.notUtf8 e)
  | .ok cs =>
    match Json.parse cs with
    | .error e => .error (.notJson e)
    | .ok (.obj members) => .ok members
    | .ok document => .error (.notAnObject document)

end LanguageClient.Frame
