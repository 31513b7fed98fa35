import LanguageClient.Number.Reading

/-!
# Frame headers

A frame on the wire is a header block, an empty line and a body.  The header
gives the number of body bytes in a line `Content-Length: n`; the name may be
written in any case and both parts may have blanks around them.  Other lines
are passed over, and of several such lines the first one decides.
-/

namespace LanguageClient.Frame

/-- The end of a line of the header block. -/
def lineEnd : Bytes := [0x0D, 0x0A]

/-- The bytes that end a header block: the end of its last line and an empty line. -/
def separator : Bytes := lineEnd ++ lineEnd

/-- A header block that does not give the length of the body. -/
structure MissingLength where
  header : Bytes
deriving DecidableEq

/-- The message shows the whole header. -/
def MissingLength.message (e : MissingLength) : Text :=
  "No valid Content-Length header in " ++ Quoted.bytes e.header

/-- The value of a header line that gives the length. -/
def lengthField? (line : Text) : Option Text :=
  let (name, value) := (Cut.at? (CodePoint.ofChar ':') line).getD (line, [])
  if (Text.strip name).map CodePoint.asciiLower = Text.ofString "content-length" then some value
  else none

/-- The length of the body that a header block announces. -/
def contentLength (header : Bytes) : Except MissingLength Nat :=
  let lines := Cut.split lineEnd header
  match lines.findSome? fun line => lengthField? (Utf8.decodeAscii line) with
  | none => .error ⟨header⟩
  | some value =>
    match Reading.int (Text.strip value) with
    | .ok (.ofNat n) => .ok n
    | _ => .error ⟨header⟩

end LanguageClient.Frame
