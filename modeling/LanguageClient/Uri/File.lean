import LanguageClient.Path
import LanguageClient.Uri.Host

/-!
# File URIs

A document is named on the wire by a `file:` URI and in the editor by a path.
The path is written byte by byte, percent-encoding all but slashes and the
unreserved characters, so file names that are not UTF-8 survive.  Reading a
URI gives a normalized path.
-/

namespace LanguageClient.Uri

/-! ## Writing -/

/-- The bytes that stand for themselves in a path: slash, letters, digits, `-`, `.`, `_`
and `~`. -/
def isPlain (b : UInt8) : Bool :=
  let c := CodePoint.ofNat b.toNat
  c.isAsciiLetter || c.isAsciiDigit || b = 0x2D || b = 0x2E || b = 0x2F || b = 0x5F || b = 0x7E

/-- The uppercase hexadecimal digit of a number below sixteen. -/
def upperDigit (n : Nat) : Char := if n < 10 then Char.ofNat (0x30 + n) else Char.ofNat (0x37 + n)

/-- A byte, percent-encoded unless it is plain. -/
def percentEncode (b : UInt8) : List Char :=
  if isPlain b then [Char.ofNat b.toNat]
  else ['%', upperDigit (b.toNat / 16), upperDigit (b.toNat % 16)]

/-- The file URI of a path. -/
def ofPath (path : Text) : Except Utf8.EncodeError Text := do
  let bytes ← Utf8.encodeName path
  return Text.ofString "file://" ++ Text.ofChars (bytes.flatMap percentEncode)

/-! ## Splitting -/

/-- The parts of a URI that matter for a path; query and fragment are dropped. -/
structure Parts where
  scheme : Text
  authority : Text
  path : Text
deriving DecidableEq

/-- Letters, digits, `+`, `-` and `.`. -/
def isSchemeChar (c : CodePoint) : Bool :=
  c.isAsciiLetter || c.isAsciiDigit || c.val = 0x2B || c.val = 0x2D || c.val = 0x2E

/-- The scheme in lower case and what follows its colon; the scheme is empty when there is
none. -/
def splitScheme (uri : Text) : Text × Text :=
  match Cut.at? (CodePoint.ofChar ':') uri with
  | some (scheme, rest) =>
    if (scheme.head?.any CodePoint.isAsciiLetter) && scheme.all isSchemeChar then
      (scheme.map CodePoint.asciiLower, rest)
    else ([], uri)
  | none => ([], uri)

/-- `/`, `?` and `#` end an authority. -/
def endsAuthority (c : CodePoint) : Bool := c.val = 0x2F || c.val = 0x3F || c.val = 0x23

/-- The authority behind `//` and what follows it; the authority is empty when there is none. -/
def splitAuthority (rest : Text) : Text × Text :=
  match Cut.after? (Text.ofString "//") rest with
  | some rest => (rest.takeWhile (!endsAuthority ·), rest.dropWhile (!endsAuthority ·))
  | none => ([], rest)

/-- The parts of a URI.  Control characters and blanks in front, and tabulators and line ends
anywhere, are not part of it. -/
def split (uri : Text) : Except HostError Parts := do
  let uri := uri.dropWhile (·.val ≤ 0x20)
  let uri := uri.filter fun c => c.val != 0x09 && c.val != 0x0A && c.val != 0x0D
  let (scheme, rest) := splitScheme uri
  let (authority, rest) := splitAuthority rest
  checkAuthority authority
  return ⟨scheme, authority, rest.takeWhile fun c => c.val != 0x23 && c.val != 0x3F⟩

/-! ## Reading -/

/-- Why a well-formed URI names no local file. -/
inductive Refusal where
  | scheme (scheme : Text)
  | host (authority : Text)
deriving DecidableEq

def Refusal.message : Refusal → Text
  | scheme s => "Invalid scheme: " ++ s ++ ", only file is supported"
  | host h => "Invalid hostname: " ++ h ++ ", only empty hostname is supported"

/-- Why a text cannot be taken for a URI at all. -/
inductive Malformed where
  | host (error : HostError)
  | surrogate (error : Utf8.EncodeError)
deriving DecidableEq

def Malformed.message : Malformed → Text
  | host e => e.message
  | surrogate e => e.message

/-- The value of a hexadecimal digit. -/
def hexValue? (b : UInt8) : Option Nat :=
  let n := b.toNat
  if 0x30 ≤ n && n ≤ 0x39 then some (n - 0x30)
  else if 0x41 ≤ n && n ≤ 0x46 then some (n - 0x37)
  else if 0x61 ≤ n && n ≤ 0x66 then some (n - 0x57)
  else none

/-- Replaces every percent sign before two hexadecimal digits by the byte they spell. -/
def percentDecodeFrom (done : Bytes) : Bytes → Bytes
  | [] => done.reverse
  | 0x25 :: a :: b :: rest =>
    match hexValue? a, hexValue? b with
    | some high, some low => percentDecodeFrom (UInt8.ofNat (high * 16 + low) :: done) rest
    | _, _ => percentDecodeFrom (0x25 :: done) (a :: b :: rest)
  | b :: rest => percentDecodeFrom (b :: done) rest

/-- The bytes that a percent-encoded path spells. -/
def percentDecode (bytes : Bytes) : Bytes := percentDecodeFrom [] bytes

/-- The normalized path of a file URI. -/
def toPath (uri : Text) : Except Malformed (Except Refusal Text) :=
  match split uri with
  | .error e => .error (.host e)
  | .ok parts =>
    if parts.scheme ≠ Text.ofString "file" then .ok (.error (.scheme parts.scheme))
    else if parts.authority ≠ [] then .ok (.error (.host parts.authority))
    else
      match Utf8.encode parts.path with
      | .error e => .error (.surrogate e)
      | .ok bytes => .ok (.ok (Path.normalize (Utf8.decodeName (percentDecode bytes))))

end LanguageClient.Uri
