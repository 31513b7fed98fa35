import LanguageClient.Text.CodePoint

/-!
# UTF-8

Decoding is strict: a byte sequence that is overlong, encodes a surrogate or
stops short is refused with the place and the cause.  Encoding refuses
surrogates in the same way.

File names need not be UTF-8.  For them every byte that does not decode stands
for the surrogate `U+DC00 + byte`, and such a surrogate is written back as its
byte, so no file name is lost.
-/

namespace LanguageClient

abbrev Bytes := List UInt8

namespace Utf8

/-! ## Errors -/

inductive Flaw where
  | invalidStart
  | invalidContinuation
  | unexpectedEnd
deriving DecidableEq

/-- The bytes of a list, from `position` on, that do not decode. -/
structure DecodeError where
  position : Nat
  bytes : Bytes
  flaw : Flaw
deriving DecidableEq

/-- The surrogates of a text, from `position` on, that cannot be encoded. -/
structure EncodeError where
  position : Nat
  first : CodePoint
  count : Nat
deriving DecidableEq

def Flaw.message : Flaw → Text
  | invalidStart => "invalid start byte"
  | invalidContinuation => "invalid continuation byte"
  | unexpectedEnd => "unexpected end of data"

/-- The message names the byte, or the range of positions when there are several. -/
def DecodeError.message (e : DecodeError) : Text :=
  match e.bytes with
  | [b] =>
    "'utf-8' codec can't decode byte 0x" ++ Text.hex 2 b.toNat ++ " in position " ++
      Text.ofNat e.position ++ ": " ++ e.flaw.message
  | bytes =>
    "'utf-8' codec can't decode bytes in position " ++ Text.ofNat e.position ++ "-" ++
      Text.ofNat (e.position + bytes.length - 1) ++ ": " ++ e.flaw.message

/-- The message names the surrogate, or the range of positions when there are several. -/
def EncodeError.message (e : EncodeError) : Text :=
  if e.count = 1 then
    "'utf-8' codec can't encode character '\\u" ++ Text.hex 4 e.first.val ++ "' in position " ++
      Text.ofNat e.position ++ ": surrogates not allowed"
  else
    "'utf-8' codec can't encode characters in position " ++ Text.ofNat e.position ++ "-" ++
      Text.ofNat (e.position + e.count - 1) ++ ": surrogates not allowed"

/-! ## Decoding -/

/-- The byte is `10xxxxxx`. -/
def isContinuation (b : UInt8) : Bool := 0x80 ≤ b && b < 0xC0

/-- The second bytes that may follow a lead byte: overlong forms, surrogates and
numbers past U+10FFFF are left out. -/
def mayFollow (lead second : UInt8) : Bool :=
  isContinuation second &&
    (if lead = 0xE0 then 0xA0 ≤ second
     else if lead = 0xED then second < 0xA0
     else if lead = 0xF0 then 0x90 ≤ second
     else if lead = 0xF4 then second < 0x90
     else true)

/-- The character whose number has the bits of the lead byte and six of every further byte. -/
def combine (leadBits : Nat) (further : Bytes) : Char :=
  Char.ofNat (further.foldl (fun n b => n * 64 + (b.toNat - 0x80)) leadBits)

/-- What stands at the start of a list of bytes. -/
inductive Head where
  | scalar (c : Char) (width : Nat)
  | flawed (width : Nat) (flaw : Flaw)

/-- Reads the first sequence of a non-empty list. -/
def head (lead : UInt8) (rest : Bytes) : Head :=
  if lead < 0x80 then .scalar (Char.ofNat lead.toNat) 1
  else if lead < 0xC2 || 0xF4 < lead then .flawed 1 .invalidStart
  else match rest with
    | [] => .flawed 1 .unexpectedEnd
    | b₁ :: rest =>
      if !mayFollow lead b₁ then .flawed 1 .invalidContinuation
      else if lead < 0xE0 then .scalar (combine (lead.toNat - 0xC0) [b₁]) 2
      else match rest with
        | [] => .flawed 2 .unexpectedEnd
        | b₂ :: rest =>
          if !isContinuation b₂ then .flawed 2 .invalidContinuation
          else if lead < 0xF0 then .scalar (combine (lead.toNat - 0xE0) [b₁, b₂]) 3
          else match rest with
            | [] => .flawed 3 .unexpectedEnd
            | b₃ :: _ =>
              if !isContinuation b₃ then .flawed 3 .invalidContinuation
              else .scalar (combine (lead.toNat - 0xF0) [b₁, b₂, b₃]) 4

/-- `skip` counts the bytes that belong to the sequence read last. -/
def decodeFrom (done : List Char) (position skip : Nat) :
    Bytes → Except DecodeError (List Char)
  | [] => .ok done.reverse
  | b :: rest =>
    match skip with
    | skip + 1 => decodeFrom done (position + 1) skip rest
    | 0 =>
      match head b rest with
      | .scalar c width => decodeFrom (c :: done) (position + 1) (width - 1) rest
      | .flawed width flaw => .error ⟨position, b :: rest.take (width - 1), flaw⟩

/-- The characters that the bytes encode. -/
def decode (bytes : Bytes) : Except DecodeError (List Char) := decodeFrom [] 0 0 bytes

/-- The bytes in pieces of `size`. -/
def piecesOf (size : Nat) : (fuel : Nat) → Bytes → List Bytes
  | 0, _ => []
  | fuel + 1, bytes =>
    if bytes.isEmpty then [] else bytes.take size :: piecesOf size fuel (bytes.drop size)

/-- Decodes piece by piece.  `pending` are the bytes of a sequence that the next piece may complete;
positions count from there. -/
def decodePieces (done : List Char) (pending : Bytes) :
    List Bytes → Except DecodeError (List Char)
  | [] => if pending.isEmpty then .ok done else .error ⟨0, pending, .unexpectedEnd⟩
  | piece :: rest =>
    match decode (pending ++ piece) with
    | .ok chars => decodePieces (done ++ chars) [] rest
    | .error e =>
      if e.flaw ≠ .unexpectedEnd then .error e
      else
        match decode ((pending ++ piece).take e.position) with
        | .ok chars => decodePieces (done ++ chars) e.bytes rest
        | .error e => .error e

/-- A stream is decoded as it is read, at most this many bytes at once. -/
def pieceSize : Nat := 8192

/-- The characters of a stream.  The position of an error counts within the piece that shows it. -/
def decodeStream (bytes : Bytes) : Except DecodeError (List Char) :=
  decodePieces [] [] (piecesOf pieceSize (bytes.length + 1) bytes)

/-- `skip` counts the bytes that belong to the sequence read last. -/
def decodeNameFrom (done : Text) (skip : Nat) : Bytes → Text
  | [] => done.reverse
  | b :: rest =>
    match skip with
    | skip + 1 => decodeNameFrom done skip rest
    | 0 =>
      match head b rest with
      | .scalar c width => decodeNameFrom (CodePoint.ofChar c :: done) (width - 1) rest
      | .flawed _ _ => decodeNameFrom (CodePoint.ofNat (0xDC00 + b.toNat) :: done) 0 rest

/-- The file name that the bytes spell; a byte that does not decode stands for a surrogate. -/
def decodeName (bytes : Bytes) : Text := decodeNameFrom [] 0 bytes

/-- The bytes of a text in which every byte above `0x7F` is replaced by U+FFFD. -/
def decodeAscii (bytes : Bytes) : Text :=
  bytes.map fun b => if b < 0x80 then CodePoint.ofNat b.toNat else CodePoint.ofNat 0xFFFD

/-! ## Encoding -/

/-- The bytes of one code point, by the width that its number needs. -/
def encodeOne (c : CodePoint) : Bytes :=
  let n := c.val
  let tail (n : Nat) : UInt8 := UInt8.ofNat (0x80 + n % 64)
  if n < 0x80 then [UInt8.ofNat n]
  else if n < 0x800 then [UInt8.ofNat (0xC0 + n / 64), tail n]
  else if n < 0x10000 then [UInt8.ofNat (0xE0 + n / 4096), tail (n / 64), tail n]
  else [UInt8.ofNat (0xF0 + n / 262144), tail (n / 4096), tail (n / 64), tail n]

/-- The UTF-8 bytes of a list of characters. -/
def ofChars (cs : List Char) : Bytes := cs.flatMap fun c => encodeOne (CodePoint.ofChar c)

/-- Encodes code point by code point with `one`; where it gives nothing, the run of
surrogates from there on is reported. -/
def encodeFrom (one : CodePoint → Option Bytes) (done : Bytes) (position : Nat) :
    Text → Except EncodeError Bytes
  | [] => .ok done.reverse
  | c :: rest =>
    match one c with
    | some bytes => encodeFrom one (bytes.reverse ++ done) (position + 1) rest
    | none => .error ⟨position, c, 1 + (rest.takeWhile CodePoint.isSurrogate).length⟩

/-- The UTF-8 bytes of a text without surrogates. -/
def encode (t : Text) : Except EncodeError Bytes :=
  encodeFrom (fun c => if c.isSurrogate then none else some (encodeOne c)) [] 0 t

/-- The code point stands for a byte of a file name that does not decode. -/
def isEscapedByte (c : CodePoint) : Bool := 0xDC80 ≤ c.val && c.val ≤ 0xDCFF

/-- The bytes of a file name: a surrogate that stands for a byte is written as that byte. -/
def encodeName (t : Text) : Except EncodeError Bytes :=
  encodeFrom
    (fun c =>
      if isEscapedByte c then some [UInt8.ofNat (c.val - 0xDC00)]
      else if c.isSurrogate then none
      else some (encodeOne c))
    [] 0 t

end Utf8

end LanguageClient
