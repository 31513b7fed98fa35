import LanguageClient.Files
import LanguageClient.Json.Parser
import LanguageClient.Text.Lines
import LanguageClient.Uri.File
import LanguageClient.Yaml.Cursor

/-!
# Faults

Operations answer with a result, which may be a failure of their own.  A fault is
something else: it cuts the operation short and reaches whoever called it.
-/

namespace LanguageClient

/-- What cuts an operation short without being one of its results. -/
inductive Fault where
  /-- The user interrupted a wait. -/
  | interrupted
  /-- A text cannot be taken for a URI. -/
  | malformedUri (error : Uri.Malformed)
  /-- A text cannot be written in UTF-8. -/
  | notEncodable (error : Utf8.EncodeError)
  /-- Bytes of a file are not UTF-8. -/
  | notDecodable (error : Utf8.DecodeError)
  /-- A number has too many digits. -/
  | tooManyDigits (count : Nat)
  /-- An integer has too many digits to be written. -/
  | unwritable
  /-- The system refused a file or a program. -/
  | system (error : SystemError)
  /-- A path or an argument holds a NUL character. -/
  | embeddedNul
  /-- A pipe that is closed was used. -/
  | closedPipe
  /-- The watch on a pipe that is closed was used. -/
  | closedWatch
  /-- A YAML text cannot be read. -/
  | badYaml (error : Yaml.Error)
  /-- A value has a kind that the operation has no use for. -/
  | wrongKind
  /-- A number is too large for the operation. -/
  | overflow (message : Text)

def Fault.message : Fault → Text
  | interrupted => []
  | malformedUri e => e.message
  | notEncodable e => e.message
  | notDecodable e => e.message
  | tooManyDigits n => (Reading.Error.tooManyDigits n).message
  | unwritable =>
    "Exceeds the limit (4300 digits) for integer string conversion; " ++
      Text.ofString "use sys.set_int_max_str_digits() to increase the limit"
  | system e => e.message
  | embeddedNul => "embedded null byte"
  | closedPipe => "I/O operation on closed file"
  | closedWatch => "I/O operation on closed epoll object"
  | badYaml e => e.message
  | wrongKind => []
  | overflow message => message

/-- The fault of a file that cannot be used; `path` is how it was named. -/
def Fault.ofFile (path : Text) : FileError → Fault
  | .system code => system ⟨code, some path⟩
  | .embeddedNul => embeddedNul
  | .notEncodable e => notEncodable e

/-- The text of a file; its line breaks are line feeds. -/
def Files.text (files : Files) (cwd path : Text) : Except Fault Text := do
  let bytes ← (files.read cwd path).mapError (Fault.ofFile path)
  let chars ← (Utf8.decode bytes).mapError .notDecodable
  return Text.ofChars (Lines.normalize chars)

/-- How an operation ends other than by its answer: with a failure of its own, or by a fault. -/
inductive Stop (ε : Type) where
  | failed (error : ε)
  | faulted (fault : Fault)

/-- An operation on a state, which goes on from the state reached even when it stops early. -/
abbrev Attempt (ε σ α : Type) := ExceptT (Stop ε) (StateM σ) α

namespace Attempt

variable {ε σ α : Type}

/-- Ends the operation with a failure. -/
def fail (error : ε) : Attempt ε σ α := throw (.failed error)

/-- Ends the operation by a fault. -/
def fault (f : Fault) : Attempt ε σ α := throw (.faulted f)

/-- Runs an operation and gives its failure as a value; a fault still ends everything. -/
def outcome (action : Attempt ε σ α) {ε' : Type} : Attempt ε' σ (Except ε α) := fun s =>
  match action s with
  | (.ok a, s) => (.ok (.ok a), s)
  | (.error (.failed e), s) => (.ok (.error e), s)
  | (.error (.faulted f), s) => (.error (.faulted f), s)

/-- Runs an operation and gives its fault as a value; a failure still ends everything. -/
def caught (action : Attempt ε σ α) : Attempt ε σ (Except Fault α) := fun s =>
  match action s with
  | (.ok a, s) => (.ok (.ok a), s)
  | (.error (.failed e), s) => (.error (.failed e), s)
  | (.error (.faulted f), s) => (.ok (.error f), s)

/-- Gives the failures of an operation another form. -/
def mapError {ε' : Type} (f : ε → ε') (action : Attempt ε σ α) : Attempt ε' σ α := fun s =>
  match action s with
  | (.ok a, s) => (.ok a, s)
  | (.error (.failed e), s) => (.error (.failed (f e)), s)
  | (.error (.faulted g), s) => (.error (.faulted g), s)

/-- Takes over the result of a computation without state. -/
def ofExcept {ε' : Type} (f : ε' → Stop ε) : Except ε' α → Attempt ε σ α
  | .ok a => pure a
  | .error e => throw (f e)

/-- Runs an operation on a part of the state. -/
def onPart {τ : Type} (get : σ → τ) (set : τ → σ → σ) (action : Attempt ε τ α) : Attempt ε σ α :=
  fun s =>
    let (r, t) := action (get s)
    (r, set t s)

end Attempt

end LanguageClient
