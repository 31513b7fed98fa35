import LanguageClient.Fault
import LanguageClient.Journal
import LanguageClient.Surroundings
import LanguageClient.Text.Lines
import LanguageClient.Yaml.Document
import LanguageClient.Yaml.Printer

/-!
# The trace of a connection

A trace is a YAML file to which every message is appended as a document of its own:
its number, the way it went, when, and what it said.  The file can be read at any time.

Recording happens after the fact, from the journal.  What the system refuses to record is
remarked upon in the journal, and nothing else comes of it.  Where the system cannot even be
asked for the file, the first message is an obstacle to whatever is to follow it.
-/

namespace LanguageClient

/-- A trace: the file, and the number of the next entry. -/
structure Trace where
  file : Text
  counter : Nat
deriving DecidableEq

namespace Trace

/-- The file of a trace by its directory and name. -/
def fileOf (directory name : Text) : Text :=
  Path.tidy (Path.join (Path.tidy directory) (name ++ Text.ofString ".yaml"))

/-- Starts a trace; its directory is made if it is missing. -/
def start (cwd directory name : Text) (files : Files) : Except Fault (Trace × Files) :=
  match files.makeDirectories cwd directory with
  | .ok files => .ok (⟨fileOf directory name, 0⟩, files)
  | .error e => .error (.ofFile e.path e.error)

/-- What is written about a message. -/
def entry (stamp : Text) (number : Nat) (direction : Direction) (message : Members) : Members :=
  [(Text.ofString "seq", .int number), (Text.ofString "direction", .str direction.name),
    (Text.ofString "timestamp", .str stamp), (Text.ofString "message", .obj message)]

/-- Appends a message to the file. -/
def record (s : Surroundings) (direction : Direction) (message : Members) (t : Trace)
    (files : Files) : Except FileError Files :=
  let document := Yaml.Printer.document (entry s.timestamp t.counter direction message)
  files.append s.workingDirectory t.file (Utf8.ofChars document)

/-- The fault of every attempt to record a message, whatever the files are. -/
def obstacle? (t : Trace) : Option Fault :=
  match Files.handed t.file with
  | .error e => some (.ofFile t.file e)
  | .ok _ => none

/-- The trace behind an attempt to record a message: numbers are not used twice. -/
def next (t : Trace) : Trace := { t with counter := t.counter + 1 }

/-- What is remarked when a message could not be recorded. -/
def complaint (t : Trace) (e : FileError) : Entry :=
  .remark .error ("Failed to record trace entry " ++ Text.ofNat t.counter ++ Text.ofString ": " ++
    (Fault.ofFile t.file e).message)

/-- What the system refuses is complained about; anything else has been a fault. -/
def complaints (t : Trace) : FileError → Journal
  | .system code => [t.complaint (.system code)]
  | .embeddedNul | .notEncodable _ => []

/-- Records the traffic of a journal.  A complaint stands where the message stood. -/
def follow (s : Surroundings) : (t : Trace) → (files : Files) → Journal → Trace × Files × Journal
  | t, files, [] => (t, files, [])
  | t, files, .remark level text :: journal =>
    let (t, files, rest) := follow s t files journal
    (t, files, .remark level text :: rest)
  | t, files, .traffic direction message :: journal =>
    match record s direction message t files with
    | .ok files =>
      let (t, files, rest) := follow s t.next files journal
      (t, files, .traffic direction message :: rest)
    | .error e =>
      let (last, files, rest) := follow s t.next files journal
      (last, files, .traffic direction message :: (t.complaints e ++ rest))

/-- The documents of a trace file, apart from empty ones. -/
def documents (bytes : Bytes) : Except Fault (List Yaml.Value) := do
  let chars ← (Utf8.decodeStream bytes).mapError .notDecodable
  let values ← (Yaml.readAll (Lines.normalize chars)).mapError .badYaml
  return values.filter fun v => match v with
    | .null => false
    | _ => true

def entries (cwd : Text) (t : Trace) (files : Files) : Except Fault (List Yaml.Value) := do
  if !(← (files.exists? cwd t.file).mapError (Fault.ofFile t.file)) then return []
  let bytes ← (files.read cwd t.file).mapError (Fault.ofFile t.file)
  documents bytes

/-- The traces in a directory by the names of their files; nothing if there is no directory. -/
def inDirectory (cwd directory : Text) (files : Files) :
    Except Fault (Option (List (Text × List Yaml.Value))) := do
  let some names := files.names cwd directory | return none
  let traces ← (names.mergeSort Text.le).mapM fun name => do
    let bytes ← (files.read cwd (Path.join directory name)).mapError (Fault.ofFile name)
    return (name, ← documents bytes)
  return some traces

end Trace

end LanguageClient
