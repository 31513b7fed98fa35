import LanguageClient.Path
import LanguageClient.SystemError
import LanguageClient.Text.Utf8

/-!
# Files

A file tree as far as the client needs one: configurations and documents are read
from it, traces are appended to it.

A path is followed from the root component by component.  What it passes through
must be directories; `..` leads back to the directory above.  The tree is a list of
the places that exist, each known by its components from the root, and the root
always exists.
-/

namespace LanguageClient

/-- What stands at a place of the tree. -/
inductive FileNode where
  | file (bytes : Bytes)
  | directory
deriving DecidableEq

/-- A file tree: the places below the root, by their components. -/
structure Files where
  nodes : List (List Text × FileNode)

/-- Why a path cannot be used. -/
inductive FileError where
  | system (code : SystemCode)
  /-- The path holds a NUL character. -/
  | embeddedNul
  | notEncodable (error : Utf8.EncodeError)
deriving DecidableEq

namespace Files

def empty : Files := ⟨[]⟩

def at? (files : Files) (place : List Text) : Option FileNode :=
  if place.isEmpty then some .directory else (files.nodes.find? (·.1 = place)).map (·.2)

def put (files : Files) (place : List Text) (node : FileNode) : Files :=
  if files.nodes.any (·.1 = place) then
    ⟨files.nodes.map fun n => if n.1 = place then (place, node) else n⟩
  else ⟨files.nodes ++ [(place, node)]⟩

/-! ## Following a path -/

/-- A component has at most this many bytes. -/
def nameLimit : Nat := 255

/-- A path has fewer bytes than this. -/
def pathLimit : Nat := 4096

/-- The number of bytes of a name. -/
def byteCount (name : Text) : Nat :=
  match Utf8.encodeName name with
  | .ok bytes => bytes.length
  | .error _ => name.length

/-- Where a path leads: to something, or to a free place in a directory. -/
inductive Target where
  | found (place : List Text) (node : FileNode)
  | free (place : List Text)

/-- Follows components from the place `place`, at which `node` stands. -/
def follow (files : Files) (place : List Text) (node : FileNode) :
    List Text → Except SystemCode Target
  | [] => .ok (.found place node)
  | name :: rest =>
    if node ≠ .directory then .error .notADirectory
    else if name = [Path.dot, Path.dot] then follow files place.dropLast .directory rest
    else if nameLimit < byteCount name then .error .nameTooLong
    else
      match files.at? (place ++ [name]) with
      | some node => follow files (place ++ [name]) node rest
      | none => if rest.isEmpty then .ok (.free (place ++ [name])) else .error .noEntry

/-- The bytes of a path that the system can be asked for. -/
def handed (path : Text) : Except FileError Bytes :=
  match Utf8.encodeName path with
  | .error e => .error (.notEncodable e)
  | .ok bytes => if path.any (·.val == 0) then .error .embeddedNul else .ok bytes

/-- Where a path leads, seen from the directory `cwd`. -/
def locate (files : Files) (cwd path : Text) : Except FileError Target :=
  match handed path with
  | .error e => .error e
  | .ok bytes =>
    if pathLimit ≤ bytes.length then .error (.system .nameTooLong)
    else if path.isEmpty then .error (.system .noEntry)
    else
      match files.follow [] .directory (Path.components (Path.join cwd path)) with
      | .ok target => .ok target
      | .error code => .error (.system code)

/-! ## Operations -/

/-- Whether something stands where the path leads.  A path that cannot be followed to its end, or
cannot be a path at all, leads to nothing; a name that is too long is an error. -/
def exists? (files : Files) (cwd path : Text) : Except FileError Bool :=
  match files.locate cwd path with
  | .ok (.found _ _) => .ok true
  | .error (.system .nameTooLong) => .error (.system .nameTooLong)
  | _ => .ok false

/-- The path leads to a directory. -/
def isDirectory (files : Files) (cwd path : Text) : Bool :=
  match files.locate cwd path with
  | .ok (.found _ .directory) => true
  | _ => false

def read (files : Files) (cwd path : Text) : Except FileError Bytes := do
  match ← files.locate cwd path with
  | .found _ (.file bytes) => return bytes
  | .found _ .directory => throw (.system .isADirectory)
  | .free _ => throw (.system .noEntry)

/-- Appends to a file, which is made when there is none. -/
def append (files : Files) (cwd path : Text) (more : Bytes) : Except FileError Files := do
  match ← files.locate cwd path with
  | .found place (.file bytes) => return files.put place (.file (bytes ++ more))
  | .found _ .directory => throw (.system .isADirectory)
  | .free place => return files.put place (.file more)

/-- Makes a directory whose parent exists; that one is there already is no error. -/
def makeDirectory (files : Files) (cwd path : Text) : Except FileError Files := do
  match ← files.locate cwd path with
  | .found _ .directory => return files
  | .found _ (.file _) => throw (.system .fileExists)
  | .free place => return files.put place .directory

/-- The error of making a directory, with the path that it is about. -/
structure MakeError where
  path : Text
  error : FileError
deriving DecidableEq

/-- Makes a directory and those above it; `ancestors` are their paths, nearest first. -/
def makeDirectoriesFrom (cwd : Text) (files : Files) (path : Text) :
    (ancestors : List Text) → Except MakeError Files
  | [] => (files.makeDirectory cwd path).mapError (⟨path, ·⟩)
  | parent :: ancestors =>
    match files.makeDirectory cwd path with
    | .ok files => .ok files
    | .error (.system .noEntry) => do
      let files ← makeDirectoriesFrom cwd files parent ancestors
      (files.makeDirectory cwd path).mapError (⟨path, ·⟩)
    | .error e => .error ⟨path, e⟩

/-- Makes a directory and whatever is missing above it. -/
def makeDirectories (files : Files) (cwd path : Text) : Except MakeError Files :=
  makeDirectoriesFrom cwd files (Path.tidy path) (Path.parents path)

/-- The names in a directory, in the order in which they were made. -/
def names (files : Files) (cwd path : Text) : Option (List Text) :=
  match files.locate cwd path with
  | .ok (.found place .directory) =>
    some (files.nodes.filterMap fun n =>
      if n.1.dropLast = place ∧ n.1 ≠ [] then n.1.getLast? else none)
  | _ => none

/-- Puts a file at an absolute path, with directories above it. -/
def seed (files : Files) (path : Text) (node : FileNode) : Files :=
  let place := Path.components path
  let above := (List.range place.length).map place.take
  let files := above.foldl
    (fun files place => if (files.at? place).isSome then files else files.put place .directory) files
  files.put place node

end Files

end LanguageClient
