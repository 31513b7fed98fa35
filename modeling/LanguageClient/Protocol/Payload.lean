import LanguageClient.Json.Basic
import LanguageClient.Text.Case

/-!
# Outgoing payloads

A payload is what the editor wants to say: plain values, lists, maps, and records
whose fields have names such as `text_document`.  On the wire a field's name is in
camel case, and a field that holds nothing is left out unless its record says that
nothing has to be sent as `null`.
-/

namespace LanguageClient

/-- How much of its own activity the server is asked to report. -/
inductive Verbosity where
  | off
  | messages
  | verbose
deriving DecidableEq

namespace Verbosity

/-- The word for a verbosity on the wire. -/
def wireName : Verbosity → Text
  | off => "off"
  | messages => "messages"
  | verbose => "verbose"

def all : List Verbosity := [off, messages, verbose]

/-- The verbosity that a word names. -/
def ofWireName? (name : Text) : Option Verbosity := all.find? (·.wireName = name)

end Verbosity

inductive Payload where
  | null
  | bool (b : Bool)
  | int (n : Int)
  | float (x : Binary64)
  | text (t : Text)
  | verbosity (v : Verbosity)
  | list (items : List Payload)
  | map (entries : List (Text × Payload))
  /-- Fields by name; the truth value tells whether an empty one is sent. -/
  | record (fields : List (Text × Bool × Payload))

namespace Payload

instance : Inhabited Payload := ⟨null⟩

def isNull : Payload → Bool
  | null => true
  | _ => false

/-- The name of a field on the wire: the words between underscores, each but the first in title
case, without the underscores. -/
def wireName (field : Text) : Text :=
  match Cut.pieces (CodePoint.ofChar '_') field with
  | [] => []
  | first :: rest => first ++ rest.flatMap Case.title

mutual

/-- The JSON document of a payload. -/
def encode : Payload → Json
  | null => .null
  | bool b => .bool b
  | int n => .int n
  | float x => .float x
  | text t => .str t
  | verbosity v => .str v.wireName
  | list items => .arr (encodeItems items)
  | map entries => .obj (encodeEntries entries)
  | record fields => .obj (encodeFields fields)

def encodeItems : List Payload → List Json
  | [] => []
  | item :: rest => encode item :: encodeItems rest

def encodeEntries : List (Text × Payload) → Members
  | [] => []
  | (name, value) :: rest => (name, encode value) :: encodeEntries rest

/-- Fields that hold nothing are left out unless they are nullable. -/
def encodeFields : List (Text × Bool × Payload) → Members
  | [] => []
  | (name, nullable, value) :: rest =>
    if value.isNull && !nullable then encodeFields rest
    else (wireName name, encode value) :: encodeFields rest

end

mutual

/-- The payload that says just what a document says. -/
def ofJson : Json → Payload
  | .null => null
  | .bool b => bool b
  | .int n => int n
  | .float x => float x
  | .str t => text t
  | .arr items => list (ofItems items)
  | .obj members => map (ofMembers members)

def ofItems : List Json → List Payload
  | [] => []
  | item :: rest => ofJson item :: ofItems rest

def ofMembers : Members → List (Text × Payload)
  | [] => []
  | (name, value) :: rest => (name, ofJson value) :: ofMembers rest

end

end Payload

end LanguageClient
