import LanguageClient.Script.Server

/-!
# Reading scripts

A script is written as a JSON object: a member for each method, whose value is a
list of turns, each a list of actions.  The member `<start>` holds the actions at
the start.  An action is an object that is told by the name of its member.
-/

namespace LanguageClient.Script

/-- Bytes are written as a text of which every character is one byte. -/
def readBytes : Json → Bytes
  | .str t => t.map fun c => UInt8.ofNat c.val
  | _ => []

def readItems : Json → List Json
  | .arr items => items
  | _ => []

def readSize : Json → Nat
  | .int n => n.toNat
  | _ => 1

/-- The mode that a word names. -/
def readMode (v : Json) : InputMode :=
  match v with
  | .str t =>
    if t = Text.ofString "broken" then .broken
    else if t = Text.ofString "oserror" then .failing
    else .ok
  | _ => .ok

/-- The action that an object describes. -/
def readAction? (v : Json) : Option Action :=
  let member (name : String) : Option Json := v.member? (Text.ofString name)
  let size := (member "size").elim 1 readSize
  ((member "reply").map .reply).orElse fun _ =>
  ((member "reply_error").map .replyError).orElse fun _ =>
  ((member "send").map .send).orElse fun _ =>
  ((member "batch").map fun v => .batch (readItems v)).orElse fun _ =>
  ((member "split").map fun v => .split v size).orElse fun _ =>
  ((member "raw").map fun v => .raw (readBytes v)).orElse fun _ =>
  ((member "spurious").map fun _ => .spurious).orElse fun _ =>
  ((member "eof").map fun _ => .endOutput).orElse fun _ =>
  ((member "exit").map fun _ => .exit).orElse fun _ =>
  ((member "stdin").map fun v => .input (readMode v)).orElse fun _ =>
  ((member "bad_fd").map fun v => .badDescriptor (match v with
    | .bool b => b
    | _ => false)).orElse fun _ =>
  (member "interrupt").map fun _ => .interrupt

/-- The actions that an array describes. -/
def readActions (v : Json) : List Action := (readItems v).filterMap readAction?

/-- The script that an object describes. -/
def read (v : Json) : Script :=
  match v with
  | .obj members =>
    let start := Text.ofString "<start>"
    { start := ((Members.get? members start).map readActions).getD []
      rules := (members.filter (·.1 ≠ start)).map fun m =>
        (m.1, (readItems m.2).map readActions) }
  | _ => ⟨[], []⟩

end LanguageClient.Script
