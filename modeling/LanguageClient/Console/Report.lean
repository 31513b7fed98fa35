import LanguageClient.Console.Block
import LanguageClient.Console.Markup
import LanguageClient.Protocol.HoverText
import LanguageClient.Protocol.Severity
import LanguageClient.Surroundings
import LanguageClient.Yaml.Value

/-!
# Reports

What is shown of a hover, of diagnostics, of a message from the server, and of an
error.  Text of a server or a user is escaped; styles are the program's own.

Places in diagnostics are counted from one.  The stretch of a hover is shown as the
server sent it, counted from zero.
-/

namespace LanguageClient.Block

/-! ## Hover -/

/-- A place as it stands in a subtitle. -/
def place (p : BufferPosition) : Text := p.line.worded ++ Text.ofString ":" ++ p.column.worded

/-- The stretch that a hover is about. -/
def stretch (r : BufferRange) : Text := place r.first ++ Text.ofString "-" ++ place r.last

def ofHover (h : HoverText) : Block :=
  .panel {
    body :=
      if h.description.isEmpty then Markup.styled "dim" "(empty)"
      else Markup.escape (Text.join [CodePoint.ofChar '\n'] h.description)
    title := if h.title.isEmpty then none else some (Markup.escape h.title)
    subtitle := h.range.map stretch
    border := "green"
    padding := (0, 1)
    expand := true
    softWrap := false }

/-! ## Diagnostics -/

def severityStyle : Severity → Text
  | .error => "red"
  | .warning => "yellow"
  | .info => "blue"
  | .hint => "magenta"

/-- A line or character counted from one. -/
def fromOne : Json → Except Fault Text
  | .int n => if Reading.isWritable (n + 1) then .ok (Text.ofInt (n + 1)) else .error .unwritable
  | .float x => .ok (Text.ofChars (x.add (.ofInt 1)).render)
  | .bool b => .ok (Text.ofInt (if b then 2 else 1))
  | _ => .error .wrongKind

/-- The severity of a diagnostic in its style. -/
def severityCell (severity : Option Json) : Except Fault Text := do
  let name ← Severity.nameOf severity
  match ← Severity.ofJson? (severity.getD .null) with
  | some s => return Markup.styled (severityStyle s) name
  | none => return name

/-- The escaped text of a value that is one. -/
def textCell : Json → Except Fault Text
  | .str t => .ok (Markup.escape t)
  | _ => .error .wrongKind

/-- The source of a diagnostic; a value that counts as false stands for none. -/
def sourceCell (source : Option Json) : Except Fault Text :=
  match source with
  | none => .ok []
  | some v => if (Yaml.Value.ofJson v).isTruthy then textCell v else .ok []

def diagnosticRow (d : Diagnostic) : Except Fault (List Text) := do
  return [← fromOne d.range.start.line, ← fromOne d.range.start.character,
    ← severityCell d.severity, ← sourceCell d.source, ← textCell d.message]

/-- The columns of a table of diagnostics. -/
def diagnosticColumns : List (Text × Alignment) :=
  [("Line", .right), ("Col", .right), ("Severity", .left), ("Source", .left), ("Message", .left)]

/-- The diagnostics of a file; `path` names it when the server has said nothing about it. -/
def ofDiagnostics (diagnostics : Option Diagnostics) (path : Text) : Except Fault Block := do
  match diagnostics with
  | none =>
    return .markup (Markup.styled "dim" ("No diagnostics reported for " ++ Markup.escape path))
  | some d =>
    if d.diagnostics.isEmpty then
      return .markup (Markup.styled "green" "✓" ++ Text.ofString " " ++ Markup.escape d.path ++
        Text.ofString ": clean")
    let rows ← d.diagnostics.mapM diagnosticRow
    return .table ⟨Markup.escape d.path, true, diagnosticColumns, rows⟩

/-! ## Messages -/

def messageStyle : MessageType → Text
  | .error => "red"
  | .warning => "yellow"
  | .info => "blue"
  | .log | .debug => "dim"

/-- A message of the server of a language, with the time of day. -/
def ofServerMessage (s : Surroundings) (language : Text) (m : ServerMessage) : Block :=
  let sender := language ++ Text.ofString " " ++ m.type.name.map CodePoint.asciiLower
  .markup (Markup.styled "dim" ("(" ++ s.timeOfDay ++ Text.ofString ")") ++ Text.ofString " " ++
    Markup.styled (messageStyle m.type) sender ++ Text.ofString " " ++ Markup.escape m.message)

def ofError (text : Text) : Block :=
  .markup (Text.ofString "[bold red]Error:[/bold red] " ++ Markup.escape text)

end LanguageClient.Block
