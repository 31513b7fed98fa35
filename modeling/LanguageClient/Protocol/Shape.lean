import LanguageClient.Schema.Violation

/-!
# The shapes of inbound structures

What a server sends is checked against a schema before it is taken apart.  A
structure that does not have its shape is refused with a message that names the
structure, the place inside it, and what is wrong there.
-/

namespace LanguageClient

namespace Schema

/-- Values of one of the kinds. -/
def ofKinds (kinds : List Kind) : Schema := .mk kinds []

/-- Objects with required members and schemas for members. -/
def record (required : List String) (properties : List (String × Schema)) : Schema :=
  .mk [.object]
    (.required (required.map Text.ofString) ::
      properties.map fun p => .property (Text.ofString p.1) p.2)

/-- Values of one of several schemas. -/
def choice (branches : List Schema) : Schema := .mk [] [.anyOf branches]

def natural : Schema := .mk [.integer] [.minimum 0]

def position : Schema :=
  record ["line", "character"] [("line", natural), ("character", natural)]

def range : Schema := record ["start", "end"] [("start", position), ("end", position)]

/-- One fragment of hover text: a string, or an object that holds one. -/
def fragment : Schema :=
  choice
    [ofKinds [.string],
      record ["value"]
        [("value", ofKinds [.string]), ("kind", ofKinds [.string, .null]),
          ("language", ofKinds [.string, .null])]]

def hover : Schema :=
  record ["contents"]
    [("contents", choice [fragment, .mk [.array] [.items fragment]]),
      ("range", choice [range, ofKinds [.null]])]

def diagnostic : Schema :=
  record ["range", "message"]
    [("range", range),
      ("severity", .mk [.integer, .null] [.minimum 1, .maximum 4]),
      ("code", ofKinds [.integer, .string, .null]),
      ("source", ofKinds [.string, .null]),
      ("message", ofKinds [.string]),
      ("tags", .mk [.array, .null] [.items (ofKinds [.integer])]),
      ("relatedInformation", ofKinds [.array, .null])]

def publishDiagnostics : Schema :=
  record ["uri"]
    [("uri", ofKinds [.string]), ("version", ofKinds [.integer, .null]),
      ("diagnostics", .mk [.array, .null] [.items diagnostic])]

def serverInfo : Schema :=
  .mk [.object, .null]
    [.required [Text.ofString "name"], .property (Text.ofString "name") (ofKinds [.string]),
      .property (Text.ofString "version") (ofKinds [.string, .null])]

def initializeResult : Schema :=
  record ["capabilities"] [("capabilities", ofKinds [.object]), ("serverInfo", serverInfo)]

def responseError : Schema :=
  record ["code", "message"] [("code", ofKinds [.integer]), ("message", ofKinds [.string])]

end Schema

/-- The inbound structures whose shape is checked. -/
inductive Shape where
  | hover
  | publishDiagnostics
  | initializeResult
  | responseError
deriving DecidableEq

namespace Shape

/-- The name of a structure in messages. -/
def name : Shape → Text
  | hover => "Hover"
  | publishDiagnostics => "PublishDiagnosticsParams"
  | initializeResult => "InitializeResult"
  | responseError => "ResponseError"

def schema : Shape → Schema
  | hover => Schema.hover
  | publishDiagnostics => Schema.publishDiagnostics
  | initializeResult => Schema.initializeResult
  | responseError => Schema.responseError

end Shape

/-- A document that does not have the shape of a structure. -/
structure ShapeError where
  shape : Shape
  finding : Schema.Finding

/-- The message names the structure, the path to the offending part, and what is wrong with it. -/
def ShapeError.message (e : ShapeError) : Text :=
  let location := match Text.join "/" (e.finding.path.map Schema.Step.text) with
    | [] => Text.ofString "<root>"
    | path => path
  e.shape.name ++ ": " ++ location ++ ": " ++ e.finding.problem.message e.finding.value

/-- The document has the shape of a structure. -/
def Shape.check (shape : Shape) (document : Json) : Except ShapeError Unit :=
  match Schema.find? shape.schema document with
  | none => .ok ()
  | some finding => .error ⟨shape, finding⟩

end LanguageClient
