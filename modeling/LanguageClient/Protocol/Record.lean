import LanguageClient.Protocol.Payload

/-!
# Records of the protocol

Every record that is written to the wire has a layout: its fields in order, which
of them may be omitted, and which are sent as `null` when they hold nothing.
-/

namespace LanguageClient

structure Field where
  name : Text
  /-- Sent as `null` when it holds nothing. -/
  nullable : Bool
  /-- What an omitted field holds; `none` for a field that cannot be omitted. -/
  ifOmitted : Option Payload

/-- The fields of a record, in order. -/
structure Layout where
  name : Text
  fields : List Field

namespace Field

/-- A field that cannot be omitted. -/
def required (name : String) : Field := ⟨name, false, none⟩

/-- A field that is left out when it holds nothing. -/
def optional (name : String) : Field := ⟨name, false, some .null⟩

/-- A field that is sent as `null` when it holds nothing. -/
def nullableField (name : String) : Field := ⟨name, true, some .null⟩

/-- A field with a value of its own when omitted. -/
def defaulted (name : String) (value : Payload) : Field := ⟨name, false, some value⟩

end Field

namespace Layout

/-- The record with the given fields; the others hold what they hold when omitted. -/
def build (layout : Layout) (given : List (Text × Payload)) : Payload :=
  .record <| layout.fields.map fun field =>
    (field.name, field.nullable,
      match given.find? (·.1 = field.name) with
      | some (_, value) => value
      | none => field.ifOmitted.getD .null)

/-- The given fields make up the record: all are its fields, and none is missing. -/
def accepts (layout : Layout) (given : List Text) : Bool :=
  (given.all fun name => layout.fields.any (·.name = name)) &&
    layout.fields.all fun field => field.ifOmitted.isSome || given.contains field.name

/-! ## The layouts -/

def position : Layout := ⟨"Position", [.required "line", .required "character"]⟩

def range : Layout := ⟨"Range", [.required "start", .required "end"]⟩

def fragment : Layout :=
  ⟨"MarkupContent", [.required "value", .optional "kind", .optional "language"]⟩

def hover : Layout := ⟨"Hover", [.required "contents", .optional "range"]⟩

def diagnostic : Layout :=
  ⟨"Diagnostic", [.required "range", .required "message", .optional "severity", .optional "code",
    .optional "source", .optional "tags", .optional "related_information"]⟩

def publishDiagnostics : Layout :=
  ⟨"PublishDiagnosticsParams", [.required "uri", .optional "diagnostics", .optional "version"]⟩

def serverInfo : Layout := ⟨"ServerInfo", [.required "name", .optional "version"]⟩

def serverCapabilities : Layout :=
  ⟨"ServerCapabilities", [.optional "hover_provider", .defaulted "raw" (.map [])]⟩

def initializeResult : Layout :=
  ⟨"InitializeResult", [.required "capabilities", .optional "server_info"]⟩

def responseError : Layout :=
  ⟨"ResponseError", [.required "code", .required "message", .optional "data"]⟩

def clientInfo : Layout := ⟨"ClientInfo", [.required "name", .optional "version"]⟩

def workspaceCapabilities : Layout := ⟨"WorkspaceClientCapabilities", [.optional "apply_edit"]⟩

def hoverCapabilities : Layout :=
  ⟨"HoverClientCapabilities", [.optional "dynamic_registration", .optional "content_format"]⟩

def documentCapabilities : Layout := ⟨"TextDocumentClientCapabilities", [.optional "hover"]⟩

def clientCapabilities : Layout :=
  ⟨"ClientCapabilities", [.optional "workspace", .optional "text_document"]⟩

def workspaceFolder : Layout := ⟨"WorkspaceFolder", [.required "uri", .required "name"]⟩

def initializeParams : Layout :=
  ⟨"InitializeParams", [.nullableField "process_id", .optional "root_path",
    .nullableField "root_uri", .optional "locale", .optional "client_info",
    .defaulted "capabilities" (clientCapabilities.build []), .optional "workspace_folders",
    .optional "trace"]⟩

def initializedParams : Layout := ⟨"InitializedParams", []⟩

def configurationParams : Layout :=
  ⟨"DidChangeConfigurationParams", [.nullableField "settings"]⟩

def documentIdentifier : Layout := ⟨"TextDocumentIdentifier", [.required "uri"]⟩

def versionedIdentifier : Layout :=
  ⟨"VersionedTextDocumentIdentifier", [.required "uri", .required "version"]⟩

def documentItem : Layout :=
  ⟨"TextDocumentItem", [.required "uri", .required "language_id", .required "version",
    .required "text"]⟩

def contentChange : Layout := ⟨"TextDocumentContentChangeEvent", [.required "text"]⟩

def openParams : Layout := ⟨"DidOpenTextDocumentParams", [.required "text_document"]⟩

def changeParams : Layout :=
  ⟨"DidChangeTextDocumentParams", [.required "text_document", .required "content_changes"]⟩

def closeParams : Layout := ⟨"DidCloseTextDocumentParams", [.required "text_document"]⟩

def hoverParams : Layout := ⟨"HoverParams", [.required "text_document", .required "position"]⟩

def all : List Layout :=
  [position, range, fragment, hover, diagnostic, publishDiagnostics, serverInfo, serverCapabilities,
    initializeResult, responseError, clientInfo, workspaceCapabilities, hoverCapabilities,
    documentCapabilities, clientCapabilities, workspaceFolder, initializeParams, initializedParams,
    configurationParams, documentIdentifier, versionedIdentifier, documentItem, contentChange,
    openParams, changeParams, closeParams, hoverParams]

/-- The layout of the record with a given name. -/
def find? (name : Text) : Option Layout := all.find? (·.name = name)

end Layout

end LanguageClient
