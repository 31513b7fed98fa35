import LanguageClient.Protocol.Record
import LanguageClient.Surroundings
import LanguageClient.Uri.File

/-!
# The parameters of the first request

The first request of a session tells the server who is asking, for which workspace,
and what the editor can show.
-/

namespace LanguageClient

/-- What the first request says besides the workspace. -/
structure Introduction where
  trace : Payload
  clientName : Payload
  clientVersion : Payload
  locale : Payload
  processId : Payload

namespace Introduction

/-- What the client says of itself. -/
def standard (processId : Nat) : Introduction where
  trace := .verbosity .off
  clientName := .text "editor-lsp"
  clientVersion := .text "0.1.0"
  locale := .text "en_US"
  processId := .int processId

end Introduction

/-- The name under which a workspace folder is shown: its last component. -/
def folderName (root : Text) : Text :=
  match Path.baseName (Cut.dropTrailing (· == Path.slash) root) with
  | [] => root
  | name => name

def editorCapabilities : Payload :=
  Layout.clientCapabilities.build
    [("workspace", Layout.workspaceCapabilities.build [("apply_edit", .bool true)]),
      ("text_document", Layout.documentCapabilities.build
        [("hover", Layout.hoverCapabilities.build
          [("dynamic_registration", .bool true),
            ("content_format", .list [.text "plaintext"])])])]

/-- The parameters of the first request.  Without a workspace the root is `null` and no folders are
named. -/
def handshakeParams (s : Surroundings) (root : Text) (i : Introduction) :
    Except Utf8.EncodeError Payload := do
  let client := Layout.clientInfo.build [("name", i.clientName), ("version", i.clientVersion)]
  let always : List (Text × Payload) :=
    [("process_id", i.processId), ("locale", i.locale), ("client_info", client),
      ("capabilities", editorCapabilities), ("trace", i.trace)]
  if root.isEmpty then return Layout.initializeParams.build always
  let root := s.absolute root
  let uri ← Uri.ofPath root
  let folder := Layout.workspaceFolder.build [("uri", .text uri), ("name", .text (folderName root))]
  let located : List (Text × Payload) :=
    [("root_path", .text root), ("root_uri", .text uri), ("workspace_folders", .list [folder])]
  return Layout.initializeParams.build (always ++ located)

end LanguageClient
