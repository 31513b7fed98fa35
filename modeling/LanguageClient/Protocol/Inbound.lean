import LanguageClient.Protocol.Shape

/-!
# Inbound structures

The structures that a server sends, as the editor holds them.  `read` takes a
document apart member by member; `decode` checks its shape first, after which
reading cannot fail.

Members of a free form keep the document that was sent, so that a number written
`1.0` stays distinct from `1`.
-/

namespace LanguageClient

/-- Why a member cannot be taken out of a document. -/
inductive MemberError where
  /-- The object has no member of that name. -/
  | missing (name : Text)
  /-- The value is no object. -/
  | notAnObject
deriving DecidableEq

namespace Json

/-- The member that a structure cannot do without. -/
def required (v : Json) (name : Text) : Except MemberError Json :=
  match v with
  | obj members =>
    match Members.get? members name with
    | some part => .ok part
    | none => .error (.missing name)
  | _ => .error .notAnObject

/-- The member of an object, unless it is absent or null. -/
def optional (v : Json) (name : Text) : Option Json :=
  (v.member? name).filter (!·.isNull)

end Json

/-- A place in a document: line and character, counted from zero. -/
structure Position where
  line : Json
  character : Json

structure Range where
  start : Position
  stop : Position

/-- One fragment of hover text: plain, marked up, or code of a language. -/
structure Fragment where
  value : Json
  kind : Option Json
  language : Option Json

/-- The text of a hover: a single fragment, or a list of them. -/
inductive Contents where
  | one (fragment : Fragment)
  | many (fragments : List Fragment)

/-- What the server has to say about a place in a document. -/
structure Hover where
  contents : Contents
  range : Option Range

/-- A problem that the server reports in a document. -/
structure Diagnostic where
  range : Range
  message : Json
  severity : Option Json
  code : Option Json
  source : Option Json
  tags : Option Json
  relatedInformation : Option Json

/-- The diagnostics of one document; `none` when the server sent no list. -/
structure PublishDiagnostics where
  uri : Json
  diagnostics : Option (List Diagnostic)
  version : Option Json

structure ServerInfo where
  name : Json
  version : Option Json

/-- What a server says it can do. -/
structure ServerCapabilities where
  hoverProvider : Option Json
  all : Members

/-- The answer to the first request of a session. -/
structure InitializeResult where
  capabilities : ServerCapabilities
  serverInfo : Option ServerInfo

/-- The error that answers a request. -/
structure ResponseError where
  code : Json
  message : Json
  data : Option Json

/-! ## Reading -/

def Position.read (v : Json) : Except MemberError Position := do
  return ⟨← v.required "line", ← v.required "character"⟩

def Range.read (v : Json) : Except MemberError Range := do
  let start ← Position.read (← v.required "start")
  let stop ← Position.read (← v.required "end")
  return ⟨start, stop⟩

/-- A string is a fragment by itself. -/
def Fragment.read (v : Json) : Except MemberError Fragment :=
  match v with
  | .str t => return ⟨.str t, none, none⟩
  | v => do return ⟨← v.required "value", v.optional "kind", v.optional "language"⟩

def Contents.read (v : Json) : Except MemberError Contents :=
  match v with
  | .arr items => do return .many (← items.mapM Fragment.read)
  | v => do return .one (← Fragment.read v)

def Hover.read (v : Json) : Except MemberError Hover := do
  let contents ← Contents.read (← v.required "contents")
  let range ← (v.optional "range").mapM Range.read
  return ⟨contents, range⟩

def Diagnostic.read (v : Json) : Except MemberError Diagnostic := do
  let range ← Range.read (← v.required "range")
  let message ← v.required "message"
  return {
    range, message
    severity := v.optional "severity"
    code := v.optional "code"
    source := v.optional "source"
    tags := v.optional "tags"
    relatedInformation := v.optional "relatedInformation" }

def PublishDiagnostics.read (v : Json) : Except MemberError PublishDiagnostics := do
  let diagnostics ← match v.optional "diagnostics" with
    | some (.arr items) => do pure (some (← items.mapM Diagnostic.read))
    | some _ => throw .notAnObject
    | none => pure none
  return ⟨← v.required "uri", diagnostics, v.optional "version"⟩

def InitializeResult.read (v : Json) : Except MemberError InitializeResult := do
  let capabilities ← match ← v.required "capabilities" with
    | .obj members => pure members
    | _ => throw .notAnObject
  let serverInfo ← (v.optional "serverInfo").mapM fun info => do
    return ⟨← info.required "name", info.optional "version"⟩
  return ⟨⟨(Json.obj capabilities).optional "hoverProvider", capabilities⟩, serverInfo⟩

def ResponseError.read (v : Json) : Except MemberError ResponseError := do
  return ⟨← v.required "code", ← v.required "message", v.optional "data"⟩

/-! ## Decoding -/

/-- Why a document is not decoded. -/
inductive DecodeError where
  | shape (error : ShapeError)
  | member (error : MemberError)

/-- Reads a document once its shape has been checked. -/
def Shape.decode {α : Type} (shape : Shape) (read : Json → Except MemberError α) (v : Json) :
    Except DecodeError α :=
  match shape.check v with
  | .error e => .error (.shape e)
  | .ok () =>
    match read v with
    | .error e => .error (.member e)
    | .ok x => .ok x

def Hover.decode : Json → Except DecodeError Hover := Shape.hover.decode Hover.read

def PublishDiagnostics.decode : Json → Except DecodeError PublishDiagnostics :=
  Shape.publishDiagnostics.decode PublishDiagnostics.read

def InitializeResult.decode : Json → Except DecodeError InitializeResult :=
  Shape.initializeResult.decode InitializeResult.read

def ResponseError.decode : Json → Except DecodeError ResponseError :=
  Shape.responseError.decode ResponseError.read

/-- The error in one line: its message, its code and what else was sent. -/
def ResponseError.text (e : ResponseError) : Text :=
  e.message.worded ++ " (code " ++ e.code.shown ++ ")" ++
    (match e.data with
      | some data => Text.ofString ": " ++ data.worded
      | none => [])

end LanguageClient
