import LanguageClient.Proofs.Client.Guards
import LanguageClient.Proofs.Client.Subjects
import LanguageClient.Proofs.Protocol.Records

/-!
# One name for a document

A document is named by a path in the editor and by a URI on the wire.  All that a client says of a
path is said of one URI, two paths have the same URI exactly if they are the same file seen from the
working directory, and diagnostics for that URI come back under the path.  Main statement:
`documents_identified`.

```text
path ── absolute ──▸ normal path ── ofPath ──▸ URI     opening, changing, closing, hovers
                     normal path ◂── toPath ── URI     diagnostics
```

## Strategy

Outwards, the URI stands in the first field of the first field of all that is said of documents
(`documentUri?_build`).  Inwards, it is read by `toPath`, which undoes `ofPath` on normal paths
(`toPath_ofPath`, `absolute_spec`).
-/

namespace LanguageClient

/-! ## The URI in what is said -/

/-- The URI of the document that some parameters are about. -/
def Json.documentUri? (params : Json) : Option Json :=
  (params.member? "textDocument").bind (·.member? "uri")

/-- Parameters whose document is named first. -/
theorem documentUri?_build {params document : Layout}
    (hparams : params.Sends "text_document" "textDocument") (hdocument : document.Sends "uri" "uri")
    (uri : Text) (rest rest' : List (Text × Payload)) :
    Json.documentUri? (params.build
      (("text_document", document.build (("uri", .text uri) :: rest')) :: rest)).encode =
        some (.str uri) := by
  have houter : (params.build
      (("text_document", document.build (("uri", .text uri) :: rest')) :: rest)).encode.member?
        "textDocument" = some (document.build (("uri", .text uri) :: rest')).encode :=
    Layout.member?_build_required _ hparams (List.find?_cons_of_pos (by simp)) rfl
  have hinner : (document.build (("uri", .text uri) :: rest')).encode.member? "uri" =
      some (.str uri) :=
    Layout.member?_build_required _ hdocument (List.find?_cons_of_pos (by simp)) rfl
  rw [Json.documentUri?, houter]
  exact hinner

namespace Client

open LanguageClient.Connection LanguageClient.Path

variable {σ : Type} [Peer σ]

/-! ## The URI of a path -/

/-- The calls about a path that are past their guards write one message each, and its document is
named by this URI. -/
def Addresses (c : Client (Watched σ)) (path uri : Text) : Prop :=
  ∀ call, call.path? = some path → (call.isRequest = true → c.offersHover = true) →
    ∃ method params outcome, call.method? = some method ∧
      (c.eventOf call).writes = [(Frame.encode (.obj (c.message call method params)), outcome)] ∧
        params.documentUri? = some (.str uri)

omit [Peer σ] in
/-- What is said of a document names it by its URI. -/
theorem aboutDocument_uri {c : Client (Watched σ)} {call : Call} {path uri : Text}
    (hpath : call.path? = some path) (huri : c.uri? path = some (.text uri)) :
    ∃ params, c.aboutDocument call = some params ∧
      params.encode.documentUri? = some (.str uri) := by
  cases call with
  | openDocument | changeDocument | closeDocument | hover =>
      cases hpath
      rw [aboutDocument, huri]
      exact ⟨_, rfl, documentUri?_build (by decide +kernel) (by decide +kernel) uri _ _⟩
  | _ => cases hpath

theorem addresses_of_uri? {c : Client (Watched σ)} (hopen : c.isOpen) {path uri : Text}
    (huri : c.uri? path = some (.text uri)) : c.Addresses path uri := by
  intro call hpath hhover
  obtain ⟨params, habout, hdocument⟩ := aboutDocument_uri hpath huri
  obtain ⟨method, hspeaks⟩ : ∃ method,
      (c.eventOf call).before.says? (c.eventOf call).call = some (method, params.encode) := by
    show ∃ method, c.says? call = some (method, params.encode)
    cases call with
    | openDocument | changeDocument | closeDocument =>
        rw [says?, if_pos hopen, habout]
        exact ⟨_, rfl⟩
    | hover =>
        rw [says?, if_pos ⟨hopen, hhover rfl⟩, habout]
        exact ⟨_, rfl⟩
    | _ => cases hpath
  obtain ⟨outcome, hwrites⟩ := Event.writes_of_says? (c.eventOf_happens call) hspeaks
  exact ⟨method, params.encode, outcome, (allows_of_says? hspeaks).1, hwrites, hdocument⟩

omit [Peer σ] in
/-- The URI of a name seen from the working directory, and what it is read as. -/
theorem uri?_of_isName {c : Client (Watched σ)} (hcwd : isAbsolute c.workingDirectory = true)
    (hname : IsName c.workingDirectory) {path : Text} (hpath : IsName path) :
    ∃ uri, Uri.ofPath (absolute c.workingDirectory path) = .ok uri ∧
      c.uri? path = some (.text uri) ∧
        Uri.toPath uri = .ok (.ok (absolute c.workingDirectory path)) := by
  obtain ⟨habsolute, hname, hnormal⟩ := absolute_spec hcwd hname hpath
  obtain ⟨uri, huri, hread⟩ := Uri.toPath_ofPath habsolute hname
  rw [hnormal] at hread
  exact ⟨uri, huri, by rw [uri?, huri]; rfl, hread⟩

/-- **One name for a document.**  In an open session, for all paths that bytes spell: opening,
changing and closing a document and asking for hovers name it by one and the same URI.  Two paths have
the same URI if and only if they are the same absolute path, and diagnostics for the URI come back
under that path, with a list or without one. -/
theorem documents_identified {c : Client (Watched σ)} (hopen : c.isOpen)
    (hcwd : isAbsolute c.workingDirectory = true) (hname : IsName c.workingDirectory)
    {p q : Text} (hp : IsName p) (hq : IsName q) :
    ∃ uri uri', Uri.ofPath (absolute c.workingDirectory p) = .ok uri ∧
      c.Addresses p uri ∧ c.Addresses q uri' ∧
      (uri = uri' ↔ absolute c.workingDirectory p = absolute c.workingDirectory q) ∧
      ∀ m decoded, Message.Reports m uri decoded → (c.eventOf .poll).taken? = some m →
        (c.eventOf .poll).result =
          .ok (.event (some (diagnosticsOf (absolute c.workingDirectory p) decoded))) := by
  obtain ⟨uri, hofPath, huri, hread⟩ := uri?_of_isName hcwd hname hp
  obtain ⟨uri', hofPath', huri', hread'⟩ := uri?_of_isName hcwd hname hq
  refine ⟨uri, uri', hofPath, addresses_of_uri? hopen huri, addresses_of_uri? hopen huri',
    ⟨?_, ?_⟩, ?_⟩
  · rintro rfl
    exact Except.ok.inj (Except.ok.inj (hread.symm.trans hread'))
  · intro hsame
    rw [hsame, hofPath'] at hofPath
    exact (Except.ok.inj hofPath).symm
  · intro m decoded hreports htaken
    rw [Event.result_of_taken? (c.eventOf_happens .poll) htaken,
      interpret_of_reports hreports hread]
    rfl

/-- Diagnostics that find nothing to say about a document. -/
def nothingWrong : Members :=
  [("method", .ofString "textDocument/publishDiagnostics"),
    ("params", .object [("uri", .ofString "file:///WS/a.py"), ("diagnostics", .arr [])])]

/-- A client in an open session that has not looked at them yet. -/
def atWork : Client (Watched ScriptedServer) :=
  let c := attach (.of (ScriptedServer.start ⟨[], []⟩)) 1 "/WS" .zero 1
  { c with
    phase := .initialized
    isInitialized := true
    connection := { c.connection with inbox := [nothingWrong] } }

/-- Two ways to write one path. -/
theorem documents_identified_atWork :
    ∃ uri, atWork.Addresses "./a.py" uri ∧ atWork.Addresses "b/../a.py" uri ∧
      (atWork.eventOf .poll).result = .ok (.event (some (diagnosticsOf "/WS/a.py"
        ⟨.ofString "file:///WS/a.py", some [], none⟩))) := by
  have hname : ∀ {t : Text} (bytes : Bytes), Utf8.decodeName bytes = t → IsName t :=
    fun bytes h => ⟨bytes, h⟩
  obtain ⟨uri, uri', hofPath, hp, hq, hsame, hpolled⟩ := documents_identified (c := atWork)
    (p := "./a.py") (q := "b/../a.py") ⟨rfl, rfl⟩ (by decide +kernel)
    (hname (Utf8.ofChars "/WS".toList) (by decide +kernel))
    (hname (Utf8.ofChars "./a.py".toList) (by decide +kernel))
    (hname (Utf8.ofChars "b/../a.py".toList) (by decide +kernel))
  have hpath : absolute atWork.workingDirectory "./a.py" = "/WS/a.py" := by decide +kernel
  have hsame := hsame.mpr (by decide +kernel)
  have huri : uri = "file:///WS/a.py" := by
    have hcomputed : (Uri.ofPath "/WS/a.py").toOption = some "file:///WS/a.py" := by decide +kernel
    rw [← hpath, hofPath] at hcomputed
    exact Option.some.inj hcomputed
  have hreports : Message.Reports nothingWrong uri ⟨.ofString "file:///WS/a.py", some [], none⟩ := by
    rw [huri]
    exact ⟨rfl, by decide +kernel, _, rfl, rfl, rfl⟩
  refine ⟨uri, hp, hsame ▸ hq, ?_⟩
  rw [← hpath]
  exact hpolled nothingWrong _ hreports rfl

end Client

end LanguageClient
