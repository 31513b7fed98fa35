import LanguageClient.Proofs.Json.Members

/-!
# What a structure has of a document

Every structure that is read has its fields from the members of a document, and `IsOf` says which.
A structure is read from a document exactly if it is of the document (the `read_eq_ok_iff` lemmas),
so nothing is lost, nothing is invented, and a list has as many items as were sent, in their order.

```text
field                      member          absent or null
line, character            as it stands    not read
severity, code, tags ...   as it stands    nothing
range of a hover           read            nothing
list of diagnostics        each read       nothing, while [] is an empty list
contents of a hover        read, or each   not read
```
-/

namespace LanguageClient

variable {v : Json}

/-! ## Places -/

structure Position.IsOf (p : Position) (v : Json) : Prop where
  line : v.member? "line" = some p.line
  character : v.member? "character" = some p.character

theorem Position.read_eq_ok_iff {p : Position} : read v = .ok p ↔ p.IsOf v := by
  simp only [read, Stopping.bind_eq_ok_iff, Json.required_eq_ok_iff, Stopping.pure_eq_ok_iff]
  constructor
  · rintro ⟨line, hline, character, hcharacter, rfl⟩
    exact ⟨hline, hcharacter⟩
  · intro h
    exact ⟨_, h.line, _, h.character, rfl⟩

structure Range.IsOf (r : Range) (v : Json) : Prop where
  start : ∃ part, v.member? "start" = some part ∧ r.start.IsOf part
  stop : ∃ part, v.member? "end" = some part ∧ r.stop.IsOf part

theorem Range.read_eq_ok_iff {r : Range} : read v = .ok r ↔ r.IsOf v := by
  simp only [read, Stopping.bind_eq_ok_iff, Json.required_eq_ok_iff, Position.read_eq_ok_iff,
    Stopping.pure_eq_ok_iff]
  constructor
  · rintro ⟨part, hpart, start, hstart, part', hpart', stop, hstop, rfl⟩
    exact ⟨⟨part, hpart, hstart⟩, ⟨part', hpart', hstop⟩⟩
  · intro h
    obtain ⟨part, hpart, hstart⟩ := h.start
    obtain ⟨part', hpart', hstop⟩ := h.stop
    exact ⟨part, hpart, _, hstart, part', hpart', _, hstop, rfl⟩

/-! ## Hovers -/

/-- A fragment is a text, or what an object says of it. -/
inductive Fragment.IsOf : Fragment → Json → Prop where
  | text (t : Text) : IsOf ⟨.str t, none, none⟩ (.str t)
  | object {f : Fragment} {v : Json} (hvalue : v.member? "value" = some f.value)
      (hkind : v.Optionally "kind" (fun x part => x = part) f.kind)
      (hlanguage : v.Optionally "language" (fun x part => x = part) f.language) : IsOf f v

theorem Fragment.read_eq_ok_iff {f : Fragment} : read v = .ok f ↔ f.IsOf v := by
  cases v with
  | str t =>
      simp only [read, Stopping.pure_eq_ok_iff]
      constructor
      · rintro rfl
        exact .text t
      · intro h
        cases h with
        | text => rfl
        | object hvalue => cases hvalue
  | _ =>
      simp only [read, Stopping.bind_eq_ok_iff, Json.required_eq_ok_iff, Stopping.pure_eq_ok_iff]
      constructor
      · rintro ⟨value, hvalue, rfl⟩
        exact .object hvalue (Json.optional_eq_iff.mp rfl) (Json.optional_eq_iff.mp rfl)
      · intro h
        cases h with
        | object hvalue hkind hlanguage =>
            rw [Json.optional_eq_iff.mpr hkind, Json.optional_eq_iff.mpr hlanguage]
            exact ⟨_, hvalue, rfl⟩

/-- A single fragment stays single, and a list of them a list. -/
inductive Contents.IsOf : Contents → Json → Prop where
  | one {f : Fragment} {v : Json} (h : f.IsOf v) : IsOf (.one f) v
  | many {fragments : List Fragment} {items : List Json}
      (h : List.Forall₂ (fun item f => Fragment.IsOf f item) items fragments) :
      IsOf (.many fragments) (.arr items)

theorem Contents.read_eq_ok_iff {c : Contents} : read v = .ok c ↔ c.IsOf v := by
  cases v with
  | arr items =>
      simp only [read, Stopping.bind_eq_ok_iff, Stopping.mapM_eq_ok_iff, Fragment.read_eq_ok_iff,
        Stopping.pure_eq_ok_iff]
      constructor
      · rintro ⟨fragments, hfragments, rfl⟩
        exact .many hfragments
      · intro h
        cases h with
        | one h => cases h with | object hvalue => cases hvalue
        | many h => exact ⟨_, h, rfl⟩
  | _ =>
      simp only [read, Stopping.bind_eq_ok_iff, Fragment.read_eq_ok_iff, Stopping.pure_eq_ok_iff]
      constructor
      · rintro ⟨f, hf, rfl⟩
        exact .one hf
      · intro h
        cases h with
        | one h => exact ⟨_, h, rfl⟩

structure Hover.IsOf (h : Hover) (v : Json) : Prop where
  contents : ∃ part, v.member? "contents" = some part ∧ h.contents.IsOf part
  range : v.Optionally "range" Range.IsOf h.range

theorem Hover.read_eq_ok_iff {h : Hover} : read v = .ok h ↔ h.IsOf v := by
  simp only [read, Stopping.bind_eq_ok_iff, Json.required_eq_ok_iff, Contents.read_eq_ok_iff,
    Json.mapM_optional_eq_ok_iff fun part r => Range.read_eq_ok_iff (v := part) (r := r),
    Stopping.pure_eq_ok_iff]
  constructor
  · rintro ⟨part, hpart, contents, hcontents, range, hrange, rfl⟩
    exact ⟨⟨part, hpart, hcontents⟩, hrange⟩
  · intro hof
    obtain ⟨part, hpart, hcontents⟩ := hof.contents
    exact ⟨part, hpart, _, hcontents, _, hof.range, rfl⟩

/-! ## Diagnostics -/

structure Diagnostic.IsOf (d : Diagnostic) (v : Json) : Prop where
  range : ∃ part, v.member? "range" = some part ∧ d.range.IsOf part
  message : v.member? "message" = some d.message
  severity : v.Optionally "severity" (fun x part => x = part) d.severity
  code : v.Optionally "code" (fun x part => x = part) d.code
  source : v.Optionally "source" (fun x part => x = part) d.source
  tags : v.Optionally "tags" (fun x part => x = part) d.tags
  relatedInformation :
    v.Optionally "relatedInformation" (fun x part => x = part) d.relatedInformation

theorem Diagnostic.read_eq_ok_iff {d : Diagnostic} : read v = .ok d ↔ d.IsOf v := by
  simp only [read, Stopping.bind_eq_ok_iff, Json.required_eq_ok_iff, Range.read_eq_ok_iff,
    Stopping.pure_eq_ok_iff]
  constructor
  · rintro ⟨part, hpart, range, hrange, message, hmessage, rfl⟩
    have htaken : ∀ name : Text, v.Optionally name (fun x part => x = part) (v.optional name) :=
      fun name => Json.optional_eq_iff.mp rfl
    exact ⟨⟨part, hpart, hrange⟩, hmessage, htaken _, htaken _, htaken _, htaken _, htaken _⟩
  · intro h
    obtain ⟨part, hpart, hrange⟩ := h.range
    refine ⟨part, hpart, _, hrange, _, h.message, ?_⟩
    rw [Json.optional_eq_iff.mpr h.severity, Json.optional_eq_iff.mpr h.code,
      Json.optional_eq_iff.mpr h.source, Json.optional_eq_iff.mpr h.tags,
      Json.optional_eq_iff.mpr h.relatedInformation]

/-- A list of diagnostics has one for each item. -/
def Diagnostic.AreOf (diagnostics : List Diagnostic) (v : Json) : Prop :=
  ∃ items, v = .arr items ∧ List.Forall₂ (fun item d => Diagnostic.IsOf d item) items diagnostics

structure PublishDiagnostics.IsOf (p : PublishDiagnostics) (v : Json) : Prop where
  uri : v.member? "uri" = some p.uri
  diagnostics : v.Optionally "diagnostics" Diagnostic.AreOf p.diagnostics
  version : v.Optionally "version" (fun x part => x = part) p.version

/-- How a list of diagnostics is read. -/
def Diagnostic.readAll : Json → Except MemberError (List Diagnostic)
  | .arr items => items.mapM Diagnostic.read
  | _ => .error .notAnObject

theorem Diagnostic.readAll_eq_ok_iff (v : Json) (diagnostics : List Diagnostic) :
    readAll v = .ok diagnostics ↔ AreOf diagnostics v := by
  cases v with
  | arr items => simp [readAll, AreOf, Stopping.mapM_eq_ok_iff, Diagnostic.read_eq_ok_iff]
  | _ => simp [readAll, AreOf]

theorem PublishDiagnostics.read_eq_mapM (v : Json) :
    read v = (do
      let diagnostics ← (v.optional "diagnostics").mapM Diagnostic.readAll
      return ⟨← v.required "uri", diagnostics, v.optional "version"⟩) := by
  unfold read
  cases v.optional "diagnostics" with
  | none => rfl
  | some part =>
      cases part with
      | arr items =>
          have hread : (some (Json.arr items)).mapM Diagnostic.readAll =
              some <$> items.mapM Diagnostic.read := rfl
          rw [hread, bind_map_left]
          rfl
      | _ => rfl

theorem PublishDiagnostics.read_eq_ok_iff {p : PublishDiagnostics} : read v = .ok p ↔ p.IsOf v := by
  simp only [read_eq_mapM, Stopping.bind_eq_ok_iff, Json.required_eq_ok_iff,
    Json.mapM_optional_eq_ok_iff Diagnostic.readAll_eq_ok_iff, Stopping.pure_eq_ok_iff]
  constructor
  · rintro ⟨diagnostics, hdiagnostics, uri, huri, rfl⟩
    exact ⟨huri, hdiagnostics, Json.optional_eq_iff.mp rfl⟩
  · intro h
    refine ⟨_, h.diagnostics, _, h.uri, ?_⟩
    rw [Json.optional_eq_iff.mpr h.version]

/-! ## Capabilities and errors -/

structure ServerInfo.IsOf (i : ServerInfo) (v : Json) : Prop where
  name : v.member? "name" = some i.name
  version : v.Optionally "version" (fun x part => x = part) i.version

structure ServerCapabilities.IsOf (c : ServerCapabilities) (v : Json) : Prop where
  all : v = .obj c.all
  hoverProvider : v.Optionally "hoverProvider" (fun x part => x = part) c.hoverProvider

structure InitializeResult.IsOf (r : InitializeResult) (v : Json) : Prop where
  capabilities : ∃ part, v.member? "capabilities" = some part ∧ r.capabilities.IsOf part
  serverInfo : v.Optionally "serverInfo" ServerInfo.IsOf r.serverInfo

/-- How the name and the version of a server are read. -/
def ServerInfo.read (v : Json) : Except MemberError ServerInfo := do
  return ⟨← v.required "name", v.optional "version"⟩

theorem ServerInfo.read_eq_ok_iff {i : ServerInfo} : read v = .ok i ↔ i.IsOf v := by
  simp only [read, Stopping.bind_eq_ok_iff, Json.required_eq_ok_iff, Stopping.pure_eq_ok_iff]
  constructor
  · rintro ⟨name, hname, rfl⟩
    exact ⟨hname, Json.optional_eq_iff.mp rfl⟩
  · intro h
    refine ⟨_, h.name, ?_⟩
    rw [Json.optional_eq_iff.mpr h.version]

/-- How capabilities are read. -/
def ServerCapabilities.read : Json → Except MemberError ServerCapabilities
  | .obj members => .ok ⟨(Json.obj members).optional "hoverProvider", members⟩
  | _ => .error .notAnObject

theorem ServerCapabilities.read_eq_ok_iff {c : ServerCapabilities} : read v = .ok c ↔ c.IsOf v := by
  constructor
  · intro h
    cases v with
    | obj members =>
        obtain rfl := Except.ok.inj h
        exact ⟨rfl, Json.optional_eq_iff.mp rfl⟩
    | _ => cases h
  · rintro ⟨rfl, hprovider⟩
    rw [read, Json.optional_eq_iff.mpr hprovider]

theorem InitializeResult.read_eq_bind (v : Json) :
    read v = (do
      let capabilities ← ServerCapabilities.read (← v.required "capabilities")
      let serverInfo ← (v.optional "serverInfo").mapM ServerInfo.read
      return ⟨capabilities, serverInfo⟩) := by
  unfold read
  cases v.required "capabilities" with
  | error e => rfl
  | ok part => cases part <;> rfl

theorem InitializeResult.read_eq_ok_iff {r : InitializeResult} : read v = .ok r ↔ r.IsOf v := by
  simp only [read_eq_bind, Stopping.bind_eq_ok_iff, Json.required_eq_ok_iff,
    ServerCapabilities.read_eq_ok_iff,
    Json.mapM_optional_eq_ok_iff fun part i => ServerInfo.read_eq_ok_iff (v := part) (i := i),
    Stopping.pure_eq_ok_iff]
  constructor
  · rintro ⟨part, hpart, capabilities, hcapabilities, info, hinfo, rfl⟩
    exact ⟨⟨part, hpart, hcapabilities⟩, hinfo⟩
  · intro h
    obtain ⟨part, hpart, hcapabilities⟩ := h.capabilities
    exact ⟨part, hpart, _, hcapabilities, _, h.serverInfo, rfl⟩

structure ResponseError.IsOf (e : ResponseError) (v : Json) : Prop where
  code : v.member? "code" = some e.code
  message : v.member? "message" = some e.message
  data : v.Optionally "data" (fun x part => x = part) e.data

theorem ResponseError.read_eq_ok_iff {e : ResponseError} : read v = .ok e ↔ e.IsOf v := by
  simp only [read, Stopping.bind_eq_ok_iff, Json.required_eq_ok_iff, Stopping.pure_eq_ok_iff]
  constructor
  · rintro ⟨code, hcode, message, hmessage, rfl⟩
    exact ⟨hcode, hmessage, Json.optional_eq_iff.mp rfl⟩
  · intro h
    refine ⟨_, h.code, _, h.message, ?_⟩
    rw [Json.optional_eq_iff.mpr h.data]

end LanguageClient
