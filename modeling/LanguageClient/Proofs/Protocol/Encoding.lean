import LanguageClient.Proofs.Protocol.Decoding
import LanguageClient.Proofs.Protocol.Records

/-!
# Encoding and decoding

The structures that are read from documents are also written to them: `payload` is what the editor
hands to the encoder.  The encoder knows no structure, it renames fields and leaves out empty ones;
the decoders are written by hand.  On structures that fit, decoding undoes encoding.

## Strategy

A structure has its fields from the document that it is encoded as (the `isOf_payload` lemmas), and
what has its fields from a document and fits is what the document is decoded to.  That no null is
written but inside members of a free form (the `nullOnlyIn_payload` lemmas) is seen field by field
too.
-/

namespace LanguageClient

open Payload (ofJson)

variable {sense : Sense} {free : List Text}

/-! ## Payloads -/

def Position.payload (p : Position) : Payload :=
  Layout.position.build [("line", ofJson p.line), ("character", ofJson p.character)]

def Range.payload (r : Range) : Payload :=
  Layout.range.build [("start", r.start.payload), ("end", r.stop.payload)]

def Fragment.payload (f : Fragment) : Payload :=
  Layout.fragment.build
    [("value", ofJson f.value), ("kind", (f.kind.map ofJson).getD .null),
      ("language", (f.language.map ofJson).getD .null)]

def Contents.payload : Contents → Payload
  | one f => f.payload
  | many fragments => .list (fragments.map Fragment.payload)

def Hover.payload (h : Hover) : Payload :=
  Layout.hover.build
    [("contents", h.contents.payload), ("range", (h.range.map Range.payload).getD .null)]

def Diagnostic.payload (d : Diagnostic) : Payload :=
  Layout.diagnostic.build
    [("range", d.range.payload), ("message", ofJson d.message),
      ("severity", (d.severity.map ofJson).getD .null), ("code", (d.code.map ofJson).getD .null),
      ("source", (d.source.map ofJson).getD .null), ("tags", (d.tags.map ofJson).getD .null),
      ("related_information", (d.relatedInformation.map ofJson).getD .null)]

def PublishDiagnostics.payload (p : PublishDiagnostics) : Payload :=
  Layout.publishDiagnostics.build
    [("uri", ofJson p.uri),
      ("diagnostics", (p.diagnostics.map fun all => .list (all.map Diagnostic.payload)).getD .null),
      ("version", (p.version.map ofJson).getD .null)]

def ResponseError.payload (e : ResponseError) : Payload :=
  Layout.responseError.build
    [("code", ofJson e.code), ("message", ofJson e.message),
      ("data", (e.data.map ofJson).getD .null)]

/-! ## Values -/

namespace Json

variable {v : Json}

theorem IsText.ne_null (h : v.IsText) : v ≠ .null := by
  obtain ⟨t, rfl⟩ := h
  simp

theorem ne_null_of_integer? {n : Int} (h : sense.integer? v = some n) : v ≠ .null := by
  rintro rfl
  cases sense <;> cases h

theorem IsInteger.ne_null (h : v.IsInteger sense) : v ≠ .null := by
  obtain ⟨n, hn⟩ := h
  exact ne_null_of_integer? hn

theorem IsNatural.ne_null (h : v.IsNatural sense) : v ≠ .null := by
  obtain ⟨n, hn, -⟩ := h
  exact ne_null_of_integer? hn

end Json

namespace Layout

variable {layout : Layout} {wire : Text} {given : List (Text × Payload)}

theorem Sends.wireName_eq {name : Text} (h : layout.Sends name wire) :
    Payload.wireName name = wire :=
  h.2.2

theorem member?_ofJson (name : Text) (hsends : layout.Sends name wire) {v : Json}
    (hgiven : given.find? (fun entry => decide (entry.1 = name)) = some (name, ofJson v))
    (hnull : v ≠ .null) : (layout.build given).encode.member? wire = some v := by
  rw [member?_build_required name hsends hgiven (Payload.isNull_ofJson_eq_false hnull),
    Payload.encode_ofJson]

theorem optionally_ofJson (name : Text) (hsends : layout.Sends name wire) {x : Option Json}
    (hgiven : given.find? (fun entry => decide (entry.1 = name)) =
      some (name, (x.map ofJson).getD .null))
    (hnull : ∀ y ∈ x, y ≠ .null) :
    (layout.build given).encode.Optionally wire (fun y part => y = part) x :=
  optionally_build name hsends hgiven fun y hy =>
    ⟨Payload.isNull_ofJson_eq_false (hnull y hy), (Payload.encode_ofJson y).symm⟩

/-! The fields are called on the wire as they are in the records, but for the only one whose name
has two words. -/

theorem position_sends : ∀ name ∈ (["line", "character"] : List Text),
    position.Sends name name := by
  decide

theorem range_sends : ∀ name ∈ (["start", "end"] : List Text), range.Sends name name := by
  decide

theorem fragment_sends : ∀ name ∈ (["value", "kind", "language"] : List Text),
    fragment.Sends name name := by
  decide

theorem hover_sends : ∀ name ∈ (["contents", "range"] : List Text), hover.Sends name name := by
  decide

theorem diagnostic_sends : ∀ name ∈ (["range", "message", "severity", "code", "source", "tags"] :
    List Text), diagnostic.Sends name name := by
  decide

theorem diagnostic_sends_related :
    diagnostic.Sends "related_information" "relatedInformation" := by
  decide

theorem publishDiagnostics_sends : ∀ name ∈ (["uri", "diagnostics", "version"] : List Text),
    publishDiagnostics.Sends name name := by
  decide

theorem responseError_sends : ∀ name ∈ (["code", "message", "data"] : List Text),
    responseError.Sends name name := by
  decide

end Layout

/-! ## Fields of encoded structures -/

theorem Position.isOf_payload {p : Position} (h : p.Fits sense) : p.IsOf p.payload.encode where
  line := Layout.member?_ofJson "line" (Layout.position_sends _ (by simp)) (by simp) h.line.ne_null
  character := Layout.member?_ofJson "character" (Layout.position_sends _ (by simp))
    (by simp [Text.ofString_inj]) h.character.ne_null

theorem Range.isOf_payload {r : Range} (h : r.Fits sense) : r.IsOf r.payload.encode where
  start := ⟨_, Layout.member?_build_required "start" (Layout.range_sends _ (by simp)) (by simp) rfl,
    Position.isOf_payload h.start⟩
  stop := ⟨_, Layout.member?_build_required "end" (Layout.range_sends _ (by simp))
    (by simp [Text.ofString_inj]) rfl, Position.isOf_payload h.stop⟩

theorem Fragment.isOf_payload {f : Fragment} (h : f.Fits) : f.IsOf f.payload.encode := by
  apply IsOf.object
  · exact Layout.member?_ofJson "value" (Layout.fragment_sends _ (by simp)) (by simp)
      h.value.ne_null
  · exact Layout.optionally_ofJson "kind" (Layout.fragment_sends _ (by simp))
      (by simp [Text.ofString_inj]) fun x hx => (h.kind x hx).ne_null
  · exact Layout.optionally_ofJson "language" (Layout.fragment_sends _ (by simp))
      (by simp [Text.ofString_inj]) fun x hx => (h.language x hx).ne_null

theorem Contents.isNull_payload (c : Contents) : c.payload.isNull = false := by
  cases c <;> rfl

theorem Contents.isOf_payload {c : Contents} (h : ∀ f ∈ c.fragments, f.Fits) :
    c.IsOf c.payload.encode := by
  cases c with
  | one f => exact .one (Fragment.isOf_payload (h f List.mem_cons_self))
  | many fragments =>
      rw [payload, Payload.encode_list_map]
      refine .many (List.forall₂_map_left_iff.mpr (List.forall₂_same.mpr ?_))
      intro f hf
      exact Fragment.isOf_payload (h f hf)

theorem Hover.isOf_payload {h : Hover} (hfits : h.Fits sense) : h.IsOf h.payload.encode where
  contents := ⟨_, Layout.member?_build_required "contents" (Layout.hover_sends _ (by simp))
    (by simp) h.contents.isNull_payload, Contents.isOf_payload hfits.contents⟩
  range := Layout.optionally_build "range" (Layout.hover_sends _ (by simp))
    (by simp [Text.ofString_inj]) fun r hr => ⟨rfl, Range.isOf_payload (hfits.range r hr)⟩

theorem Diagnostic.isOf_payload {d : Diagnostic} (h : d.Fits sense) : d.IsOf d.payload.encode where
  range := ⟨_, Layout.member?_build_required "range" (Layout.diagnostic_sends _ (by simp)) (by simp)
    rfl, Range.isOf_payload h.range⟩
  message := Layout.member?_ofJson "message" (Layout.diagnostic_sends _ (by simp))
    (by simp [Text.ofString_inj]) h.message.ne_null
  severity := by
    apply Layout.optionally_ofJson "severity" (Layout.diagnostic_sends _ (by simp))
      (by simp [Text.ofString_inj])
    intro x hx
    obtain ⟨n, hn, -⟩ := h.severity x hx
    exact Json.ne_null_of_integer? hn
  code := Layout.optionally_ofJson "code" (Layout.diagnostic_sends _ (by simp))
    (by simp [Text.ofString_inj])
    fun x hx => (h.code x hx).elim Json.IsInteger.ne_null Json.IsText.ne_null
  source := Layout.optionally_ofJson "source" (Layout.diagnostic_sends _ (by simp))
    (by simp [Text.ofString_inj]) fun x hx => (h.source x hx).ne_null
  tags := by
    apply Layout.optionally_ofJson "tags" (Layout.diagnostic_sends _ (by simp))
      (by simp [Text.ofString_inj])
    intro x hx
    obtain ⟨items, rfl, -⟩ := h.tags x hx
    simp
  relatedInformation := by
    apply Layout.optionally_ofJson "related_information" Layout.diagnostic_sends_related
      (by simp [Text.ofString_inj])
    intro x hx
    obtain ⟨items, rfl⟩ := h.relatedInformation x hx
    simp

theorem Diagnostic.areOf_payload {diagnostics : List Diagnostic}
    (h : ∀ d ∈ diagnostics, d.Fits sense) :
    AreOf diagnostics (Payload.list (diagnostics.map payload)).encode := by
  refine ⟨_, Payload.encode_list_map payload diagnostics, ?_⟩
  refine List.forall₂_map_left_iff.mpr (List.forall₂_same.mpr ?_)
  intro d hd
  exact Diagnostic.isOf_payload (h d hd)

theorem PublishDiagnostics.isOf_payload {p : PublishDiagnostics} (h : p.Fits sense) :
    p.IsOf p.payload.encode where
  uri := Layout.member?_ofJson "uri" (Layout.publishDiagnostics_sends _ (by simp)) (by simp)
    h.uri.ne_null
  diagnostics := Layout.optionally_build "diagnostics" (Layout.publishDiagnostics_sends _ (by simp))
    (by simp [Text.ofString_inj])
    fun all hall => ⟨rfl, Diagnostic.areOf_payload (h.diagnostics all hall)⟩
  version := Layout.optionally_ofJson "version" (Layout.publishDiagnostics_sends _ (by simp))
    (by simp [Text.ofString_inj]) fun x hx => (h.version x hx).ne_null

theorem ResponseError.isOf_payload {e : ResponseError} (h : e.Fits sense) :
    e.IsOf e.payload.encode where
  code := Layout.member?_ofJson "code" (Layout.responseError_sends _ (by simp)) (by simp)
    h.code.ne_null
  message := Layout.member?_ofJson "message" (Layout.responseError_sends _ (by simp))
    (by simp [Text.ofString_inj]) h.message.ne_null
  data := Layout.optionally_ofJson "data" (Layout.responseError_sends _ (by simp))
    (by simp [Text.ofString_inj]) h.data

/-! ## Nulls in encoded structures -/

namespace Json

variable {v : Json}

theorem IsText.nullOnlyIn (h : v.IsText) : v.NullOnlyIn free := by
  obtain ⟨t, rfl⟩ := h
  exact .str t

theorem nullOnlyIn_of_integer? {n : Int} (h : sense.integer? v = some n) : v.NullOnlyIn free := by
  cases v with
  | int n => exact .int n
  | float x => exact .float x
  | _ => cases sense <;> cases h

theorem IsInteger.nullOnlyIn (h : v.IsInteger sense) : v.NullOnlyIn free := by
  obtain ⟨n, hn⟩ := h
  exact nullOnlyIn_of_integer? hn

theorem IsNatural.nullOnlyIn (h : v.IsNatural sense) : v.NullOnlyIn free := by
  obtain ⟨n, hn, -⟩ := h
  exact nullOnlyIn_of_integer? hn

theorem nullOnlyIn_integers (h : ∃ items, v = .arr items ∧ ∀ item ∈ items, item.IsInteger sense) :
    v.NullOnlyIn free := by
  obtain ⟨items, rfl, hitems⟩ := h
  exact .arr fun item hitem => (hitems item hitem).nullOnlyIn

theorem nullOnlyIn_ofJson (h : v.NullOnlyIn free) : (ofJson v).encode.NullOnlyIn free := by
  rwa [Payload.encode_ofJson]

/-- A field that may be empty. -/
theorem nullOnlyIn_optional {α : Type} {payload : α → Payload} {x : Option α}
    (h : ∀ y ∈ x, (payload y).encode.NullOnlyIn free)
    (hheld : ((x.map payload).getD .null).isNull = false) :
    ((x.map payload).getD .null).encode.NullOnlyIn free := by
  cases x with
  | none => cases hheld
  | some y => exact h y rfl

theorem nullOnlyIn_list {α : Type} {payload : α → Payload} {xs : List α}
    (h : ∀ x ∈ xs, (payload x).encode.NullOnlyIn free) :
    (Payload.list (xs.map payload)).encode.NullOnlyIn free := by
  rw [Payload.encode_list_map]
  exact .arr (List.forall_mem_map.mpr h)

end Json

open Json

theorem Position.nullOnlyIn_payload {p : Position} (h : p.Fits sense) :
    p.payload.encode.NullOnlyIn free := by
  apply Layout.nullOnlyIn_build (by simp [Layout.position, Field.required])
  simp only [List.forall_mem_cons, List.not_mem_nil, false_implies, implies_true, and_true]
  exact ⟨fun _ _ => nullOnlyIn_ofJson h.line.nullOnlyIn,
    fun _ _ => nullOnlyIn_ofJson h.character.nullOnlyIn⟩

theorem Range.nullOnlyIn_payload {r : Range} (h : r.Fits sense) :
    r.payload.encode.NullOnlyIn free := by
  apply Layout.nullOnlyIn_build (by simp [Layout.range, Field.required])
  simp only [List.forall_mem_cons, List.not_mem_nil, false_implies, implies_true, and_true]
  exact ⟨fun _ _ => Position.nullOnlyIn_payload h.start,
    fun _ _ => Position.nullOnlyIn_payload h.stop⟩

theorem Fragment.nullOnlyIn_payload {f : Fragment} (h : f.Fits) :
    f.payload.encode.NullOnlyIn free := by
  apply Layout.nullOnlyIn_build (by simp [Layout.fragment, Field.required, Field.optional])
  simp only [List.forall_mem_cons, List.not_mem_nil, false_implies, implies_true, and_true]
  refine ⟨fun _ _ => nullOnlyIn_ofJson h.value.nullOnlyIn, ?kind, ?language⟩
  case kind =>
    exact fun hheld _ => nullOnlyIn_optional
      (fun x hx => nullOnlyIn_ofJson (h.kind x hx).nullOnlyIn) hheld
  case language =>
    exact fun hheld _ => nullOnlyIn_optional
      (fun x hx => nullOnlyIn_ofJson (h.language x hx).nullOnlyIn) hheld

theorem Contents.nullOnlyIn_payload {c : Contents} (h : ∀ f ∈ c.fragments, f.Fits) :
    c.payload.encode.NullOnlyIn free := by
  cases c with
  | one f => exact Fragment.nullOnlyIn_payload (h f List.mem_cons_self)
  | many fragments => exact nullOnlyIn_list fun f hf => Fragment.nullOnlyIn_payload (h f hf)

theorem Hover.nullOnlyIn_payload {h : Hover} (hfits : h.Fits sense) :
    h.payload.encode.NullOnlyIn free := by
  apply Layout.nullOnlyIn_build (by simp [Layout.hover, Field.required, Field.optional])
  simp only [List.forall_mem_cons, List.not_mem_nil, false_implies, implies_true, and_true]
  exact ⟨fun _ _ => Contents.nullOnlyIn_payload hfits.contents, fun hheld _ => nullOnlyIn_optional
    (fun r hr => Range.nullOnlyIn_payload (hfits.range r hr)) hheld⟩

theorem Diagnostic.nullOnlyIn_payload {d : Diagnostic} (h : d.Fits sense) :
    d.payload.encode.NullOnlyIn ["relatedInformation"] := by
  apply Layout.nullOnlyIn_build (by simp [Layout.diagnostic, Field.required, Field.optional])
  simp only [List.forall_mem_cons, List.not_mem_nil, false_implies, implies_true, and_true]
  refine ⟨fun _ _ => Range.nullOnlyIn_payload h.range,
    fun _ _ => nullOnlyIn_ofJson h.message.nullOnlyIn, ?severity, ?code, ?source, ?tags, ?related⟩
  case severity =>
    refine fun hheld _ => nullOnlyIn_optional (fun x hx => nullOnlyIn_ofJson ?_) hheld
    obtain ⟨n, hn, -⟩ := h.severity x hx
    exact nullOnlyIn_of_integer? hn
  case code =>
    exact fun hheld _ => nullOnlyIn_optional (fun x hx => nullOnlyIn_ofJson
      ((h.code x hx).elim IsInteger.nullOnlyIn IsText.nullOnlyIn)) hheld
  case source =>
    exact fun hheld _ => nullOnlyIn_optional
      (fun x hx => nullOnlyIn_ofJson (h.source x hx).nullOnlyIn) hheld
  case tags =>
    exact fun hheld _ => nullOnlyIn_optional
      (fun x hx => nullOnlyIn_ofJson (nullOnlyIn_integers (h.tags x hx))) hheld
  case related =>
    rw [Layout.diagnostic_sends_related.wireName_eq]
    exact fun _ hfree => absurd List.mem_cons_self hfree

theorem PublishDiagnostics.nullOnlyIn_payload {p : PublishDiagnostics} (h : p.Fits sense) :
    p.payload.encode.NullOnlyIn ["relatedInformation"] := by
  apply Layout.nullOnlyIn_build
    (by simp [Layout.publishDiagnostics, Field.required, Field.optional])
  simp only [List.forall_mem_cons, List.not_mem_nil, false_implies, implies_true, and_true]
  refine ⟨fun _ _ => nullOnlyIn_ofJson h.uri.nullOnlyIn, ?diagnostics, ?version⟩
  case diagnostics =>
    refine fun hheld _ => nullOnlyIn_optional (fun all hall => nullOnlyIn_list ?_) hheld
    exact fun d hd => Diagnostic.nullOnlyIn_payload (h.diagnostics all hall d hd)
  case version =>
    exact fun hheld _ => nullOnlyIn_optional
      (fun x hx => nullOnlyIn_ofJson (h.version x hx).nullOnlyIn) hheld

theorem ResponseError.nullOnlyIn_payload {e : ResponseError} (h : e.Fits sense) :
    e.payload.encode.NullOnlyIn ["data"] := by
  apply Layout.nullOnlyIn_build (by simp [Layout.responseError, Field.required, Field.optional])
  simp only [List.forall_mem_cons, List.not_mem_nil, false_implies, implies_true, and_true]
  refine ⟨fun _ _ => nullOnlyIn_ofJson h.code.nullOnlyIn,
    fun _ _ => nullOnlyIn_ofJson h.message.nullOnlyIn, ?data⟩
  rw [(Layout.responseError_sends "data" (by simp)).wireName_eq]
  exact fun _ hfree => absurd List.mem_cons_self hfree

/-! ## The round trip -/

/-- **Decoding undoes encoding**, on all structures that fit.  What is encoded has no null but
inside the members of a free form. -/
theorem decode_encode (sense : Sense) :
    (∀ h : Hover, h.Fits sense →
      Hover.decode h.payload.encode = .ok h ∧ h.payload.encode.NullOnlyIn []) ∧
    (∀ p : PublishDiagnostics, p.Fits sense →
      PublishDiagnostics.decode p.payload.encode = .ok p ∧
        p.payload.encode.NullOnlyIn ["relatedInformation"]) ∧
    (∀ e : ResponseError, e.Fits sense →
      ResponseError.decode e.payload.encode = .ok e ∧ e.payload.encode.NullOnlyIn ["data"]) := by
  refine ⟨?_, ?_, ?_⟩
  · intro h hfits
    exact ⟨Hover.decodes.eq_ok_iff.mpr ⟨Hover.isOf_payload hfits, hfits.wide⟩,
      Hover.nullOnlyIn_payload hfits⟩
  · intro p hfits
    exact ⟨PublishDiagnostics.decodes.eq_ok_iff.mpr
      ⟨PublishDiagnostics.isOf_payload hfits, hfits.wide⟩,
      PublishDiagnostics.nullOnlyIn_payload hfits⟩
  · intro e hfits
    exact ⟨ResponseError.decodes.eq_ok_iff.mpr ⟨ResponseError.isOf_payload hfits, hfits.wide⟩,
      ResponseError.nullOnlyIn_payload hfits⟩

/-- A hover with a list of fragments and a range. -/
def sampleHover : Hover where
  contents := .many
    [⟨.str "f(x)", none, some (.str "python")⟩, ⟨.str "Squares.", some (.str "markdown"), none⟩]
  range := some ⟨⟨.int 3, .int 4⟩, ⟨.int 3, .int 5⟩⟩

/-- A list with one diagnostic that has all its fields. -/
def sampleReport : PublishDiagnostics where
  uri := .str "file:///a.py"
  diagnostics := some [{
    range := ⟨⟨.int 0, .int 7⟩, ⟨.int 0, .int 9⟩⟩
    message := .str "unused"
    severity := some (.int 2)
    code := some (.int 401)
    source := some (.str "lint")
    tags := some (.arr [.int 1])
    relatedInformation := some (.arr [.null]) }]
  version := some (.int 2)

def sampleError : ResponseError where
  code := .int (-32601)
  message := .str "no such method"
  data := some (.obj [(Text.ofString "retry", .bool false)])

theorem sampleHover_fits : sampleHover.Fits .narrow where
  contents := List.forall_mem_cons.mpr ⟨⟨⟨_, rfl⟩, by simp, by simp [Json.IsText]⟩,
    List.forall_mem_cons.mpr ⟨⟨⟨_, rfl⟩, by simp [Json.IsText], by simp⟩, by simp⟩⟩
  range := by
    rintro _ ⟨⟩
    exact ⟨⟨⟨3, rfl, by decide⟩, ⟨4, rfl, by decide⟩⟩, ⟨⟨3, rfl, by decide⟩, ⟨5, rfl, by decide⟩⟩⟩

theorem sampleReport_fits : sampleReport.Fits .narrow where
  uri := ⟨_, rfl⟩
  diagnostics := by
    rintro _ ⟨⟩
    refine List.forall_mem_singleton.mpr ?_
    exact {
      range := ⟨⟨⟨0, rfl, by decide⟩, ⟨7, rfl, by decide⟩⟩,
        ⟨⟨0, rfl, by decide⟩, ⟨9, rfl, by decide⟩⟩⟩
      message := ⟨_, rfl⟩
      severity := by
        rintro _ ⟨⟩
        exact ⟨2, rfl, by decide, by decide⟩
      code := by
        rintro _ ⟨⟩
        exact Or.inl ⟨401, rfl⟩
      source := by
        rintro _ ⟨⟩
        exact ⟨_, rfl⟩
      tags := by
        rintro _ ⟨⟩
        exact ⟨_, rfl, List.forall_mem_singleton.mpr ⟨1, rfl⟩⟩
      relatedInformation := by
        rintro _ ⟨⟩
        exact ⟨_, rfl⟩ }
  version := by
    rintro _ ⟨⟩
    exact ⟨2, rfl⟩

theorem sampleError_fits : sampleError.Fits .narrow where
  code := ⟨-32601, rfl⟩
  message := ⟨_, rfl⟩
  data := by
    rintro _ ⟨⟩
    simp

theorem decode_encode_samples :
    Hover.decode sampleHover.payload.encode = .ok sampleHover ∧
      PublishDiagnostics.decode sampleReport.payload.encode = .ok sampleReport ∧
      ResponseError.decode sampleError.payload.encode = .ok sampleError := by
  obtain ⟨hhovers, hreports, herrors⟩ := decode_encode .narrow
  exact ⟨(hhovers sampleHover sampleHover_fits).1, (hreports sampleReport sampleReport_fits).1,
    (herrors sampleError sampleError_fits).1⟩

end LanguageClient
