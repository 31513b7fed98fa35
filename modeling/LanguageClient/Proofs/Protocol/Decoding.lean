import LanguageClient.Proofs.Protocol.Fields
import LanguageClient.Proofs.Schema.Admission

/-!
# What is decoded

The schemas and the readers of the structures are written apart.  A schema admits just the documents
that a structure has its fields from, provided that the fields are what the protocol makes them
(`Fits`): numbers that are integers within their bounds, texts, and lists.  So a document that
passes the check is always read, and the only refusal is that of the check.

## Strategy

For every structure, `admitsIn_iff` says that its schema admits a document exactly if some structure
is of the document and fits.  A schema is put together from members, lists and choices, and so are
these equivalences: `required_iff` and `optionally_iff` are for members, `forall_items_iff` for
lists.  They hold in both senses of an integer; the check takes the wide one.
-/

namespace LanguageClient

variable {sense : Sense} {v : Json}

/-! ## Fields that fit -/

/-- The value is an integer. -/
def Json.IsInteger (sense : Sense) (v : Json) : Prop := ∃ n, sense.integer? v = some n

/-- The value is an integer and not negative. -/
def Json.IsNatural (sense : Sense) (v : Json) : Prop := ∃ n, sense.integer? v = some n ∧ 0 ≤ n

structure Position.Fits (sense : Sense) (p : Position) : Prop where
  line : p.line.IsNatural sense
  character : p.character.IsNatural sense

structure Range.Fits (sense : Sense) (r : Range) : Prop where
  start : r.start.Fits sense
  stop : r.stop.Fits sense

structure Fragment.Fits (f : Fragment) : Prop where
  value : f.value.IsText
  kind : ∀ x ∈ f.kind, x.IsText
  language : ∀ x ∈ f.language, x.IsText

def Contents.fragments : Contents → List Fragment
  | one f => [f]
  | many fragments => fragments

structure Hover.Fits (sense : Sense) (h : Hover) : Prop where
  contents : ∀ f ∈ h.contents.fragments, f.Fits
  range : ∀ r ∈ h.range, r.Fits sense

structure Diagnostic.Fits (sense : Sense) (d : Diagnostic) : Prop where
  range : d.range.Fits sense
  message : d.message.IsText
  severity : ∀ x ∈ d.severity, ∃ n, sense.integer? x = some n ∧ 1 ≤ n ∧ n ≤ 4
  code : ∀ x ∈ d.code, x.IsInteger sense ∨ x.IsText
  source : ∀ x ∈ d.source, x.IsText
  tags : ∀ x ∈ d.tags, ∃ items, x = .arr items ∧ ∀ item ∈ items, item.IsInteger sense
  relatedInformation : ∀ x ∈ d.relatedInformation, ∃ items, x = .arr items

structure PublishDiagnostics.Fits (sense : Sense) (p : PublishDiagnostics) : Prop where
  uri : p.uri.IsText
  diagnostics : ∀ diagnostics ∈ p.diagnostics, ∀ d ∈ diagnostics, d.Fits sense
  version : ∀ x ∈ p.version, x.IsInteger sense

structure ServerInfo.Fits (i : ServerInfo) : Prop where
  name : i.name.IsText
  version : ∀ x ∈ i.version, x.IsText

structure InitializeResult.Fits (r : InitializeResult) : Prop where
  serverInfo : ∀ i ∈ r.serverInfo, i.Fits

/-- What else a server says of an error is free, but it is not null. -/
structure ResponseError.Fits (sense : Sense) (e : ResponseError) : Prop where
  code : e.code.IsInteger sense
  message : e.message.IsText
  data : ∀ x ∈ e.data, x ≠ .null

/-! What fits in the narrow sense fits in the wide one. -/

theorem Json.IsInteger.wide (h : v.IsInteger sense) : v.IsInteger .wide := by
  obtain ⟨n, hn⟩ := h
  exact ⟨n, Sense.wide_of_integer? hn⟩

theorem Json.IsNatural.wide (h : v.IsNatural sense) : v.IsNatural .wide := by
  obtain ⟨n, hn, hbound⟩ := h
  exact ⟨n, Sense.wide_of_integer? hn, hbound⟩

theorem Position.Fits.wide {p : Position} (h : p.Fits sense) : p.Fits .wide :=
  ⟨h.line.wide, h.character.wide⟩

theorem Range.Fits.wide {r : Range} (h : r.Fits sense) : r.Fits .wide :=
  ⟨h.start.wide, h.stop.wide⟩

theorem Hover.Fits.wide {h : Hover} (hfits : h.Fits sense) : h.Fits .wide :=
  ⟨hfits.contents, fun r hr => (hfits.range r hr).wide⟩

theorem Diagnostic.Fits.wide {d : Diagnostic} (h : d.Fits sense) : d.Fits .wide where
  range := h.range.wide
  message := h.message
  severity := by
    intro x hx
    obtain ⟨n, hn, hbounds⟩ := h.severity x hx
    exact ⟨n, Sense.wide_of_integer? hn, hbounds⟩
  code := fun x hx => (h.code x hx).imp_left Json.IsInteger.wide
  source := h.source
  tags := by
    intro x hx
    obtain ⟨items, hitems, hall⟩ := h.tags x hx
    exact ⟨items, hitems, fun item hitem => (hall item hitem).wide⟩
  relatedInformation := h.relatedInformation

theorem PublishDiagnostics.Fits.wide {p : PublishDiagnostics} (h : p.Fits sense) :
    p.Fits .wide where
  uri := h.uri
  diagnostics := fun all hall d hd => (h.diagnostics all hall d hd).wide
  version := fun x hx => (h.version x hx).wide

theorem ResponseError.Fits.wide {e : ResponseError} (h : e.Fits sense) : e.Fits .wide :=
  ⟨h.code.wide, h.message, h.data⟩

/-! ## Members and lists -/

/-- What an optional member holds as it stands is not null. -/
theorem Json.Optionally.ne_null {name : Text} {x : Option Json}
    (h : v.Optionally name (fun y part => y = part) x) : ∀ y ∈ x, y ≠ .null := by
  cases h with
  | given hmember hnull hpart => simpa [hpart] using hnull
  | _ => simp

namespace Schema

variable {schema : Schema} {name : Text} {α : Type} {IsOf : α → Json → Prop} {Fits : α → Prop}

theorem object_of_member? {part : Json} (h : v.member? name = some part) :
    ∃ members, v = .obj members := by
  cases v with
  | obj members => exact ⟨members, rfl⟩
  | _ => cases h

theorem required_iff
    (h : ∀ part, schema.admitsIn sense part = true ↔ ∃ x, IsOf x part ∧ Fits x) :
    ((∃ part, v.member? name = some part) ∧
      ∀ part, v.member? name = some part → schema.admitsIn sense part = true) ↔
      ∃ x, (∃ part, v.member? name = some part ∧ IsOf x part) ∧ Fits x := by
  constructor
  · rintro ⟨⟨part, hpart⟩, hadmits⟩
    obtain ⟨x, hof, hfits⟩ := (h part).mp (hadmits part hpart)
    exact ⟨x, ⟨part, hpart, hof⟩, hfits⟩
  · rintro ⟨x, ⟨part, hpart, hof⟩, hfits⟩
    refine ⟨⟨part, hpart⟩, ?_⟩
    intro part' hpart'
    obtain rfl : part = part' := Option.some.inj (hpart.symm.trans hpart')
    exact (h part).mpr ⟨x, hof, hfits⟩

theorem taken_iff {Fits : Json → Prop} (h : ∀ part, schema.admitsIn sense part = true ↔ Fits part) :
    ((∃ part, v.member? name = some part) ∧
      ∀ part, v.member? name = some part → schema.admitsIn sense part = true) ↔
      ∃ x, v.member? name = some x ∧ Fits x := by
  constructor
  · rintro ⟨⟨part, hpart⟩, hadmits⟩
    exact ⟨part, hpart, (h part).mp (hadmits part hpart)⟩
  · rintro ⟨x, hx, hfits⟩
    refine ⟨⟨x, hx⟩, ?_⟩
    intro part hpart
    obtain rfl : x = part := Option.some.inj (hx.symm.trans hpart)
    exact (h x).mpr hfits

theorem optionally_iff
    (h : ∀ part, schema.admitsIn sense part = true ↔ part = .null ∨ ∃ x, IsOf x part ∧ Fits x) :
    (∀ part, v.member? name = some part → schema.admitsIn sense part = true) ↔
      ∃ x, v.Optionally name IsOf x ∧ ∀ y ∈ x, Fits y := by
  rcases Json.optional_cases v name with ⟨-, hmember⟩ | ⟨part, -, hmember, hnull⟩
  · refine iff_of_true ?_ ⟨none, (Json.optionally_of_none hmember).mpr rfl, by simp⟩
    intro part hpart
    rcases hmember with hmember | hmember
    · rw [hmember] at hpart
      cases hpart
    · rw [hmember] at hpart
      obtain rfl := Option.some.inj hpart
      exact (h .null).mpr (Or.inl rfl)
  · simp only [hmember, Option.some.injEq, forall_eq', h, hnull, false_or,
      Json.optionally_of_some hmember hnull]
    constructor
    · rintro ⟨y, hof, hfits⟩
      exact ⟨some y, ⟨y, rfl, hof⟩, by simpa using hfits⟩
    · rintro ⟨x, ⟨y, rfl, hof⟩, hfits⟩
      exact ⟨y, hof, hfits y rfl⟩

theorem optionally_taken_iff {Fits : Json → Prop}
    (h : ∀ part, schema.admitsIn sense part = true ↔ part = .null ∨ Fits part) :
    (∀ part, v.member? name = some part → schema.admitsIn sense part = true) ↔
      ∃ x, v.Optionally name (fun y part => y = part) x ∧ ∀ y ∈ x, Fits y :=
  optionally_iff (by simp [h])

theorem forall_items_iff
    (h : ∀ part, schema.admitsIn sense part = true ↔ ∃ x, IsOf x part ∧ Fits x)
    {items : List Json} :
    (∀ item ∈ items, schema.admitsIn sense item = true) ↔
      ∃ xs, List.Forall₂ (fun item x => IsOf x item) items xs ∧ ∀ x ∈ xs, Fits x := by
  induction items with
  | nil => simp
  | cons item items ih =>
      rw [List.forall_mem_cons, ih, h item]
      constructor
      · rintro ⟨⟨x, hof, hfits⟩, xs, hall, hfit⟩
        exact ⟨x :: xs, .cons hof hall, List.forall_mem_cons.mpr ⟨hfits, hfit⟩⟩
      · rintro ⟨xs, hall, hfit⟩
        cases hall with
        | cons hof hall =>
            obtain ⟨hfits, hfit⟩ := List.forall_mem_cons.mp hfit
            exact ⟨⟨_, hof, hfits⟩, _, hall, hfit⟩

/-! ## Plain values -/

theorem admitsIn_text_iff (sense : Sense) :
    (ofKinds [.string]).admitsIn sense v = true ↔ v.IsText := by
  simp [admitsIn_ofKinds_iff, Kind.admitsIn_string_iff]

theorem admitsIn_optionalText_iff (sense : Sense) :
    (ofKinds [.string, .null]).admitsIn sense v = true ↔ v = .null ∨ v.IsText := by
  simp [admitsIn_ofKinds_iff, Kind.admitsIn_string_iff, Kind.admitsIn_null_iff, or_comm]

/-- A member that is a text. -/
theorem textMember_iff (sense : Sense) :
    ((∃ part, v.member? name = some part) ∧
      ∀ part, v.member? name = some part → (ofKinds [.string]).admitsIn sense part = true) ↔
      ∃ x, v.member? name = some x ∧ x.IsText :=
  taken_iff fun _ => admitsIn_text_iff sense

/-- A member that is a text, absent or null. -/
theorem optionalTextMember_iff (sense : Sense) :
    (∀ part, v.member? name = some part → (ofKinds [.string, .null]).admitsIn sense part = true) ↔
      ∃ x, v.Optionally name (fun y part => y = part) x ∧ ∀ y ∈ x, y.IsText :=
  optionally_taken_iff fun _ => admitsIn_optionalText_iff sense

theorem admitsIn_integer_iff :
    (ofKinds [.integer]).admitsIn sense v = true ↔ v.IsInteger sense := by
  simp [admitsIn_ofKinds_iff, Kind.admitsIn_integer_iff, Json.IsInteger]

theorem admitsIn_optionalInteger_iff :
    (ofKinds [.integer, .null]).admitsIn sense v = true ↔ v = .null ∨ v.IsInteger sense := by
  simp [admitsIn_ofKinds_iff, Kind.admitsIn_integer_iff, Kind.admitsIn_null_iff, Json.IsInteger,
    or_comm]

theorem admitsIn_optionalCode_iff :
    (ofKinds [.integer, .string, .null]).admitsIn sense v = true ↔
      v = .null ∨ v.IsInteger sense ∨ v.IsText := by
  simp only [admitsIn_ofKinds_iff, List.exists_mem_cons_iff, Kind.admitsIn_integer_iff,
    Kind.admitsIn_string_iff, Kind.admitsIn_null_iff, Json.IsInteger]
  simp only [List.not_mem_nil, false_and, exists_false, or_false]
  tauto

theorem admitsIn_optionalArray_iff (sense : Sense) :
    (ofKinds [.array, .null]).admitsIn sense v = true ↔ v = .null ∨ ∃ items, v = .arr items := by
  simp [admitsIn_ofKinds_iff, Kind.admitsIn_array_iff, Kind.admitsIn_null_iff, or_comm]

theorem admitsIn_optionalIntegers_iff :
    (mk [.array, .null] [.items (ofKinds [.integer])]).admitsIn sense v = true ↔
      v = .null ∨ ∃ items, v = .arr items ∧ ∀ item ∈ items, item.IsInteger sense := by
  simp only [admitsIn_optionalList_iff, admitsIn_integer_iff]

/-- In the place of an optional record there may be null. -/
theorem admitsIn_optionalRecord_iff {names : List String} {properties : List (String × Schema)} :
    (mk [.object, .null] (.required (names.map Text.ofString) ::
      properties.map fun p => .property (Text.ofString p.1) p.2)).admitsIn sense v = true ↔
      v = .null ∨ (record names properties).admitsIn sense v = true := by
  rw [record, admitsIn_mk_iff, admitsIn_mk_iff]
  simp only [List.forall_mem_cons, List.forall_mem_map, Rule.holdsIn_property_iff]
  cases v with
  | null => simp [Kind.admitsIn_null_iff, Rule.holdsIn, Rule.holds, Json.member?]
  | _ => simp [Kind.admitsIn_object_iff, Kind.admitsIn_null_iff]

end Schema

/-! ## Structures -/

theorem Position.admitsIn_iff :
    Schema.position.admitsIn sense v = true ↔ ∃ p : Position, p.IsOf v ∧ p.Fits sense := by
  rw [Schema.position, Schema.admitsIn_record_iff]
  simp only [List.forall_mem_cons, List.not_mem_nil, false_implies, implies_true, and_true]
  constructor
  · rintro ⟨-, ⟨hline, hcharacter⟩, hline', hcharacter'⟩
    obtain ⟨line, hof, hfits⟩ :=
      (Schema.taken_iff fun _ => Schema.admitsIn_natural_iff).mp ⟨hline, hline'⟩
    obtain ⟨character, hof', hfits'⟩ :=
      (Schema.taken_iff fun _ => Schema.admitsIn_natural_iff).mp ⟨hcharacter, hcharacter'⟩
    exact ⟨⟨line, character⟩, ⟨hof, hof'⟩, ⟨hfits, hfits'⟩⟩
  · rintro ⟨p, hof, hfits⟩
    have hline := (Schema.taken_iff fun _ => Schema.admitsIn_natural_iff).mpr
      ⟨p.line, hof.line, hfits.line⟩
    have hcharacter := (Schema.taken_iff fun _ => Schema.admitsIn_natural_iff).mpr
      ⟨p.character, hof.character, hfits.character⟩
    exact ⟨Schema.object_of_member? hof.line, ⟨hline.1, hcharacter.1⟩, hline.2, hcharacter.2⟩

theorem Range.admitsIn_iff :
    Schema.range.admitsIn sense v = true ↔ ∃ r : Range, r.IsOf v ∧ r.Fits sense := by
  rw [Schema.range, Schema.admitsIn_record_iff]
  simp only [List.forall_mem_cons, List.not_mem_nil, false_implies, implies_true, and_true]
  constructor
  · rintro ⟨-, ⟨hstart, hstop⟩, hstart', hstop'⟩
    obtain ⟨start, hof, hfits⟩ :=
      (Schema.required_iff fun _ => Position.admitsIn_iff).mp ⟨hstart, hstart'⟩
    obtain ⟨stop, hof', hfits'⟩ :=
      (Schema.required_iff fun _ => Position.admitsIn_iff).mp ⟨hstop, hstop'⟩
    exact ⟨⟨start, stop⟩, ⟨hof, hof'⟩, ⟨hfits, hfits'⟩⟩
  · rintro ⟨r, hof, hfits⟩
    have hstart := (Schema.required_iff fun _ => Position.admitsIn_iff).mpr
      ⟨r.start, hof.start, hfits.start⟩
    have hstop := (Schema.required_iff fun _ => Position.admitsIn_iff).mpr
      ⟨r.stop, hof.stop, hfits.stop⟩
    obtain ⟨part, hpart, -⟩ := hof.start
    exact ⟨Schema.object_of_member? hpart, ⟨hstart.1, hstop.1⟩, hstart.2, hstop.2⟩

theorem Range.admitsIn_optional_iff :
    (Schema.choice [.range, .ofKinds [.null]]).admitsIn sense v = true ↔
      v = .null ∨ ∃ r : Range, r.IsOf v ∧ r.Fits sense := by
  rw [Schema.admitsIn_choice_iff]
  simp [Range.admitsIn_iff, Schema.admitsIn_ofKinds_iff, Kind.admitsIn_null_iff, or_comm]

theorem Fragment.admitsIn_iff (sense : Sense) :
    Schema.fragment.admitsIn sense v = true ↔ ∃ f : Fragment, f.IsOf v ∧ f.Fits := by
  rw [Schema.fragment, Schema.admitsIn_choice_iff]
  simp only [List.exists_mem_cons_iff, List.not_mem_nil, false_and, exists_false, or_false,
    Schema.admitsIn_record_iff, List.forall_mem_cons, false_implies, implies_true, and_true]
  rw [Schema.admitsIn_text_iff]
  constructor
  · rintro (⟨t, rfl⟩ | ⟨-, hvalue, hvalue', hkind, hlanguage⟩)
    · exact ⟨⟨.str t, none, none⟩, .text t, ⟨⟨t, rfl⟩, by simp, by simp⟩⟩
    · obtain ⟨value, hof, hfits⟩ := (Schema.textMember_iff sense).mp ⟨hvalue, hvalue'⟩
      obtain ⟨kind, hkind, hkind'⟩ := (Schema.optionalTextMember_iff sense).mp hkind
      obtain ⟨language, hlanguage, hlanguage'⟩ := (Schema.optionalTextMember_iff sense).mp hlanguage
      exact ⟨⟨value, kind, language⟩, .object hof hkind hlanguage, ⟨hfits, hkind', hlanguage'⟩⟩
  · rintro ⟨f, hof, hfits⟩
    cases hof with
    | text t => exact Or.inl ⟨t, rfl⟩
    | object hvalue hkind hlanguage =>
        have hvalue' := (Schema.textMember_iff sense).mpr ⟨f.value, hvalue, hfits.value⟩
        have hkind' := (Schema.optionalTextMember_iff sense).mpr ⟨f.kind, hkind, hfits.kind⟩
        have hlanguage' := (Schema.optionalTextMember_iff sense).mpr
          ⟨f.language, hlanguage, hfits.language⟩
        exact Or.inr
          ⟨Schema.object_of_member? hvalue, hvalue'.1, hvalue'.2, hkind', hlanguage'⟩

theorem Contents.admitsIn_iff (sense : Sense) :
    (Schema.choice [.fragment, .mk [.array] [.items .fragment]]).admitsIn sense v = true ↔
      ∃ c : Contents, c.IsOf v ∧ ∀ f ∈ c.fragments, f.Fits := by
  rw [Schema.admitsIn_choice_iff]
  simp only [List.exists_mem_cons_iff, List.not_mem_nil, false_and, exists_false, or_false,
    Schema.admitsIn_list_iff]
  rw [Fragment.admitsIn_iff]
  constructor
  · rintro (⟨f, hof, hfits⟩ | ⟨items, rfl, hitems⟩)
    · exact ⟨.one f, .one hof, by simpa [fragments] using hfits⟩
    · obtain ⟨fragments, hof, hfit⟩ :=
        (Schema.forall_items_iff fun _ => Fragment.admitsIn_iff sense).mp hitems
      exact ⟨.many fragments, .many hof, hfit⟩
  · rintro ⟨c, hof, hfit⟩
    cases hof with
    | one h => exact Or.inl ⟨_, h, hfit _ (by simp [fragments])⟩
    | many h =>
        refine Or.inr ⟨_, rfl, ?_⟩
        exact (Schema.forall_items_iff fun _ => Fragment.admitsIn_iff sense).mpr ⟨_, h, hfit⟩

theorem Hover.admitsIn_iff :
    Schema.hover.admitsIn sense v = true ↔ ∃ h : Hover, h.IsOf v ∧ h.Fits sense := by
  rw [Schema.hover, Schema.admitsIn_record_iff]
  simp only [List.forall_mem_cons, List.not_mem_nil, false_implies, implies_true, and_true]
  constructor
  · rintro ⟨-, hcontents, hcontents', hrange⟩
    obtain ⟨contents, hof, hfit⟩ :=
      (Schema.required_iff fun _ => Contents.admitsIn_iff sense).mp ⟨hcontents, hcontents'⟩
    obtain ⟨range, hrange, hrange'⟩ :=
      (Schema.optionally_iff fun _ => Range.admitsIn_optional_iff).mp hrange
    exact ⟨⟨contents, range⟩, ⟨hof, hrange⟩, ⟨hfit, hrange'⟩⟩
  · rintro ⟨h, hof, hfits⟩
    have hcontents := (Schema.required_iff fun _ => Contents.admitsIn_iff sense).mpr
      ⟨h.contents, hof.contents, hfits.contents⟩
    have hrange := (Schema.optionally_iff fun _ => Range.admitsIn_optional_iff).mpr
      ⟨h.range, hof.range, hfits.range⟩
    obtain ⟨part, hpart, -⟩ := hof.contents
    exact ⟨Schema.object_of_member? hpart, hcontents.1, hcontents.2, hrange⟩

theorem Diagnostic.admitsIn_iff :
    Schema.diagnostic.admitsIn sense v = true ↔ ∃ d : Diagnostic, d.IsOf v ∧ d.Fits sense := by
  rw [Schema.diagnostic, Schema.admitsIn_record_iff]
  simp only [List.forall_mem_cons, List.not_mem_nil, false_implies, implies_true, and_true]
  constructor
  · rintro ⟨-, ⟨hrange, hmessage⟩, hrange', hseverity, hcode, hsource, hmessage', htags, hrelated⟩
    obtain ⟨range, hrangeOf, hrangeFits⟩ :=
      (Schema.required_iff fun _ => Range.admitsIn_iff).mp ⟨hrange, hrange'⟩
    obtain ⟨message, hmessageOf, hmessageFits⟩ :=
      (Schema.textMember_iff sense).mp ⟨hmessage, hmessage'⟩
    obtain ⟨severity, hseverityOf, hseverityFits⟩ :=
      (Schema.optionally_taken_iff fun _ => Schema.admitsIn_optionalBetween_iff).mp hseverity
    obtain ⟨code, hcodeOf, hcodeFits⟩ :=
      (Schema.optionally_taken_iff fun _ => Schema.admitsIn_optionalCode_iff).mp hcode
    obtain ⟨source, hsourceOf, hsourceFits⟩ := (Schema.optionalTextMember_iff sense).mp hsource
    obtain ⟨tags, htagsOf, htagsFits⟩ :=
      (Schema.optionally_taken_iff fun _ => Schema.admitsIn_optionalIntegers_iff).mp htags
    obtain ⟨related, hrelatedOf, hrelatedFits⟩ :=
      (Schema.optionally_taken_iff fun _ => Schema.admitsIn_optionalArray_iff sense).mp hrelated
    exact ⟨⟨range, message, severity, code, source, tags, related⟩,
      ⟨hrangeOf, hmessageOf, hseverityOf, hcodeOf, hsourceOf, htagsOf, hrelatedOf⟩,
      ⟨hrangeFits, hmessageFits, hseverityFits, hcodeFits, hsourceFits, htagsFits, hrelatedFits⟩⟩
  · rintro ⟨d, hof, hfits⟩
    have hrange := (Schema.required_iff fun _ => Range.admitsIn_iff).mpr
      ⟨d.range, hof.range, hfits.range⟩
    have hmessage := (Schema.textMember_iff sense).mpr ⟨d.message, hof.message, hfits.message⟩
    refine ⟨Schema.object_of_member? hof.message, ⟨hrange.1, hmessage.1⟩, hrange.2, ?severity,
      ?code, ?source, hmessage.2, ?tags, ?related⟩
    case severity =>
      exact (Schema.optionally_taken_iff fun _ => Schema.admitsIn_optionalBetween_iff).mpr
        ⟨d.severity, hof.severity, hfits.severity⟩
    case code =>
      exact (Schema.optionally_taken_iff fun _ => Schema.admitsIn_optionalCode_iff).mpr
        ⟨d.code, hof.code, hfits.code⟩
    case source =>
      exact (Schema.optionalTextMember_iff sense).mpr ⟨d.source, hof.source, hfits.source⟩
    case tags =>
      exact (Schema.optionally_taken_iff fun _ => Schema.admitsIn_optionalIntegers_iff).mpr
        ⟨d.tags, hof.tags, hfits.tags⟩
    case related =>
      exact (Schema.optionally_taken_iff fun _ => Schema.admitsIn_optionalArray_iff sense).mpr
        ⟨d.relatedInformation, hof.relatedInformation, hfits.relatedInformation⟩

/-- In the place of a list of diagnostics there may be null. -/
theorem Diagnostic.admitsIn_optionalList_iff :
    (Schema.mk [.array, .null] [.items .diagnostic]).admitsIn sense v = true ↔
      v = .null ∨ ∃ diagnostics, AreOf diagnostics v ∧ ∀ d ∈ diagnostics, Fits sense d := by
  rw [Schema.admitsIn_optionalList_iff]
  refine or_congr_right ?_
  constructor
  · rintro ⟨items, rfl, hitems⟩
    obtain ⟨diagnostics, hof, hfit⟩ :=
      (Schema.forall_items_iff fun _ => Diagnostic.admitsIn_iff).mp hitems
    exact ⟨diagnostics, ⟨items, rfl, hof⟩, hfit⟩
  · rintro ⟨diagnostics, ⟨items, rfl, hof⟩, hfit⟩
    exact ⟨items, rfl,
      (Schema.forall_items_iff fun _ => Diagnostic.admitsIn_iff).mpr ⟨diagnostics, hof, hfit⟩⟩

theorem PublishDiagnostics.admitsIn_iff :
    Schema.publishDiagnostics.admitsIn sense v = true ↔
      ∃ p : PublishDiagnostics, p.IsOf v ∧ p.Fits sense := by
  rw [Schema.publishDiagnostics, Schema.admitsIn_record_iff]
  simp only [List.forall_mem_cons, List.not_mem_nil, false_implies, implies_true, and_true]
  constructor
  · rintro ⟨-, huri, huri', hversion, hdiagnostics⟩
    obtain ⟨uri, huriOf, huriFits⟩ := (Schema.textMember_iff sense).mp ⟨huri, huri'⟩
    obtain ⟨version, hversionOf, hversionFits⟩ :=
      (Schema.optionally_taken_iff fun _ => Schema.admitsIn_optionalInteger_iff).mp hversion
    obtain ⟨diagnostics, hof, hfit⟩ :=
      (Schema.optionally_iff fun _ => Diagnostic.admitsIn_optionalList_iff).mp hdiagnostics
    exact ⟨⟨uri, diagnostics, version⟩, ⟨huriOf, hof, hversionOf⟩, ⟨huriFits, hfit, hversionFits⟩⟩
  · rintro ⟨p, hof, hfits⟩
    have huri := (Schema.textMember_iff sense).mpr ⟨p.uri, hof.uri, hfits.uri⟩
    have hversion := (Schema.optionally_taken_iff fun _ => Schema.admitsIn_optionalInteger_iff).mpr
      ⟨p.version, hof.version, hfits.version⟩
    have hdiagnostics := (Schema.optionally_iff fun _ => Diagnostic.admitsIn_optionalList_iff).mpr
      ⟨p.diagnostics, hof.diagnostics, hfits.diagnostics⟩
    exact ⟨Schema.object_of_member? hof.uri, huri.1, huri.2, hversion, hdiagnostics⟩

theorem ServerInfo.admitsIn_iff (sense : Sense) :
    Schema.serverInfo.admitsIn sense v = true ↔
      v = .null ∨ ∃ i : ServerInfo, i.IsOf v ∧ i.Fits := by
  have hschema : Schema.serverInfo = .mk [.object, .null] (.required (["name"].map Text.ofString) ::
      [("name", .ofKinds [.string]), ("version", .ofKinds [.string, .null])].map fun p =>
        .property (Text.ofString p.1) p.2) := rfl
  rw [hschema, Schema.admitsIn_optionalRecord_iff, Schema.admitsIn_record_iff]
  refine or_congr_right ?_
  simp only [List.forall_mem_cons, List.not_mem_nil, false_implies, implies_true, and_true]
  constructor
  · rintro ⟨-, hname, hname', hversion⟩
    obtain ⟨name, hnameOf, hnameFits⟩ := (Schema.textMember_iff sense).mp ⟨hname, hname'⟩
    obtain ⟨version, hversionOf, hversionFits⟩ := (Schema.optionalTextMember_iff sense).mp hversion
    exact ⟨⟨name, version⟩, ⟨hnameOf, hversionOf⟩, ⟨hnameFits, hversionFits⟩⟩
  · rintro ⟨i, hof, hfits⟩
    have hname := (Schema.textMember_iff sense).mpr ⟨i.name, hof.name, hfits.name⟩
    have hversion := (Schema.optionalTextMember_iff sense).mpr
      ⟨i.version, hof.version, hfits.version⟩
    exact ⟨Schema.object_of_member? hof.name, hname.1, hname.2, hversion⟩

/-- Capabilities are an object, and all else about them is free. -/
theorem ServerCapabilities.admitsIn_iff (sense : Sense) :
    (Schema.ofKinds [.object]).admitsIn sense v = true ↔
      ∃ c : ServerCapabilities, c.IsOf v ∧ True := by
  simp only [Schema.admitsIn_ofKinds_iff, List.mem_singleton, exists_eq_left,
    Kind.admitsIn_object_iff, and_true]
  constructor
  · rintro ⟨members, rfl⟩
    exact ⟨⟨(Json.obj members).optional "hoverProvider", members⟩, rfl, Json.optional_eq_iff.mp rfl⟩
  · rintro ⟨c, hof⟩
    exact ⟨c.all, hof.all⟩

theorem InitializeResult.admitsIn_iff (sense : Sense) :
    Schema.initializeResult.admitsIn sense v = true ↔
      ∃ r : InitializeResult, r.IsOf v ∧ r.Fits := by
  rw [Schema.initializeResult, Schema.admitsIn_record_iff]
  simp only [List.forall_mem_cons, List.not_mem_nil, false_implies, implies_true, and_true]
  constructor
  · rintro ⟨-, hcapabilities, hcapabilities', hinfo⟩
    obtain ⟨capabilities, hof, -⟩ := (Schema.required_iff fun _ =>
      ServerCapabilities.admitsIn_iff sense).mp ⟨hcapabilities, hcapabilities'⟩
    obtain ⟨info, hinfo, hinfo'⟩ :=
      (Schema.optionally_iff fun _ => ServerInfo.admitsIn_iff sense).mp hinfo
    exact ⟨⟨capabilities, info⟩, ⟨hof, hinfo⟩, ⟨hinfo'⟩⟩
  · rintro ⟨r, hof, hfits⟩
    have hcapabilities := (Schema.required_iff fun _ => ServerCapabilities.admitsIn_iff sense).mpr
      ⟨r.capabilities, hof.capabilities, trivial⟩
    have hinfo := (Schema.optionally_iff fun _ => ServerInfo.admitsIn_iff sense).mpr
      ⟨r.serverInfo, hof.serverInfo, hfits.serverInfo⟩
    obtain ⟨part, hpart, -⟩ := hof.capabilities
    exact ⟨Schema.object_of_member? hpart, hcapabilities.1, hcapabilities.2, hinfo⟩

theorem ResponseError.admitsIn_iff :
    Schema.responseError.admitsIn sense v = true ↔
      ∃ e : ResponseError, e.IsOf v ∧ e.Fits sense := by
  rw [Schema.responseError, Schema.admitsIn_record_iff]
  simp only [List.forall_mem_cons, List.not_mem_nil, false_implies, implies_true, and_true]
  constructor
  · rintro ⟨-, ⟨hcode, hmessage⟩, hcode', hmessage'⟩
    obtain ⟨code, hcodeOf, hcodeFits⟩ :=
      (Schema.taken_iff fun _ => Schema.admitsIn_integer_iff).mp ⟨hcode, hcode'⟩
    obtain ⟨message, hmessageOf, hmessageFits⟩ :=
      (Schema.textMember_iff sense).mp ⟨hmessage, hmessage'⟩
    have hdata : v.Optionally "data" (fun x part => x = part) (v.optional "data") :=
      Json.optional_eq_iff.mp rfl
    exact ⟨⟨code, message, v.optional "data"⟩, ⟨hcodeOf, hmessageOf, hdata⟩,
      ⟨hcodeFits, hmessageFits, hdata.ne_null⟩⟩
  · rintro ⟨e, hof, hfits⟩
    have hcode := (Schema.taken_iff fun _ => Schema.admitsIn_integer_iff).mpr
      ⟨e.code, hof.code, hfits.code⟩
    have hmessage := (Schema.textMember_iff sense).mpr ⟨e.message, hof.message, hfits.message⟩
    exact ⟨Schema.object_of_member? hof.code, ⟨hcode.1, hmessage.1⟩, hcode.2, hmessage.2⟩

/-! ## Decoding -/

/-- What a decoder is held to.  `IsOf` says which fields a structure has of a document, and `Fits`
what the fields are. -/
structure Shape.Decodes (shape : Shape) {α : Type} (decode : Json → Except DecodeError α)
    (IsOf : α → Json → Prop) (Fits : α → Prop) : Prop where
  /-- The schema admits the documents of the structures that fit. -/
  admits_iff : ∀ v, shape.schema.admits v = true ↔ ∃ x, IsOf x v ∧ Fits x
  /-- A document has one structure at most. -/
  unique : ∀ v x x', IsOf x v → IsOf x' v → x = x'
  /-- What the schema admits is decoded. -/
  accepts : ∀ v, shape.schema.admits v = true → ∃ x, decode v = .ok x
  /-- All else is refused, with the name of the structure and what is wrong. -/
  refuses : ∀ v, shape.schema.admits v = false →
    ∃ finding, decode v = .error (.shape ⟨shape, finding⟩)
  /-- What is decoded has its fields of the document, and they fit. -/
  sound : ∀ v x, decode v = .ok x → IsOf x v ∧ Fits x

section

variable {α : Type} {shape : Shape} {read : Json → Except MemberError α} {IsOf : α → Json → Prop}
  {Fits : α → Prop}

/-- A decoder does its work if its reader takes the fields and its schema asks for what fits. -/
theorem Shape.decodes_of (hread : ∀ v x, read v = .ok x ↔ IsOf x v)
    (hadmits : ∀ v, shape.schema.admits v = true ↔ ∃ x, IsOf x v ∧ Fits x) :
    shape.Decodes (shape.decode read) IsOf Fits := by
  have hunique : ∀ v x x', IsOf x v → IsOf x' v → x = x' := by
    intro v x x' hx hx'
    have hok := (hread v x).mpr hx
    rw [(hread v x').mpr hx'] at hok
    exact (Except.ok.inj hok).symm
  have hdecode : ∀ v x, shape.schema.admits v = true → IsOf x v → shape.decode read v = .ok x := by
    intro v x hv hx
    rcases shape.check_cases v with ⟨hcheck, -⟩ | ⟨finding, -, hrefused⟩
    · simp only [Shape.decode, hcheck, (hread v x).mpr hx]
    · rw [hv] at hrefused
      cases hrefused
  have hrefuses : ∀ v, shape.schema.admits v = false →
      ∃ finding, shape.decode read v = .error (.shape ⟨shape, finding⟩) := by
    intro v hv
    rcases shape.check_cases v with ⟨-, hadmits⟩ | ⟨finding, hcheck, -⟩
    · rw [hv] at hadmits
      cases hadmits
    · exact ⟨finding, by simp only [Shape.decode, hcheck]⟩
  refine ⟨hadmits, hunique, ?accepts, hrefuses, ?sound⟩
  case accepts =>
    intro v hv
    obtain ⟨x, hx, -⟩ := (hadmits v).mp hv
    exact ⟨x, hdecode v x hv hx⟩
  case sound =>
    intro v x hx
    cases hv : shape.schema.admits v with
    | false =>
        obtain ⟨finding, hfinding⟩ := hrefuses v hv
        rw [hfinding] at hx
        cases hx
    | true =>
        obtain ⟨y, hy, hfits⟩ := (hadmits v).mp hv
        rw [hdecode v y hv hy] at hx
        obtain rfl := Except.ok.inj hx
        exact ⟨hy, hfits⟩

/-- A document is decoded to the structure that is of it and fits. -/
theorem Shape.Decodes.eq_ok_iff {decode : Json → Except DecodeError α}
    (h : shape.Decodes decode IsOf Fits) {x : α} : decode v = .ok x ↔ IsOf x v ∧ Fits x := by
  constructor
  · exact h.sound v x
  · rintro ⟨hof, hfits⟩
    obtain ⟨y, hy⟩ := h.accepts v ((h.admits_iff v).mpr ⟨x, hof, hfits⟩)
    rw [hy, h.unique v y x (h.sound v y hy).1 hof]

end

theorem Hover.decodes : Shape.hover.Decodes decode IsOf (Fits .wide) :=
  Shape.decodes_of (fun _ _ => read_eq_ok_iff) fun v =>
    (Schema.admitsIn_wide Schema.hover v).symm ▸ admitsIn_iff

theorem PublishDiagnostics.decodes :
    Shape.publishDiagnostics.Decodes decode IsOf (Fits .wide) :=
  Shape.decodes_of (fun _ _ => read_eq_ok_iff) fun v =>
    (Schema.admitsIn_wide Schema.publishDiagnostics v).symm ▸ admitsIn_iff

theorem InitializeResult.decodes : Shape.initializeResult.Decodes decode IsOf Fits :=
  Shape.decodes_of (fun _ _ => read_eq_ok_iff) fun v =>
    (Schema.admitsIn_wide Schema.initializeResult v).symm ▸ admitsIn_iff .wide

theorem ResponseError.decodes : Shape.responseError.Decodes decode IsOf (Fits .wide) :=
  Shape.decodes_of (fun _ _ => read_eq_ok_iff) fun v =>
    (Schema.admitsIn_wide Schema.responseError v).symm ▸ admitsIn_iff

end LanguageClient
