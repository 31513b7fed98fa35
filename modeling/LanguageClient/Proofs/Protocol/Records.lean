import LanguageClient.Protocol.Record
import LanguageClient.Proofs.Json.Members

/-!
# Members of encoded records

A record is encoded field by field: a field that holds nothing is left out, and any other is found
under its name on the wire, as long as no two fields have one name there (`member?_build`).  What a
document says is encoded as that document (`encode_ofJson`).  Since empty fields are left out, the
only nulls in an encoded record are those inside members of a free form (`NullOnlyIn`).
-/

namespace LanguageClient

theorem Text.ofString_inj {s t : String} : Text.ofString s = Text.ofString t ↔ s = t := by
  have hinjective : Function.Injective CodePoint.ofChar := by
    intro c c' h
    have hval : c.val.toNat = c'.val.toNat := congrArg CodePoint.val h
    exact Char.ext (UInt32.toNat_inj.mp hval)
  rw [Text.ofString, Text.ofString, (List.map_injective_iff.mpr hinjective).eq_iff,
    String.toList_inj]

namespace Payload

theorem encodeItems_eq_map (items : List Payload) : encodeItems items = items.map encode := by
  induction items with
  | nil => rfl
  | cons item rest ih => rw [encodeItems, ih, List.map_cons]

theorem encode_list_map {α : Type} (payload : α → Payload) (xs : List α) :
    (Payload.list (xs.map payload)).encode = .arr (xs.map fun x => (payload x).encode) := by
  rw [encode, encodeItems_eq_map, List.map_map]
  rfl

theorem encode_eq_null_iff {p : Payload} : p.encode = .null ↔ p.isNull = true := by
  cases p <;> simp [encode, isNull]

mutual

/-- **What says just what a document says is encoded as that document.** -/
@[simp] theorem encode_ofJson (v : Json) : (ofJson v).encode = v := by
  cases v with
  | arr items => rw [ofJson, encode, encodeItems_ofItems items]
  | obj members => rw [ofJson, encode, encodeEntries_ofMembers members]
  | _ => rfl

theorem encodeItems_ofItems (items : List Json) : encodeItems (ofItems items) = items := by
  cases items with
  | nil => rfl
  | cons item rest => rw [ofItems, encodeItems, encode_ofJson item, encodeItems_ofItems rest]

theorem encodeEntries_ofMembers (members : Members) :
    encodeEntries (ofMembers members) = members := by
  cases members with
  | nil => rfl
  | cons member rest =>
      obtain ⟨name, value⟩ := member
      rw [ofMembers, encodeEntries, encode_ofJson value, encodeEntries_ofMembers rest]

end

theorem isNull_ofJson_eq_false {v : Json} (h : v ≠ .null) : (ofJson v).isNull = false := by
  rw [Bool.eq_false_iff]
  intro hnull
  rw [← encode_eq_null_iff, encode_ofJson] at hnull
  exact h hnull

/-- A member of the encoded fields is the field of that name on the wire. -/
theorem exists_field_of_get? {fields : List (Text × Bool × Payload)} {wire : Text} {part : Json}
    (h : Members.get? (encodeFields fields) wire = some part) :
    ∃ field ∈ fields, wireName field.1 = wire := by
  induction fields with
  | nil => cases h
  | cons field rest ih =>
      obtain ⟨name, nullable, value⟩ := field
      rw [encodeFields] at h
      split at h
      · obtain ⟨field, hmem, hwire⟩ := ih h
        exact ⟨field, List.mem_cons_of_mem _ hmem, hwire⟩
      · by_cases hname : wireName name = wire
        · exact ⟨_, List.mem_cons_self, hname⟩
        · rw [Members.get?, List.find?_cons_of_neg (by simpa using hname)] at h
          obtain ⟨field, hmem, hwire⟩ := ih h
          exact ⟨field, List.mem_cons_of_mem _ hmem, hwire⟩

/-- If the names on the wire are distinct, a field is found under its name unless it is left out. -/
theorem get?_encodeFields {fields : List (Text × Bool × Payload)}
    (hdistinct : (fields.map fun field => wireName field.1).Nodup) {name : Text} {nullable : Bool}
    {value : Payload} (hmem : (name, nullable, value) ∈ fields) :
    Members.get? (encodeFields fields) (wireName name) =
      if value.isNull && !nullable then none else some value.encode := by
  induction fields with
  | nil => cases hmem
  | cons field rest ih =>
      obtain ⟨hfresh, hothers⟩ := List.nodup_cons.mp hdistinct
      rcases List.mem_cons.mp hmem with rfl | hrest
      · rw [encodeFields]
        split
        · rw [Option.eq_none_iff_forall_ne_some]
          intro part hpart
          obtain ⟨field, hmem, hwire⟩ := exists_field_of_get? hpart
          exact hfresh (List.mem_map.mpr ⟨field, hmem, hwire⟩)
        · simp [Members.get?]
      · have hother : wireName field.1 ≠ wireName name := by
          intro hwire
          exact hfresh (List.mem_map.mpr ⟨_, hrest, hwire.symm⟩)
        obtain ⟨name', nullable', value'⟩ := field
        rw [encodeFields]
        split
        · exact ih hothers hrest
        · rw [Members.get?, List.find?_cons_of_neg (by simpa using hother)]
          exact ih hothers hrest

end Payload

/-- What a field of a record holds. -/
def Field.held (given : List (Text × Payload)) (field : Field) : Payload :=
  match given.find? (·.1 = field.name) with
  | some (_, value) => value
  | none => field.ifOmitted.getD .null

/-- A field holds what it is given, or what it holds when omitted. -/
theorem Field.held_cases (given : List (Text × Payload)) (field : Field) :
    (field.name, field.held given) ∈ given ∨ field.held given = field.ifOmitted.getD .null := by
  unfold held
  split
  · rename_i name value hfind
    have hname := List.find?_some hfind
    obtain rfl : name = field.name := by simpa using hname
    exact Or.inl (List.mem_of_find?_eq_some hfind)
  · exact Or.inr rfl

namespace Layout

theorem encode_build (layout : Layout) (given : List (Text × Payload)) :
    (layout.build given).encode = .obj (Payload.encodeFields
      (layout.fields.map fun field => (field.name, field.nullable, field.held given))) :=
  rfl

/-- The field is called `wire` in documents, is left out when it holds nothing, and no two fields of
the layout share a name there. -/
def Sends (layout : Layout) (name wire : Text) : Prop :=
  (layout.fields.map fun field => Payload.wireName field.name).Nodup ∧
    (∃ field ∈ layout.fields, field.name = name ∧ field.nullable = false) ∧
      Payload.wireName name = wire

instance (layout : Layout) (name wire : Text) : Decidable (layout.Sends name wire) := by
  unfold Sends
  infer_instance

variable {layout : Layout} {wire : Text} {given : List (Text × Payload)} {value : Payload}

theorem member?_build (name : Text) (hsends : layout.Sends name wire)
    (hgiven : given.find? (fun entry => decide (entry.1 = name)) = some (name, value)) :
    (layout.build given).encode.member? wire =
      if value.isNull then none else some value.encode := by
  obtain ⟨hdistinct, ⟨field, hfield, rfl, hnullable⟩, rfl⟩ := hsends
  have hheld : field.held given = value := by rw [Field.held, hgiven]
  have hmem : (field.name, field.nullable, field.held given) ∈
      layout.fields.map fun field => (field.name, field.nullable, field.held given) :=
    List.mem_map.mpr ⟨field, hfield, rfl⟩
  have hget := Payload.get?_encodeFields (by simpa [Function.comp_def] using hdistinct) hmem
  rw [hheld, hnullable] at hget
  rw [encode_build, Json.member?, hget]
  simp

/-- A field that cannot be empty. -/
theorem member?_build_required (name : Text) (hsends : layout.Sends name wire)
    (hgiven : given.find? (fun entry => decide (entry.1 = name)) = some (name, value))
    (hvalue : value.isNull = false) :
    (layout.build given).encode.member? wire = some value.encode := by
  rw [member?_build name hsends hgiven, hvalue]
  simp

/-- A field that may be empty. -/
theorem optionally_build {α : Type} {IsOf : α → Json → Prop} {payload : α → Payload} {x : Option α}
    (name : Text) (hsends : layout.Sends name wire)
    (hgiven : given.find? (fun entry => decide (entry.1 = name)) =
      some (name, (x.map payload).getD .null))
    (hx : ∀ y ∈ x, (payload y).isNull = false ∧ IsOf y (payload y).encode) :
    (layout.build given).encode.Optionally wire IsOf x := by
  have hmember := member?_build name hsends hgiven
  cases x with
  | none => exact .absent hmember
  | some y =>
      obtain ⟨hnull, hof⟩ := hx y rfl
      have hsome : (layout.build given).encode.member? wire = some (payload y).encode := by
        simpa [hnull] using hmember
      refine .given hsome ?_ hof
      intro hencode
      rw [Payload.encode_eq_null_iff, hnull] at hencode
      cases hencode

end Layout

/-! ## Where null may stand -/

/-- Null stands nowhere in a document but inside members of a free form. -/
inductive Json.NullOnlyIn (free : List Text) : Json → Prop where
  | bool (b : Bool) : NullOnlyIn free (.bool b)
  | int (n : Int) : NullOnlyIn free (.int n)
  | float (x : Binary64) : NullOnlyIn free (.float x)
  | str (t : Text) : NullOnlyIn free (.str t)
  | arr {items : List Json} (hitems : ∀ item ∈ items, NullOnlyIn free item) :
      NullOnlyIn free (.arr items)
  | obj {members : Members} (hnull : ∀ member ∈ members, member.2 ≠ .null)
      (hmembers : ∀ member ∈ members, member.1 ∉ free → NullOnlyIn free member.2) :
      NullOnlyIn free (.obj members)

variable {free : List Text}

theorem Payload.exists_field_of_mem {fields : List (Text × Bool × Payload)}
    (hleft : ∀ field ∈ fields, field.2.1 = false) {member : Text × Json}
    (h : member ∈ encodeFields fields) :
    ∃ field ∈ fields, field.2.2.isNull = false ∧ member = (wireName field.1, field.2.2.encode) := by
  induction fields with
  | nil => cases h
  | cons field rest ih =>
      obtain ⟨hfield, hrest⟩ := List.forall_mem_cons.mp hleft
      obtain ⟨name, nullable, value⟩ := field
      obtain rfl : nullable = false := hfield
      rw [encodeFields] at h
      split at h
      · obtain ⟨field, hmem, hheld⟩ := ih hrest h
        exact ⟨field, List.mem_cons_of_mem _ hmem, hheld⟩
      · rename_i hheld
        rcases List.mem_cons.mp h with rfl | h
        · exact ⟨_, List.mem_cons_self, by simpa using hheld, rfl⟩
        · obtain ⟨field, hmem, hheld⟩ := ih hrest h
          exact ⟨field, List.mem_cons_of_mem _ hmem, hheld⟩

/-- A record whose empty fields are left out has no null but in what its fields are given. -/
theorem Layout.nullOnlyIn_build {layout : Layout} {given : List (Text × Payload)}
    (hleft : ∀ field ∈ layout.fields, field.nullable = false ∧ field.ifOmitted.getD .null = .null)
    (hgiven : ∀ entry ∈ given, entry.2.isNull = false → Payload.wireName entry.1 ∉ free →
      entry.2.encode.NullOnlyIn free) :
    (layout.build given).encode.NullOnlyIn free := by
  have hexists : ∀ member ∈ Payload.encodeFields
      (layout.fields.map fun field => (field.name, field.nullable, field.held given)),
      ∃ entry ∈ given, entry.2.isNull = false ∧
        member = (Payload.wireName entry.1, entry.2.encode) := by
    intro member hmember
    obtain ⟨_, hmem, hheld, rfl⟩ :=
      Payload.exists_field_of_mem (by simpa using fun field hfield => (hleft field hfield).1)
        hmember
    obtain ⟨field, hfield, rfl⟩ := List.mem_map.mp hmem
    rcases Field.held_cases given field with hgiven | homitted
    · exact ⟨_, hgiven, hheld, rfl⟩
    · dsimp only at hheld
      rw [homitted, (hleft field hfield).2] at hheld
      cases hheld
  rw [encode_build]
  refine .obj ?_ ?_
  · intro member hmember
    obtain ⟨entry, -, hheld, rfl⟩ := hexists member hmember
    intro hnull
    rw [Payload.encode_eq_null_iff.mp hnull] at hheld
    cases hheld
  · intro member hmember hfree
    obtain ⟨entry, hmem, hheld, rfl⟩ := hexists member hmember
    exact hgiven entry hmem hheld hfree

end LanguageClient
