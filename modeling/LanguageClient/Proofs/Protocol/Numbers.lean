import LanguageClient.Proofs.Protocol.Encoding
import LanguageClient.Protocol.HoverText

/-!
# Numbers in decoded structures

Where a structure has an integer, a schema admits a double without a fraction as well, and a decoder
hands on what was sent.  So every number of a decoded structure lies where an integer lies, within
its bounds, and it is written as an integer if and only if the document is admitted in the narrow
sense. The same holds of the places in a buffer that a hover is shown at: a line sent as `1.0` gets
there as it is.

## Strategy

What a schema admits in either sense is known from `admitsIn_iff`, and a document has one structure
at most, so the two senses are told apart by the decoded structure as well as by the document.
-/

namespace LanguageClient

/-! ## Places in a buffer -/

structure BufferPosition.Fits (sense : Sense) (p : BufferPosition) : Prop where
  line : p.line.IsNatural sense
  column : p.column.IsNatural sense

structure BufferRange.Fits (sense : Sense) (r : BufferRange) : Prop where
  first : r.first.Fits sense
  last : r.last.Fits sense

def Range.toBuffer (r : Range) : BufferRange := ⟨r.start.toBuffer, r.stop.toBuffer⟩

theorem Range.fits_toBuffer {sense : Sense} {r : Range} : r.toBuffer.Fits sense ↔ r.Fits sense := by
  constructor
  · intro h
    exact ⟨⟨h.first.line, h.first.column⟩, ⟨h.last.line, h.last.column⟩⟩
  · intro h
    exact ⟨⟨h.start.line, h.start.character⟩, ⟨h.stop.line, h.stop.character⟩⟩

/-- However many fragments there are, a hover is shown at its range. -/
theorem HoverText.range_ofHover (h : Hover) : (ofHover h).range = h.range.map Range.toBuffer := by
  obtain ⟨contents, range⟩ := h
  match contents with
  | .one f => rfl
  | .many [] => rfl
  | .many [f] => rfl
  | .many (first :: second :: rest) => rfl

theorem HoverText.forall_range_iff {sense : Sense} {h : Hover} :
    (∀ r ∈ (ofHover h).range, r.Fits sense) ↔ ∀ r ∈ h.range, r.Fits sense := by
  rw [range_ofHover]
  cases h.range <;> simp [Range.fits_toBuffer]

/-! ## Both senses -/

/-- What becomes of the numbers in a document when it is decoded. -/
structure Shape.HandsOn (shape : Shape) (v : Json) {α : Type} (decode : Json → Except DecodeError α)
    (Fits : Sense → α → Prop) : Prop where
  /-- Where an integer belongs, there is one in the wide sense. -/
  integral : ∀ x, decode v = .ok x → Fits .wide x
  /-- Whether all of them are written as integers is decided by the document. -/
  written_iff : ∀ x, decode v = .ok x → (Fits .narrow x ↔ shape.schema.admitsIn .narrow v = true)

variable {v : Json}

theorem Shape.handsOn_of {α : Type} {shape : Shape} {decode : Json → Except DecodeError α}
    {IsOf : α → Json → Prop} {Fits : Sense → α → Prop} (h : shape.Decodes decode IsOf (Fits .wide))
    (hadmits : shape.schema.admitsIn .narrow v = true ↔ ∃ x, IsOf x v ∧ Fits .narrow x) :
    shape.HandsOn v decode Fits where
  integral := fun x hx => (h.sound v x hx).2
  written_iff := by
    intro x hx
    have hof := (h.sound v x hx).1
    rw [hadmits]
    constructor
    · intro hfits
      exact ⟨x, hof, hfits⟩
    · rintro ⟨y, hy, hfits⟩
      rwa [h.unique v x y hof hy]

theorem Hover.handsOn : Shape.hover.HandsOn v decode Fits :=
  Shape.handsOn_of Hover.decodes admitsIn_iff

/-- **Every number of a decoded structure is integral, and it is written as it was sent.** -/
theorem decoded_numbers (v : Json) :
    Shape.hover.HandsOn v Hover.decode Hover.Fits ∧
      Shape.publishDiagnostics.HandsOn v PublishDiagnostics.decode PublishDiagnostics.Fits ∧
      Shape.responseError.HandsOn v ResponseError.decode ResponseError.Fits ∧
      ∀ h, Hover.decode v = .ok h →
        (∀ r ∈ (HoverText.ofHover h).range, r.Fits .wide) ∧
        ((∀ r ∈ (HoverText.ofHover h).range, r.Fits .narrow) ↔
          Schema.hover.admitsIn .narrow v = true) := by
  refine ⟨Hover.handsOn,
    Shape.handsOn_of PublishDiagnostics.decodes PublishDiagnostics.admitsIn_iff,
    Shape.handsOn_of ResponseError.decodes ResponseError.admitsIn_iff, ?_⟩
  intro h hdecode
  have hfits := Hover.handsOn.integral h hdecode
  simp only [HoverText.forall_range_iff]
  refine ⟨hfits.range, Iff.trans ?_ (Hover.handsOn.written_iff h hdecode)⟩
  constructor
  · intro hrange
    exact ⟨hfits.contents, hrange⟩
  · intro hnarrow
    exact hnarrow.range

/-- A hover whose range begins on a line that is sent as a double. -/
def doubleHover : Hover where
  contents := .one ⟨.str "x", none, none⟩
  range := some ⟨⟨.float (.ofInt 1), .int 0⟩, ⟨.int 1, .int 2⟩⟩

theorem doubleHover_fits : doubleHover.Fits .wide where
  contents := List.forall_mem_singleton.mpr ⟨⟨_, rfl⟩, by simp, by simp⟩
  range := by
    rintro _ ⟨⟩
    exact ⟨⟨⟨1, by decide +kernel, by decide⟩, ⟨0, rfl, by decide⟩⟩,
      ⟨⟨1, rfl, by decide⟩, ⟨2, rfl, by decide⟩⟩⟩

theorem decoded_numbers_double :
    Hover.decode doubleHover.payload.encode = .ok doubleHover ∧
      ¬ doubleHover.Fits .narrow ∧
      Schema.hover.admitsIn .narrow doubleHover.payload.encode = false ∧
      ¬ ∀ r ∈ (HoverText.ofHover doubleHover).range, r.Fits .narrow := by
  have hdecode : Hover.decode doubleHover.payload.encode = .ok doubleHover :=
    Hover.decodes.eq_ok_iff.mpr ⟨Hover.isOf_payload doubleHover_fits, doubleHover_fits⟩
  obtain ⟨hhover, -, -, hbuffer⟩ := decoded_numbers doubleHover.payload.encode
  have hnarrow : ¬ doubleHover.Fits .narrow := by
    intro h
    obtain ⟨n, hn, -⟩ := (h.range _ rfl).start.line
    rw [Sense.integer?_narrow_iff] at hn
    cases hn
  have hadmits : ¬ Schema.hover.admitsIn .narrow doubleHover.payload.encode = true :=
    fun h => hnarrow ((hhover.written_iff _ hdecode).mpr h)
  exact ⟨hdecode, hnarrow, by simpa using hadmits, fun h => hadmits ((hbuffer _ hdecode).2.mp h)⟩

end LanguageClient
