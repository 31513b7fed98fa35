import LanguageClient.Proofs.Rpc.Delivery
import Mathlib.Data.List.Forall2

/-!
# Damage stays where it is

A stream is made of segments: written messages, header blocks that give no length, and frames whose
body is no message.  Main statement: `findings_segments`, every segment has one result of its own, in
order, however the stream is cut, so that a damaged segment disturbs none of its neighbours.

## Strategy

Each segment is a part of its own, whatever follows it (`Segment.take?_bytes`).  Then the parts of
the stream are those of its segments (`Frame.parts_flatMap`), and what a run finds is known from
`Expects.findings_of_drained`.

The result of a damaged segment is a failure that says what is wrong, with one exception: a body
with an integer that has too many digits ends the read by a fault (`Segment.HasLongNumber`).
-/

namespace LanguageClient

open LanguageClient.Frame

/-! ## How failures start -/

namespace RpcError

theorem message_invalidFrame (e : MissingLength) :
    Text.ofString "Invalid frame" <+: (invalidFrame e).message := by
  have hstart : Text.ofString "Invalid frame" <+: Text.ofString "Invalid frame: " := by decide
  exact hstart.trans (List.prefix_append _ _)

theorem message_invalidJson (flaw : BodyFlaw) :
    Text.ofString "Invalid JSON" <+: (invalidJson flaw).message := by
  have hstart : Text.ofString "Invalid JSON" <+: Text.ofString "Invalid JSON: " := by decide
  exact hstart.trans (List.prefix_append _ _)

theorem message_notAnObject (d : Json) :
    Text.ofString "Invalid message" <+: (notAnObject d).message := by
  have hstart : Text.ofString "Invalid message" <+: Text.ofString "Invalid message: " := by decide
  exact hstart.trans (List.prefix_append _ _)

end RpcError

/-! ## Segments -/

/-- A piece of a stream that is read on its own. -/
inductive Segment where
  /-- The frame of a message. -/
  | message (members : Members) (hplain : (Json.obj members).Plain)
  /-- A header block that gives no length, with the empty line that closes it. -/
  | badHeader (header : Bytes)
      (hcloses : Cut.first? separator (header ++ separator) = some (header, []))
      (error : MissingLength) (hlength : contentLength header = .error error)
  /-- A header with the right length, and a body that is no message. -/
  | badBody (body : Bytes) (flaw : BodyError) (hflaw : readBody body = .error flaw)

namespace Segment

def bytes : Segment → Bytes
  | message members _ => encode (.obj members)
  | badHeader header _ _ _ => header ++ separator
  | badBody body _ _ => Utf8.ofChars (lengthLine body.length) ++ separator ++ body

/-- The announced length can be read.  No string of bytes is too long for that. -/
def Fits : Segment → Prop
  | message members _ => Reading.IsShort (Utf8.ofChars (Json.obj members).render).length
  | badHeader .. => True
  | badBody body _ _ => Reading.IsShort body.length

/-- The body holds an integer with too many digits. -/
def HasLongNumber : Segment → Prop
  | badBody _ (.notJson (.tooManyDigits _)) _ => True
  | _ => False

/-- What a read should give for the segment: the message, or a failure that says what is wrong. -/
def Promised : Segment → ReadResult → Prop
  | message members _, result => result = .ok members
  | badHeader .., result =>
    ∃ e : RpcError, result = .error (.failed e) ∧ Text.ofString "Invalid frame" <+: e.message
  | badBody _ (.notAnObject _) _, result =>
    ∃ e : RpcError, result = .error (.failed e) ∧ Text.ofString "Invalid message" <+: e.message
  | badBody .., result =>
    ∃ e : RpcError, result = .error (.failed e) ∧ Text.ofString "Invalid JSON" <+: e.message

/-- The part that the segment is. -/
def part : Segment → Part
  | message members _ => .body (Utf8.ofChars (Json.obj members).render)
  | badHeader _ _ e _ => .malformed e
  | badBody body _ _ => .body body

/-- **A segment is a part of its own, whatever follows it.** -/
theorem take?_bytes {segment : Segment} (hfits : segment.Fits) (rest : Bytes) :
    take? (segment.bytes ++ rest) = some (segment.part, rest) := by
  cases segment with
  | message members hplain => exact take?_encode hfits rest
  | badHeader header hcloses e hlength =>
      have hfirst := Cut.first?_append separator_ne_nil hcloses rest
      exact take?_of_error hfirst hlength
  | badBody body flaw hflaw =>
      exact take?_of_header (first?_of_onOneLine (onOneLine_lengthLine _))
        (contentLength_lengthLine hfits) rest

/-- The result for a segment is as promised, unless a number is too long. -/
theorem promised_iff (segment : Segment) :
    segment.Promised segment.part.result ↔ ¬ segment.HasLongNumber := by
  cases segment with
  | message members hplain =>
      rw [part, Part.result, readBody_render hplain]
      exact iff_of_true rfl not_false
  | badHeader header hcloses e hlength =>
      exact iff_of_true ⟨_, rfl, RpcError.message_invalidFrame e⟩ not_false
  | badBody body flaw hflaw =>
      rw [part, Part.result, hflaw]
      rcases flaw with e | (⟨flaw, line, column, offset⟩ | n) | d
      · exact iff_of_true ⟨_, rfl, RpcError.message_invalidJson _⟩ not_false
      · exact iff_of_true ⟨_, rfl, RpcError.message_invalidJson _⟩ not_false
      · -- the read ends by a fault, which is no failure of any kind
        refine iff_of_false ?_ (not_not_intro trivial)
        rintro ⟨e, hresult, -⟩
        cases hresult
      · exact iff_of_true ⟨_, rfl, RpcError.message_notAnObject d⟩ not_false

theorem result_of_hasLongNumber {segment : Segment} (h : segment.HasLongNumber) :
    ∃ n, segment.part.result = .error (.faulted (.tooManyDigits n)) := by
  cases segment with
  | message | badHeader => exact h.elim
  | badBody body flaw hflaw =>
      rcases flaw with e | (⟨flaw, line, column, offset⟩ | n) | d
      · exact h.elim
      · exact h.elim
      · exact ⟨n, by rw [part, Part.result, hflaw]; rfl⟩
      · exact h.elim

/-- There are such numbers. -/
theorem hasLongNumber_render {n : Int}
    (hn : ¬ Reading.IsShort n.natAbs) :
    (badBody (Utf8.ofChars (Json.int n).render) _ (readBody_render_of_long hn)).HasLongNumber :=
  trivial

theorem parts_flatMap_bytes {segments : List Segment} (hfits : ∀ s ∈ segments, s.Fits) :
    parts (segments.flatMap bytes) = (segments.map part, []) := by
  have hparts := parts_flatMap bytes part segments (fun s hs => take?_bytes (hfits s hs)) []
  rw [parts_nil] at hparts
  simpa using hparts

end Segment

namespace Connection

variable {σ : Type} [Peer σ]

/-- **Every segment of a stream has its own result.**  A written message gives the message, and a
damaged segment gives a failure that says what is wrong.  The exception is a body with a number that
is too long, which ends its read by a fault, and also that read only. -/
theorem findings_segments {c : Connection σ} {d : Delivery} {segments : List Segment}
    (hdelivers : Peer.Delivers c.peer d) (hempty : c.buffer = [])
    (hstream : d.bytes = segments.flatMap Segment.bytes) (hfits : ∀ s ∈ segments, s.Fits)
    (calls : List Call) :
    (d.arrivals.length + segments.length ≤ calls.count .read →
      Drained (c.answers calls).2 d.ending) ∧
    (Drained (c.answers calls).2 d.ending →
      (c.answers calls).2.buffer = [] ∧
      ∃ results n, findings (c.answers calls).1 = results ++ List.replicate n .streamClosed ∧
        (d.ending = .quiet → n = 0) ∧
        List.Forall₂ (fun s result =>
          ¬ s.HasLongNumber ∧ s.Promised result ∨
            s.HasLongNumber ∧ ∃ k, result = .error (.faulted (.tooManyDigits k)))
          segments results ∧
        (List.Forall₂ Segment.Promised segments results ↔
          ∀ s ∈ segments, ¬ s.HasLongNumber)) := by
  have hexpects : Expects c d (segments.map Segment.part) [] := by
    refine ⟨hdelivers, ?_⟩
    rw [hempty, hstream]
    exact Segment.parts_flatMap_bytes hfits
  refine ⟨fun hcalls => ?_, fun hdrained => ?_⟩
  · apply hexpects.drained_of_reads
    rw [List.length_map]
    exact hcalls
  · obtain ⟨⟨n, hquiet, hfound⟩, hleft⟩ := hexpects.findings_of_drained hdrained
    rw [List.map_map] at hfound
    refine ⟨hleft, _, n, hfound, hquiet, ?_, ?_⟩
    · rw [List.forall₂_map_right_iff, List.forall₂_same]
      intro s _
      by_cases hlong : s.HasLongNumber
      · exact Or.inr ⟨hlong, Segment.result_of_hasLongNumber hlong⟩
      · exact Or.inl ⟨hlong, s.promised_iff.mpr hlong⟩
    · rw [List.forall₂_map_right_iff, List.forall₂_same]
      exact forall₂_congr fun s _ => s.promised_iff

/-- A body that is no object, a bad header, and a message. -/
def damagedSegments : List Segment :=
  [.badBody [0x31] (.notAnObject (.int 1)) rfl, .badHeader [0x78] (by decide) ⟨[0x78]⟩ (by decide),
    .message [] (.obj .nil (by simp) (by simp))]

/-- The segments, cut inside the first header. -/
def damagedDelivery : Delivery where
  arrivals :=
    [.chunk ((damagedSegments.flatMap Segment.bytes).take 9) (by decide) (by decide), .nothing,
      .chunk ((damagedSegments.flatMap Segment.bytes).drop 9) (by decide) (by decide)]
  ending := .quiet

theorem findings_segments_damaged :
    ∃ first second, findings ((attach (ScriptedServer.delivering damagedDelivery) .zero).answers
        (List.replicate 6 .read)).1 =
      [.error (.failed first), .error (.failed second), .ok []] ∧
        Text.ofString "Invalid message" <+: first.message ∧
        Text.ofString "Invalid frame" <+: second.message := by
  have hfits : ∀ s ∈ damagedSegments, s.Fits := by
    intro s hs
    simp only [damagedSegments, List.mem_cons, List.not_mem_nil, or_false] at hs
    rcases hs with rfl | rfl | rfl
    · exact (by decide : Reading.IsShort 1)
    · trivial
    · exact (by decide : Reading.IsShort 2)
  have hlong : ∀ s ∈ damagedSegments, ¬ s.HasLongNumber := by
    intro s hs
    simp only [damagedSegments, List.mem_cons, List.not_mem_nil, or_false] at hs
    rcases hs with rfl | rfl | rfl <;> exact not_false
  obtain ⟨hdrained, hresults⟩ := findings_segments
    (c := attach (ScriptedServer.delivering damagedDelivery) .zero)
    (ScriptedServer.delivers_delivering damagedDelivery) rfl (by decide) hfits
    (List.replicate 6 .read)
  obtain ⟨-, results, n, hfound, hquiet, -, hpromised⟩ := hresults (hdrained (by decide))
  rw [hquiet rfl, List.replicate_zero, List.append_nil] at hfound
  have hall := hpromised.mpr hlong
  rw [hfound]
  cases hall with
  | cons hfirst hall =>
      cases hall with
      | cons hsecond hall =>
          cases hall with
          | cons hthird hall =>
              cases hall
              obtain ⟨first, rfl, hfirst⟩ := hfirst
              obtain ⟨second, rfl, hsecond⟩ := hsecond
              exact ⟨first, second, by rw [hthird], hfirst, hsecond⟩

end Connection

end LanguageClient
