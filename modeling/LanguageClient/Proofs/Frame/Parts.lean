import LanguageClient.Frame.Buffer
import LanguageClient.Proofs.Frame.Header
import LanguageClient.Proofs.Json.ReadBack

/-!
# A stream of bytes as a list of parts

`front` looks at the start of a buffer.  Repeating it cuts any stream of bytes into parts, bodies
and bad headers, and a rest in which nothing is complete (`parts`).  Main statements:

* `parts_append`: cutting a stream and then what follows its rest is cutting the whole, so it does
  not matter when the bytes arrive;
* `take?_encode`: behind a printed document the stream goes on undisturbed.

## Strategy

What `front` has found stays found when more bytes arrive (`take?_append`), and every part takes at
least the four bytes of the separator (`length_of_take?`).
-/

namespace LanguageClient.Frame

/-- A complete part of a stream. -/
inductive Part where
  /-- A header block that gives no length. -/
  | malformed (error : MissingLength)
  /-- The body of a frame. -/
  | body (bytes : Bytes)

/-- The part at the start of a buffer, when it is complete, and what follows it. -/
def take? (buffer : Bytes) : Option (Part × Bytes) :=
  match front buffer with
  | .incomplete => none
  | .malformed e rest => some (.malformed e, rest)
  | .body bytes rest => some (.body bytes, rest)

theorem separator_ne_nil : separator ≠ [] := by decide

/-! ## One part -/

section Take

variable {buffer rest header : Bytes} {part : Part}

theorem take?_of_first?_none (h : Cut.first? separator buffer = none) : take? buffer = none := by
  rw [take?, front, h]

theorem take?_of_error {e : MissingLength}
    (hfirst : Cut.first? separator buffer = some (header, rest))
    (hlength : contentLength header = .error e) : take? buffer = some (.malformed e, rest) := by
  rw [take?, front, hfirst]
  simp only [hlength]

theorem take?_of_ok {n : Nat} (hfirst : Cut.first? separator buffer = some (header, rest))
    (hlength : contentLength header = .ok n) :
    take? buffer =
      if rest.length < n then none else some (.body (rest.take n), rest.drop n) := by
  rw [take?, front, hfirst]
  by_cases hshort : rest.length < n <;> simp [hlength, hshort]

/-- **A look at the buffer tells whether there is a part to take.**  Both go through the buffer on
their own, and agree on every string of bytes. -/
theorem isReady_eq (buffer : Bytes) : isReady buffer = (take? buffer).isSome := by
  rw [isReady]
  cases hfirst : Cut.first? separator buffer with
  | none => rw [take?_of_first?_none hfirst]; rfl
  | some found =>
      obtain ⟨header, rest⟩ := found
      cases hlength : contentLength header with
      | error e =>
          rw [take?_of_error hfirst hlength]
          simp only [hlength]
          rfl
      | ok n =>
          rw [take?_of_ok hfirst hlength]
          simp only [hlength]
          by_cases hshort : rest.length < n
          · rw [if_pos hshort, decide_eq_false (Nat.not_le.mpr hshort)]
            rfl
          · rw [if_neg hshort, decide_eq_true (Nat.not_lt.mp hshort)]
            rfl

/-- All that a complete part can be. -/
theorem take?_cases (h : take? buffer = some (part, rest)) :
    ∃ header after, Cut.first? separator buffer = some (header, after) ∧
      ((∃ e, contentLength header = .error e ∧ part = .malformed e ∧ rest = after) ∨
        ∃ n, contentLength header = .ok n ∧ n ≤ after.length ∧ part = .body (after.take n) ∧
          rest = after.drop n) := by
  cases hfirst : Cut.first? separator buffer with
  | none => simp [take?_of_first?_none hfirst] at h
  | some found =>
      obtain ⟨header, after⟩ := found
      refine ⟨header, after, rfl, ?_⟩
      cases hlength : contentLength header with
      | error e =>
          rw [take?_of_error hfirst hlength] at h
          obtain ⟨rfl, rfl⟩ : .malformed e = part ∧ after = rest := by simpa using h
          exact Or.inl ⟨e, rfl, rfl, rfl⟩
      | ok n =>
          rw [take?_of_ok hfirst hlength] at h
          split at h
          · exact absurd h (by simp)
          · obtain ⟨rfl, rfl⟩ : .body (after.take n) = part ∧ after.drop n = rest := by
              simpa using h
            exact Or.inr ⟨n, rfl, by omega, rfl, rfl⟩

/-- A complete part stays as it is when more bytes arrive. -/
theorem take?_append (h : take? buffer = some (part, rest)) (more : Bytes) :
    take? (buffer ++ more) = some (part, rest ++ more) := by
  obtain ⟨header, after, hfirst, hcases⟩ := take?_cases h
  have hgrown := Cut.first?_append separator_ne_nil hfirst more
  rcases hcases with ⟨e, hlength, rfl, rfl⟩ | ⟨n, hlength, hle, rfl, rfl⟩
  · exact take?_of_error hgrown hlength
  -- the body was complete, so it is cut in the same place
  · rw [take?_of_ok hgrown hlength, if_neg (by simp; omega), List.take_append_of_le_length hle,
      List.drop_append_of_le_length hle]

theorem length_of_take? (h : take? buffer = some (part, rest)) :
    rest.length + 4 ≤ buffer.length := by
  obtain ⟨header, after, hfirst, hcases⟩ := take?_cases h
  have hbuffer := Cut.eq_of_first? separator_ne_nil hfirst
  have hafter : after.length + 4 ≤ buffer.length := by
    rw [hbuffer]
    simp [separator, lineEnd]
  rcases hcases with ⟨e, -, -, rfl⟩ | ⟨n, -, -, -, rfl⟩
  · exact hafter
  · rw [List.length_drop]
    omega

end Take

/-! ## All parts -/

/-- The parts of a stream, and the rest in which no part is complete. -/
def parts (buffer : Bytes) : List Part × Bytes :=
  match h : take? buffer with
  | none => ([], buffer)
  | some (part, rest) =>
    have : rest.length + 4 ≤ buffer.length := length_of_take? h
    (part :: (parts rest).1, (parts rest).2)
termination_by buffer.length

theorem parts_of_none {buffer : Bytes} (h : take? buffer = none) : parts buffer = ([], buffer) := by
  rw [parts]
  split
  · rfl
  · rename_i part rest hsome
    simp [h] at hsome

theorem parts_of_some {buffer rest : Bytes} {part : Part} (h : take? buffer = some (part, rest)) :
    parts buffer = (part :: (parts rest).1, (parts rest).2) := by
  rw [parts]
  split
  · rename_i hnone
    simp [h] at hnone
  · rename_i part' rest' hsome
    obtain ⟨rfl, rfl⟩ : part' = part ∧ rest' = rest := by simpa [hsome] using h
    rfl

theorem length_parts_le (buffer : Bytes) : (parts buffer).1.length ≤ buffer.length := by
  fun_induction parts buffer with
  | case1 buffer h => exact Nat.zero_le _
  | case2 buffer part rest h hshorter ih =>
      rw [List.length_cons]
      omega

theorem take?_of_parts_nil {buffer left : Bytes} (h : parts buffer = ([], left)) :
    take? buffer = none := by
  cases htake : take? buffer with
  | none => rfl
  | some taken =>
      rw [parts_of_some htake] at h
      exact absurd (congrArg Prod.fst h) (List.cons_ne_nil _ _)

/-- Nothing is complete in the rest. -/
theorem take?_parts (buffer : Bytes) : take? (parts buffer).2 = none := by
  fun_induction parts buffer with
  | case1 buffer h => exact h
  | case2 buffer part rest h hshorter ih => exact ih

/-- **Cutting what has arrived, and then its rest with what follows, is cutting the whole.** -/
theorem parts_append (buffer more : Bytes) :
    parts (buffer ++ more) =
      ((parts buffer).1 ++ (parts ((parts buffer).2 ++ more)).1,
        (parts ((parts buffer).2 ++ more)).2) := by
  fun_induction parts buffer with
  | case1 buffer h => rfl
  | case2 buffer part rest h hshorter ih => rw [parts_of_some (take?_append h more), ih, List.cons_append]

theorem take?_nil : take? [] = none := rfl

/-- Pieces that are complete in themselves are one part each, whatever follows them. -/
theorem parts_flatMap {α : Type} (bytes : α → Bytes) (part : α → Part) (pieces : List α)
    (h : ∀ piece ∈ pieces, ∀ rest, take? (bytes piece ++ rest) = some (part piece, rest))
    (rest : Bytes) :
    parts (pieces.flatMap bytes ++ rest) =
      (pieces.map part ++ (parts rest).1, (parts rest).2) := by
  induction pieces with
  | nil => rfl
  | cons piece pieces ih =>
      rw [List.flatMap_cons, List.append_assoc,
        parts_of_some (h piece (List.mem_cons_self ..) _),
        ih fun p hp => h p (List.mem_cons_of_mem _ hp)]
      rfl

theorem parts_nil : parts [] = ([], []) := parts_of_none take?_nil

/-! ## Written frames -/

theorem not_mem_separator {line : List Char} (h : OnOneLine line) :
    ∀ b ∈ Utf8.ofChars line, b ∉ separator :=
  fun _ hb => Utf8.not_mem_lineBreaks h hb (by decide)

theorem take?_of_header {header body : Bytes}
    (hfirst : ∀ more, Cut.first? separator (header ++ separator ++ more) = some (header, more))
    (hlength : contentLength header = .ok body.length) (rest : Bytes) :
    take? (header ++ separator ++ body ++ rest) = some (.body body, rest) := by
  rw [List.append_assoc, take?_of_ok (hfirst _) hlength, if_neg (by simp)]
  simp

theorem first?_of_onOneLine {line : List Char} (h : OnOneLine line) (more : Bytes) :
    Cut.first? separator (Utf8.ofChars line ++ separator ++ more) =
      some (Utf8.ofChars line, more) := by
  rw [List.append_assoc, Cut.first?_append_of_disjoint separator_ne_nil (not_mem_separator h),
    Cut.first?_mark_append separator_ne_nil]
  simp

/-- **A printed document is a part of its own, whatever follows it.** -/
theorem take?_encode {message : Json}
    (hlength : Reading.IsShort (Utf8.ofChars message.render).length) (rest : Bytes) :
    take? (encode message ++ rest) = some (.body (Utf8.ofChars message.render), rest) :=
  take?_of_header (first?_of_onOneLine (onOneLine_lengthLine _)) (contentLength_lengthLine hlength)
    rest

/-- The body of a plain object is read as the object. -/
theorem readBody_render {members : Members} (h : (Json.obj members).Plain) :
    readBody (Utf8.ofChars (Json.obj members).render) = .ok members := by
  rw [readBody, Utf8.decode_ofChars (Json.onOneLine_render _)]
  simp only [Json.parse_render h]

theorem readBody_render_of_long {n : Int}
    (hn : ¬ Reading.IsShort n.natAbs) :
    readBody (Utf8.ofChars (Json.int n).render) =
      .error (.notJson (.tooManyDigits (Nat.toDigits 10 n.natAbs).length)) := by
  rw [readBody, Utf8.decode_ofChars (Json.onOneLine_render _)]
  simp only [Json.parse_render_of_long hn]

end LanguageClient.Frame
