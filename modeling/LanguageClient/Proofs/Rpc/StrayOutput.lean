import LanguageClient.Proofs.Rpc.Delivery

/-!
# Stray output between frames

A server may write something else into the stream, such as a warning.  The header behind it then
starts with the stray output, and everything depends on the line that the stray output leaves open:

```text
blank            the length is found, and the stray output leaves no trace
anything else    the header is dropped and its body stays, in front of the next header
```

A body left behind is an open line that is not blank, so in the second case every later frame fares
like the first.  Main statement: `findings_stray`, reading gets in step again exactly when the open
line is blank, and otherwise never.

## Strategy

Output that keeps a header from being found `Blocks` it.  Stray output with an open line that is not
blank does, and so does the body of any message (`Blocks.body`).  The induction over the messages
carries this property from one header to the next (`parts_of_blocks`).
-/

namespace LanguageClient.Frame

/-- The body of the frame of a message. -/
def bodyOf (message : Members) : Bytes := Utf8.ofChars (Json.obj message).render

/-- The frame of a message. -/
def frameOf (message : Members) : Bytes := encode (.obj message)

theorem frameOf_eq (message : Members) :
    frameOf message =
      Utf8.ofChars (lengthLine (bodyOf message).length) ++ separator ++ bodyOf message := rfl

/-- The lengths of the bodies can be read.  No string of bytes is too long for that. -/
def Fit (messages : List Members) : Prop :=
  ∀ m ∈ messages, Reading.IsShort (bodyOf m).length

/-- What the frame of a message gives when nothing disturbs it. -/
def frameResult (message : Members) : ReadResult := (Part.body (bodyOf message)).result

theorem frameResult_of_plain {message : Members} (h : (Json.obj message).Plain) :
    frameResult message = .ok message := by
  rw [frameResult, Part.result, bodyOf, readBody_render h]
  rfl

/-- The line that the output leaves open holds nothing but blanks. -/
def LeavesBlank (other : Bytes) : Prop :=
  ∀ c ∈ Utf8.decodeAscii (openLine other), CodePoint.isBlank c

instance (other : Bytes) : Decidable (LeavesBlank other) :=
  List.decidableBAll _ _

/-! ## The header behind other output -/

section Behind

variable {other : Bytes}

theorem first?_behind (hclear : ¬ separator <:+: other) (n : Nat) (more : Bytes) :
    Cut.first? separator (other ++ Utf8.ofChars (lengthLine n) ++ separator ++ more) =
      some (other ++ Utf8.ofChars (lengthLine n), more) := by
  have hline := onOneLine_lengthLine n
  -- the first letter of the line parts the stray output from the separator behind the line
  obtain ⟨c, line, hcons⟩ : ∃ c line, lengthLine n = c :: line := ⟨_, _, rfl⟩
  rw [hcons] at hline ⊢
  obtain ⟨hc, hrest⟩ := OnOneLine.cons_iff.mp hline
  have hnot := not_mem_separator hline
  rw [Utf8.ofChars_cons hc] at hnot ⊢
  have hshape : other ++ UInt8.ofNat c.toNat :: Utf8.ofChars line ++ separator ++ more =
      other ++ UInt8.ofNat c.toNat :: (Utf8.ofChars line ++ (separator ++ more)) := by
    simp
  rw [hshape, Cut.first?_append_cons separator_ne_nil (hnot _ (List.mem_cons_self ..)) hclear,
    Cut.first?_append_of_disjoint separator_ne_nil (not_mem_separator hrest),
    Cut.first?_mark_append separator_ne_nil]
  simp

/-- Stray output whose open line is blank does not hide the frame behind it. -/
theorem take?_of_leavesBlank (hclear : ¬ separator <:+: other)
    (hfree : ¬ NamesLength (Utf8.decodeAscii other)) (hblank : LeavesBlank other)
    {message : Members} (hfit : Reading.IsShort (bodyOf message).length) (rest : Bytes) :
    take? (other ++ frameOf message ++ rest) = some (.body (bodyOf message), rest) := by
  have hlength := contentLength_of_blank hfree hblank hfit
  rw [frameOf_eq, ← List.append_assoc, ← List.append_assoc]
  exact take?_of_header (first?_behind hclear _) hlength rest

/-- No header is found behind the output, and none ends in it. -/
structure Blocks (other : Bytes) : Prop where
  clear : ¬ separator <:+: other
  contentLength_eq (n : Nat) :
    contentLength (other ++ Utf8.ofChars (lengthLine n)) =
      .error ⟨other ++ Utf8.ofChars (lengthLine n)⟩

theorem Blocks.of_not_leavesBlank (hclear : ¬ separator <:+: other)
    (hfree : ¬ NamesLength (Utf8.decodeAscii other)) (hblank : ¬ LeavesBlank other) :
    Blocks other :=
  ⟨hclear, fun _ => contentLength_of_not_blank hfree hblank⟩

/-- A body that was left behind is in the way of the next header. -/
theorem Blocks.body (message : Members) : Blocks (bodyOf message) := by
  have hline : OnOneLine (Json.obj message).render := Json.onOneLine_render _
  obtain ⟨line, hbrace⟩ : ∃ line, (Json.obj message).render = '\x7b' :: line := ⟨_, rfl⟩
  refine ⟨?_, fun n => ?_⟩
  · rw [← Cut.first?_eq_none_iff separator_ne_nil]
    exact Cut.first?_of_disjoint separator_ne_nil (not_mem_separator hline)
  · have hall : OnOneLine ('\x7b' :: (line ++ lengthLine n)) := by
      rw [← List.cons_append, ← hbrace]
      exact OnOneLine.append_iff.mpr ⟨hline, onOneLine_lengthLine n⟩
    rw [bodyOf, hbrace, ← Utf8.ofChars_append, List.cons_append]
    exact contentLength_brace hall

/-- Where a header is blocked, it is dropped and its body stays. -/
theorem Blocks.take? (h : Blocks other) (message : Members) (rest : Bytes) :
    take? (other ++ (frameOf message ++ rest)) =
      some (.malformed ⟨other ++ Utf8.ofChars (lengthLine (bodyOf message).length)⟩,
        bodyOf message ++ rest) := by
  have hshape : other ++ (frameOf message ++ rest) =
      other ++ Utf8.ofChars (lengthLine (bodyOf message).length) ++ separator ++
        (bodyOf message ++ rest) := by
    simp [frameOf_eq]
  rw [hshape]
  exact take?_of_error (first?_behind h.clear _ _) (h.contentLength_eq _)

theorem Blocks.take?_self (h : Blocks other) : Frame.take? other = none :=
  take?_of_first?_none ((Cut.first?_eq_none_iff separator_ne_nil).mpr h.clear)

end Behind

/-! ## The messages behind it -/

/-- The parts of messages none of whose headers is found: `other` stands in front of the first
one, and of each later one the body before it. -/
def lostParts (other : Bytes) : List Members → List Part
  | [] => []
  | m :: ms =>
    .malformed ⟨other ++ Utf8.ofChars (lengthLine (bodyOf m).length)⟩ :: lostParts (bodyOf m) ms

/-- What stays in the buffer behind them. -/
def lostRest (other : Bytes) : List Members → Bytes
  | [] => other
  | m :: ms => lostRest (bodyOf m) ms

theorem length_lostParts (other : Bytes) (messages : List Members) :
    (lostParts other messages).length = messages.length := by
  induction messages generalizing other with
  | nil => rfl
  | cons m ms ih => rw [lostParts, List.length_cons, List.length_cons, ih]

/-- **Once a header is blocked, all later ones are.** -/
theorem parts_of_blocks {other : Bytes} (h : Blocks other) (messages : List Members) :
    parts (other ++ messages.flatMap frameOf) =
      (lostParts other messages, lostRest other messages) := by
  induction messages generalizing other with
  | nil =>
      rw [List.flatMap_nil, List.append_nil]
      exact parts_of_none h.take?_self
  | cons m ms ih =>
      rw [List.flatMap_cons, parts_of_some (h.take? m _), ih (Blocks.body m)]
      rfl

theorem result_of_mem_lostParts {other : Bytes} {messages : List Members} {part : Part}
    (h : part ∈ lostParts other messages) :
    ∃ e, part.result = .error (.failed (.invalidFrame e)) := by
  induction messages generalizing other with
  | nil => exact absurd h (List.not_mem_nil)
  | cons m ms ih =>
      rcases List.mem_cons.mp h with rfl | h
      · exact ⟨_, rfl⟩
      · exact ih h

theorem parts_of_fit {messages : List Members} (hfit : Fit messages) (rest : Bytes) :
    parts (messages.flatMap frameOf ++ rest) =
      (messages.map (fun m => .body (bodyOf m)) ++ (parts rest).1, (parts rest).2) :=
  parts_flatMap frameOf (fun m => .body (bodyOf m)) messages (fun m hm => take?_encode (hfit m hm))
    rest

theorem parts_frames {messages : List Members} (hfit : Fit messages) :
    parts (messages.flatMap frameOf) = (messages.map (fun m => .body (bodyOf m)), []) := by
  have hparts := parts_of_fit hfit []
  rw [List.append_nil, parts_nil, List.append_nil] at hparts
  exact hparts

theorem results_frames {messages : List Members} (hfit : Fit messages)
    (hplain : ∀ m ∈ messages, (Json.obj m).Plain) :
    (parts (messages.flatMap frameOf)).1.map Part.result = messages.map .ok := by
  rw [parts_frames hfit, List.map_map]
  exact List.map_congr_left fun m hm => frameResult_of_plain (hplain m hm)

/-- Stray output whose open line is blank leaves no trace. -/
theorem parts_of_leavesBlank {other : Bytes} (hclear : ¬ separator <:+: other)
    (hfree : ¬ NamesLength (Utf8.decodeAscii other)) (hblank : LeavesBlank other)
    {messages : List Members} (hfit : Fit messages) (hne : messages ≠ []) :
    parts (other ++ messages.flatMap frameOf) = (messages.map (fun m => .body (bodyOf m)), []) := by
  obtain ⟨m, ms, rfl⟩ := List.exists_cons_of_ne_nil hne
  have htake := take?_of_leavesBlank hclear hfree hblank (hfit m (List.mem_cons_self ..))
    (ms.flatMap frameOf)
  have hfitTail : Fit ms := fun m' hm => hfit m' (List.mem_cons_of_mem _ hm)
  rw [List.flatMap_cons, ← List.append_assoc, parts_of_some htake, parts_frames hfitTail]
  rfl

/-- All messages but the first one are found exactly if the open line is blank. -/
theorem sublist_results_iff {other : Bytes} (hclear : ¬ separator <:+: other)
    (hfree : ¬ NamesLength (Utf8.decodeAscii other)) {messages : List Members}
    (hfit : Fit messages) (hmany : 2 ≤ messages.length)
    (hplain : ∀ m ∈ messages, (Json.obj m).Plain) :
    List.Sublist (messages.tail.map .ok)
      ((parts (other ++ messages.flatMap frameOf)).1.map Part.result) ↔ LeavesBlank other := by
  obtain ⟨m, m', ms, rfl⟩ : ∃ m m' ms, messages = m :: m' :: ms := by
    obtain ⟨m, tail, rfl⟩ := List.exists_cons_of_length_pos (Nat.lt_of_lt_of_le (by decide) hmany)
    obtain ⟨m', ms, rfl⟩ := List.exists_cons_of_length_pos (Nat.le_of_succ_le_succ hmany)
    exact ⟨m, m', ms, rfl⟩
  constructor
  · intro hsublist
    by_contra hblank
    rw [parts_of_blocks (.of_not_leavesBlank hclear hfree hblank)] at hsublist
    -- a refused header gives no message, so the second one is missing
    obtain ⟨part, hpart, hresult⟩ :=
      List.mem_map.mp (hsublist.subset (List.mem_cons_self (a := Except.ok m')))
    obtain ⟨e, he⟩ := result_of_mem_lostParts hpart
    rw [he] at hresult
    cases hresult
  · intro hblank
    rw [parts_of_leavesBlank hclear hfree hblank hfit (List.cons_ne_nil _ _), List.map_map]
    -- nothing is lost, not even the first message
    have hok : (m :: m' :: ms).map .ok =
        (m :: m' :: ms).map (Part.result ∘ fun m => Part.body (bodyOf m)) :=
      List.map_congr_left fun m hm => (frameResult_of_plain (hplain m hm)).symm
    rw [← hok]
    exact (List.tail_sublist _).map _

end LanguageClient.Frame

namespace LanguageClient.Connection

open LanguageClient.Frame

variable {σ : Type} [Peer σ]

/-- **Reading gets in step again behind stray output exactly when its open line is blank.**  In this
case the stray output leaves no trace.  In the other, no message behind it is ever read: each of them
has its header refused, and the last body stays in the buffer. -/
theorem findings_stray {c : Connection σ} {d : Delivery} {before messages : List Members}
    {stray : Bytes} (hdelivers : Peer.Delivers c.peer d) (hempty : c.buffer = [])
    (hstream : d.bytes = before.flatMap frameOf ++ (stray ++ messages.flatMap frameOf))
    (hclear : ¬ separator <:+: stray) (hfree : ¬ NamesLength (Utf8.decodeAscii stray))
    (hfit : Fit (before ++ messages)) (hmany : 2 ≤ messages.length) (calls : List Call) :
    (d.arrivals.length + before.length + messages.length ≤ calls.count .read →
      Drained (c.answers calls).2 d.ending) ∧
    (Drained (c.answers calls).2 d.ending →
      ∃ after n, findings (c.answers calls).1 =
          before.map frameResult ++ after ++ List.replicate n .streamClosed ∧
        (d.ending = .quiet → n = 0) ∧
        (LeavesBlank stray → after = messages.map frameResult ∧ (c.answers calls).2.buffer = []) ∧
        (¬ LeavesBlank stray → after.length = messages.length ∧
          (∀ result ∈ after, ∃ e, result = .error (.failed (.invalidFrame e))) ∧
          (c.answers calls).2.buffer = lostRest stray messages) ∧
        ((∀ m ∈ messages, (Json.obj m).Plain) →
          (List.Sublist (messages.tail.map .ok) after ↔ LeavesBlank stray))) := by
  obtain ⟨hfitBefore, hfitMessages⟩ : Fit before ∧ Fit messages :=
    ⟨fun m hm => hfit m (List.mem_append_left _ hm),
      fun m hm => hfit m (List.mem_append_right _ hm)⟩
  have hne : messages ≠ [] := by
    rintro rfl
    exact absurd hmany (by decide)
  have hexpects : Expects c d
      (before.map (fun m => .body (bodyOf m)) ++ (parts (stray ++ messages.flatMap frameOf)).1)
      (parts (stray ++ messages.flatMap frameOf)).2 := by
    refine ⟨hdelivers, ?_⟩
    rw [hempty, hstream, List.nil_append]
    exact parts_of_fit hfitBefore _
  have hlength : (parts (stray ++ messages.flatMap frameOf)).1.length = messages.length := by
    by_cases hblank : LeavesBlank stray
    · rw [parts_of_leavesBlank hclear hfree hblank hfitMessages hne, List.length_map]
    · rw [parts_of_blocks (.of_not_leavesBlank hclear hfree hblank), length_lostParts]
  refine ⟨fun hcalls => ?_, fun hdrained => ?_⟩
  · apply hexpects.drained_of_reads
    rw [List.length_append, List.length_map, hlength]
    omega
  · obtain ⟨⟨n, hquiet, hfound⟩, hleft⟩ := hexpects.findings_of_drained hdrained
    rw [List.map_append, List.map_map] at hfound
    refine ⟨_, n, hfound, hquiet, fun hblank => ?_, fun hblank => ?_, fun hplain =>
      sublist_results_iff hclear hfree hfitMessages hmany hplain⟩
    · rw [hleft, parts_of_leavesBlank hclear hfree hblank hfitMessages hne, List.map_map]
      exact ⟨rfl, rfl⟩
    · rw [hleft, parts_of_blocks (.of_not_leavesBlank hclear hfree hblank)]
      refine ⟨by rw [List.length_map, length_lostParts], fun result hresult => ?_, rfl⟩
      obtain ⟨part, hpart, rfl⟩ := List.mem_map.mp hresult
      exact result_of_mem_lostParts hpart

/-- A warning that ends in a line feed. -/
def warning : Bytes := Utf8.ofChars "warning\n".toList

/-- The warning in front of two empty objects. -/
def warnedDelivery : Delivery where
  arrivals := [.chunk (warning ++ frameOf [] ++ frameOf []) (by decide) (by decide)]
  ending := .quiet

/-- Neither of the two objects is found. -/
theorem findings_stray_warning :
    let run := (attach (ScriptedServer.delivering warnedDelivery) .zero).answers
      (List.replicate 3 .read)
    (findings run.1).length = 2 ∧
      (∀ result ∈ findings run.1, ∃ e, result = .error (.failed (.invalidFrame e))) ∧
      run.2.buffer = bodyOf [] := by
  intro run
  have hfree : ¬ NamesLength (Utf8.decodeAscii warning) := by
    rintro ⟨part, hpart, hname⟩
    -- the warning is shorter than the name
    have hshort : part.length ≤ 8 := hpart.length_le
    have hlong := congrArg List.length hname
    rw [List.length_map] at hlong
    rw [hlong] at hshort
    exact absurd hshort (by decide)
  have hfit : Fit ([] ++ [[], []]) := by
    intro m hm
    obtain rfl : m = [] := by simpa using hm
    exact (by decide : Reading.IsShort (bodyOf []).length)
  obtain ⟨hdrained, hfound⟩ := findings_stray
    (c := attach (ScriptedServer.delivering warnedDelivery) .zero)
    (ScriptedServer.delivers_delivering warnedDelivery) rfl (by decide) (by decide) hfree hfit
    (by decide) (List.replicate 3 .read)
  obtain ⟨after, n, hafter, hquiet, -, hlost, -⟩ := hfound (hdrained (by decide))
  obtain ⟨hlength, hrefused, hleft⟩ := hlost (by decide)
  rw [hquiet rfl, List.replicate_zero, List.append_nil, List.map_nil, List.nil_append] at hafter
  rw [hafter]
  exact ⟨hlength, hrefused, hleft⟩

end LanguageClient.Connection
