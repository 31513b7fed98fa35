import LanguageClient.Proofs.Client.Correlation
import LanguageClient.Proofs.Client.Totality
import LanguageClient.Proofs.Json.Members
import LanguageClient.Proofs.Rpc.Cycles

/-!
# Where a message goes

A message that is read while a response is awaited is kept, answers, or is refused.  This is decided
by the presence of a method and by the id, without regard to the kind of the message, which is told
later, and by other rules:

```text
method         the others                  kind            where it goes
a text         id                          request         kept
a text         no id                       notification    kept
no text        id, and result or error     response        kept
no text        any others                  none            kept
none           id, and result or error     response        by the id
none           any others                  none            by the id
```

Main statement: `receive_agrees_iff`, for which messages the two agree.

## Strategy

The kinds are told apart by what a message has (`Message.classify_response_iff`).  What becomes of a
message follows from the step that its poll cycle is (`receive_read`).
-/

namespace LanguageClient

/-! ## Kinds -/

namespace Message

variable {m : Members}

theorem classify_response_iff : classify (.obj m) = .ok .response ↔
    namesMethod m = false ∧ m.has "id" = true ∧ (m.has "result" = true ∨ m.has "error" = true) := by
  cases hnames : namesMethod m with
  | true => cases hid : m.has "id" <;> simp [classify, hnames, hid]
  | false =>
      cases hid : m.has "id" with
      | false => simp [classify, hnames, hid]
      | true => by_cases hbody : m.has "result" = true ∨ m.has "error" = true <;>
          simp [classify, hnames, hid, hbody]

/-- The message is a request or a notification. -/
def IsInbound (m : Members) : Prop :=
  classify (.obj m) = .ok .request ∨ classify (.obj m) = .ok .notification

/-- A method that is a text makes a message a request or a notification, and nothing else does. -/
theorem isInbound_iff : IsInbound m ↔ namesMethod m = true := by
  cases hnames : namesMethod m with
  | true => cases hid : m.has "id" <;> simp [IsInbound, classify, hnames, hid]
  | false =>
      have hnot : ∀ kind, classify (.obj m) = .ok kind → kind = .response := by
        intro kind hkind
        rw [classify] at hkind
        simp only [hnames, Bool.false_and, Bool.false_eq_true, if_false] at hkind
        split at hkind <;> cases hkind
        rfl
      refine iff_of_false ?_ Bool.false_ne_true
      rintro (hkind | hkind) <;> cases hnot _ hkind

end Message

/-! ## One poll cycle -/

namespace Connection

open LanguageClient.Frame LanguageClient.Message

variable {σ : Type} [Peer σ] {c : Connection σ} {m : Members}

theorem routed_eq_ok_iff {id : Json} : routed id m = .ok m ↔ Answers id m := by
  refine ⟨fun h => ?_, routed_of_answers⟩
  by_contra hnot
  have hunanswered := unanswered_routed hnot
  rw [h] at hunanswered
  cases hunanswered

omit [Peer σ] in
theorem has_id_of_same {n : Int} (h : (responseId m).same (.int n) = true) : m.has "id" = true := by
  rw [Members.has_eq_isSome]
  cases hget : m.get? "id" with
  | some v => rfl
  | none =>
      rw [responseId, hget] at h
      cases h

/-- What becomes of a message that a poll cycle has read. -/
theorem receive_read {id : Json} (hread : (receive id c).2.received = c.received ++ [m]) :
    (receive id c).1 = routed id m ∧
      (receive id c).2.inbox = c.inbox ++ [m].filter (·.has "method") := by
  have hstep : Step (.receive id) c _ _ := receive_step rfl c
  generalize (receive id c).1 = result at hstep ⊢
  generalize (receive id c).2 = c' at hstep hread ⊢
  generalize houtcome : Outcome.of .returned result = outcome at hstep
  have hsame : ∀ {read : List Members}, c'.received = c.received ++ read → read = [m] := fun h =>
    List.append_cancel_left (h.symm.trans hread)
  cases hstep with
  | idle hidle h => exact absurd (hsame h.received_eq) (List.cons_ne_nil _ _).symm
  | kept hawaits hmethod h =>
      cases hsame h.received_eq
      refine ⟨?_, by rw [h.inbox_eq]; simp [hmethod]⟩
      rw [routed, if_pos hmethod]
      cases result <;> cases houtcome
      rfl
  | answered hawaits hmethod hid h =>
      cases hawaits
      cases hsame h.received_eq
      refine ⟨?_, by rw [h.inbox_eq]; simp [hmethod]⟩
      rw [routed_of_answers ⟨hmethod, hid⟩]
      cases result <;> cases houtcome
      rfl
  | refused hawaits hmethod hid h =>
      cases hawaits
      cases hsame h.received_eq
      refine ⟨?_, by rw [h.inbox_eq]; simp [hmethod]⟩
      rw [routed, if_neg (by simp [hmethod]), if_neg (by simp [hid])]
      cases result <;> cases houtcome
      rfl
  | taken hnext | passed hnext | dropped hnext => cases hnext

/-- **Where a message goes, and of which kind it is.**  A message that is read is kept if it has a
method, and answers if it has none and carries the id.

* It is kept if and only if it is a request or a notification, unless its method is no text.
* One that answers is a response if and only if it has a result or an error.
* A response with the very id answers if and only if it has no method. -/
theorem receive_by_kind {n : Int}
    (hread : (receive (.int n) c).2.received = c.received ++ [m]) :
    let result := (receive (.int n) c).1
    let inbox := (receive (.int n) c).2.inbox
    (m.has "method" = true → inbox = c.inbox ++ [m] ∧ result = .error (.failed .noResponse)) ∧
    (m.has "method" = false → inbox = c.inbox) ∧ (result = .ok m ↔ Answers (.int n) m) ∧
    ((inbox = c.inbox ++ [m] ↔ IsInbound m) ↔ (m.has "method" = true → namesMethod m = true)) ∧
    (result = .ok m →
      (classify (.obj m) = .ok .response ↔ m.has "result" = true ∨ m.has "error" = true)) ∧
    (classify (.obj m) = .ok .response → m.get? "id" = some (.int n) →
      (result = .ok m ↔ m.has "method" = false)) := by
  intro result inbox
  obtain ⟨hresult, hinbox⟩ := receive_read hread
  have hresult : result = routed (.int n) m := hresult
  have hinbox : inbox = c.inbox ++ [m].filter (·.has "method") := hinbox
  have hok : result = .ok m ↔ Answers (.int n) m := by rw [hresult, routed_eq_ok_iff]
  have hkept : inbox = c.inbox ++ [m] ↔ m.has "method" = true := by
    rw [hinbox, List.append_cancel_left_eq]
    cases hmethod : m.has "method" <;> simp [hmethod]
  refine ⟨fun hmethod => ⟨hkept.mpr hmethod, by rw [hresult, routed, if_pos hmethod]⟩,
    fun hmethod => by rw [hinbox]; simp [hmethod], hok, ?_, ?_, ?_⟩
  · -- a method that is a text is one
    rw [hkept, isInbound_iff]
    exact ⟨Iff.mp, fun h => ⟨h, Client.has_of_namesMethod⟩⟩
  · intro hanswered
    obtain ⟨hmethod, hid⟩ := hok.mp hanswered
    rw [classify_response_iff]
    refine ⟨fun h => h.2.2, fun h => ⟨?_, has_id_of_same hid, h⟩⟩
    exact Bool.eq_false_iff.mpr fun hnames => by
      rw [Client.has_of_namesMethod hnames] at hmethod
      cases hmethod
  · intro hresponse hid
    have hsame : (responseId m).same (.int n) = true := by
      rw [responseId, hid]
      simp [Json.same, Json.extended?]
    rw [hok]
    exact ⟨And.left, fun hmethod => ⟨hmethod, hsame⟩⟩

/-- A connection to a server that has written one message. -/
def offering (m : Members) (hlength : (frameOf m).length ≤ readLimit) : Connection ScriptedServer :=
  attach (.holding [.chunk (frameOf m) (List.cons_ne_nil _ _) hlength] []) .zero

theorem inbox_offering (hlength : (frameOf m).length ≤ readLimit) :
    (offering m hlength).inbox = [] := rfl

/-- The message is read by the first poll cycle. -/
theorem received_offering (hlength : (frameOf m).length ≤ readLimit)
    (hshort : Reading.IsShort (bodyOf m).length) (hplain : (Json.obj m).Plain) (id : Json) :
    (receive id (offering m hlength)).2.received = (offering m hlength).received ++ [m] := by
  have hoffers : Offers (offering m hlength) ⟨_, .quiet⟩ [m] :=
    .of_frames (ScriptedServer.holds_holding _ _) rfl rfl
      (List.forall_mem_singleton.mpr hshort) (List.forall_mem_singleton.mpr hplain)
  have htake := take?_encode hshort []
  rw [List.append_nil] at htake
  exact hoffers.receive_received htake id

/-- A response that has a number for a method. -/
def numbered : Members := [("method", .int 5), ("id", .int 1), ("result", .null)]

theorem plain_numbered : (Json.obj numbered).Plain := by
  refine .obj (by decide) (by decide +kernel) ?_
  simp only [numbered, List.forall_mem_cons]
  exact ⟨.int (by decide), .int (by decide), .null, List.forall_mem_nil _⟩

theorem short_numbered : (frameOf numbered).length ≤ readLimit := by decide +kernel

/-- It is a response with the id that is waited for, and is kept. -/
theorem receive_by_kind_numbered :
    classify (.obj numbered) = .ok .response ∧ numbered.get? "id" = some (.int 1) ∧
      ¬IsInbound numbered ∧
      (receive (.int 1) (offering numbered short_numbered)).1 = .error (.failed .noResponse) ∧
      (receive (.int 1) (offering numbered short_numbered)).2.inbox = [numbered] := by
  have hread := received_offering short_numbered (by decide +kernel) plain_numbered (.int 1)
  obtain ⟨hkept, -⟩ := receive_by_kind hread
  obtain ⟨hinbox, hresult⟩ := hkept (by decide)
  rw [inbox_offering, List.nil_append] at hinbox
  have hnames : namesMethod numbered = false := rfl
  refine ⟨rfl, rfl, fun h => ?_, hresult, hinbox⟩
  rw [isInbound_iff, hnames] at h
  cases h

end Connection

end LanguageClient
