import LanguageClient.Proofs.Client.History
import LanguageClient.Proofs.Protocol.Decoding
import LanguageClient.Script.Server

/-!
# What a server can do to the editor

Whatever a server writes, the calls that read from it give a result, with one exception: a list of
diagnostics for a text that cannot be taken for a URI ends the call that asks for events by a fault.
Main statement: `run_faults`, for every run and every output, as long as no number in it has too many
digits and no wait is cut short.

## Strategy

Reading and waiting end by a fault only where their traffic says so (`Called.fault_eq`,
`Hears.fault_eq`).  What is made of a message afterwards is total but for the URI of diagnostics
(`interpret_fault`).
-/

namespace LanguageClient

/-! ## The URI of diagnostics -/

namespace Message

/-- The text in the place of a URI, in diagnostics that can be decoded. -/
def reportedUri? (m : Members) : Option Text :=
  match m.get? "params" with
  | some (.obj params) =>
    (PublishDiagnostics.decode (.obj params)).toOption.map fun decoded => textOf decoded.uri
  | _ => none

/-- Why the text in the place of a URI cannot be taken for one. -/
def unreadableUri? (m : Members) : Option Uri.Malformed :=
  (reportedUri? m).bind fun uri =>
    match Uri.toPath uri with
    | .error e => some e
    | .ok _ => none

/-- The message is a notification of diagnostics, for a text that cannot be taken for a URI. -/
def malformed? (m : Members) : Option Uri.Malformed :=
  match classify (.obj m), method (.obj m) with
  | .ok .notification, .ok .publishDiagnostics => unreadableUri? m
  | _, _ => none

theorem namesMethod_of_response {m : Members} (h : classify (.obj m) = .ok .response) :
    namesMethod m = false := by
  cases hnames : namesMethod m with
  | false => rfl
  | true => cases hid : m.has "id" <;> simp [classify, hnames, hid] at h

end Message

namespace Client

open LanguageClient.Connection

variable {σ : Type}

theorem subjectOf_of_decode {m params : Members} {decoded : PublishDiagnostics}
    (hparams : m.get? "params" = some (.obj params))
    (hdecode : PublishDiagnostics.decode (.obj params) = .ok decoded) :
    subjectOf m = (Uri.toPath (Message.textOf decoded.uri)).map Except.toOption := by
  have huri := (PublishDiagnostics.decodes.sound _ _ hdecode).1.uri
  unfold subjectOf
  simp only [hparams, Option.bind_some, huri, Option.getD_some]
  rcases Uri.toPath (Message.textOf decoded.uri) with e | (r | path) <;> rfl

/-- Diagnostics end in a fault if and only if their URI cannot be read. -/
theorem event_fault (m : Members) (c : Client σ) :
    Attempt.fault? (event .publishDiagnostics m c).1 =
      (Message.unreadableUri? m).map .malformedUri := by
  unfold event Message.diagnostics Message.unreadableUri? Message.reportedUri?
  cases hparams : m.get? "params" with
  | none => rfl
  | some v =>
      cases v with
      | obj params =>
          dsimp only
          cases hdecode : PublishDiagnostics.decode (.obj params) with
          | error e => rfl
          | ok decoded =>
              dsimp only [Except.toOption, Option.map_some, Option.bind_some]
              rw [subjectOf_of_decode hparams hdecode]
              -- the URI is read once more when there is a list
              cases decoded.diagnostics with
              | none => rcases Uri.toPath (Message.textOf decoded.uri) with e | (r | path) <;> rfl
              | some list =>
                  rcases Uri.toPath (Message.textOf decoded.uri) with e | (r | path) <;> rfl
      | _ => rfl

theorem event_fault_of_ne {method : Method} (h : method ≠ .publishDiagnostics) (m : Members)
    (c : Client σ) : Attempt.fault? (event method m c).1 = none := by
  cases method with
  | publishDiagnostics => exact absurd rfl h
  | showMessage | logMessage =>
      unfold event
      cases Message.serverMessage m with
      | error e => rfl
      | ok message => rfl
  | _ => rfl

/-- **What is made of a message is total but for the URI of diagnostics.** -/
theorem interpret_fault (m : Members) (c : Client σ) :
    Attempt.fault? (interpret m c).1 = (Message.malformed? m).map .malformedUri := by
  unfold interpret Message.malformed?
  rcases hclassify : Message.classify (.obj m) with e | kind
  · rfl
  · rcases hmethod : Message.method (.obj m) with e | method
    · cases kind <;> rfl
    · cases kind with
      | request => rfl
      | response =>
          -- a response names no method
          obtain ⟨e, he⟩ := method_of_nameless (Message.namesMethod_of_response hclassify)
          rw [hmethod] at he
          cases he
      | notification =>
          show Attempt.fault? (event method m c).1 = _
          by_cases hpublish : method = .publishDiagnostics
          · rw [hpublish]
            exact event_fault m c
          · rw [event_fault_of_ne hpublish]
            cases method with
            | publishDiagnostics => exact absurd rfl hpublish
            | _ => rfl

/-! ## Calls that read -/

variable [Peer σ]

namespace Event

/-- The message that asking for an event takes. -/
def taken? (e : Event σ) : Option Members :=
  match e.call with
  | .poll =>
    if e.before.phase = .closed then none
    else (e.before.connection.inbox ++ e.read.filter (·.has "method")).head?
  | _ => none

/-- No wait was cut short, and no number in what could be read had too many digits. -/
structure Calm (e : Event σ) : Prop where
  waits : ∀ contact ∈ e.contacts, contact.fault? = none
  numbers : ∀ part ∈ (Frame.parts
    (e.before.connection.buffer ++ e.contacts.flatMap Contact.output)).1, part.fault? = none

variable {e : Event σ}

omit [Peer σ] in
theorem Calm.fault?_eq_none (h : e.Calm) {t : Traffic}
    (hcarries : Carries e.before.connection e.after.connection t) : t.fault? = none := by
  have hcontacts := e.contacts_eq hcarries
  have hparts := hcarries.parts_eq []
  rw [List.append_nil, List.append_nil, Traffic.output, ← hcontacts] at hparts
  refine Option.or_eq_none_iff.mpr ⟨List.findSome?_eq_none_iff.mpr fun contact hmem => ?_,
    List.findSome?_eq_none_iff.mpr fun part hmem => ?_⟩
  · exact h.waits contact (hcontacts ▸ hmem)
  · refine h.numbers part ?_
    rw [hparts]
    exact List.mem_append_left _ hmem

omit [Peer σ] in
theorem taken?_of_isRequest (h : e.call.isRequest = true) : e.taken? = none := by
  unfold taken?
  cases hcall : e.call with
  | poll => rw [hcall] at h; cases h
  | _ => rfl

omit [Peer σ] in
theorem fault?_conclusion (call : Call) (response : ReadResult) :
    Attempt.fault? (call.conclusion response) = Attempt.fault? response := by
  rcases response with (e | f) | m
  · rfl
  · rfl
  · rw [Call.conclusion]
    cases call.verdict m <;> rfl

/-- A request gives a result. -/
theorem request_fault (h : e.Happens) (hkind : e.call.isRequest = true)
    (hpath : ∀ path, e.call.path? = some path → e.before.uri? path ≠ none) (hcalm : e.Calm) :
    Attempt.fault? e.result = none := by
  cases hspeaks : e.before.says? e.call with
  | none =>
      obtain ⟨-, stop, hresult, ⟨error, rfl⟩ | ⟨path, hnamed, huri⟩⟩ := h.refused_inv hkind hspeaks
      · rw [hresult]
        rfl
      · exact absurd huri (hpath path hnamed)
  | some said =>
      obtain ⟨method, params⟩ := said
      obtain ⟨response, d, outcome, t, hcalled, hresult, hafter⟩ := h.asked_inv hkind hspeaks
      have hwrite : (Traffic.write (outgoing (some (.int e.before.nextId)) method.wireName params)
          outcome).fault? = none := rfl
      rw [hresult, fault?_conclusion, hcalled.fault_eq, ← Traffic.fault?_append_of_none hwrite t]
      exact hcalm.fault?_eq_none (by rw [hafter]; exact hcalled.carries)

/-- Asking for an event gives a result, but for the URI of diagnostics. -/
theorem poll_fault (h : e.Happens) (hcall : e.call = .poll) (hcalm : e.Calm) :
    Attempt.fault? e.result = (e.taken?.bind Message.malformed?).map .malformedUri := by
  rcases h.polled_inv hcall with
    ⟨hclosed, ⟨error, hresult⟩, -⟩ | ⟨next, d, t, hopen, hpassed, hresult, hafter⟩
  · rw [hresult, taken?, hcall]
    dsimp only
    rw [if_pos hclosed]
    rfl
  · have hcarries : Carries e.before.connection e.after.connection t := by
      rw [hafter]
      exact hpassed.carries
    have htaken : e.taken? = next.toOption.join := by
      rw [taken?, hcall]
      dsimp only
      rw [if_neg hopen, e.read_eq hcarries, hpassed.head_eq]
    have hcalm' : Attempt.fault? next = none := by
      rw [hpassed.fault_eq]
      exact hcalm.fault?_eq_none hcarries
    rw [hresult, htaken]
    rcases next with (error | f) | (_ | m)
    · rw [polledResult]
      split <;> rfl
    · cases hcalm'
    · rw [polledResult]
      split <;> rfl
    · rw [polledResult]
      have hfault := interpret_fault m { e.before with connection := d }
      rcases hinterpret : (interpret m { e.before with connection := d }).1 with (error | f) | found
      · rw [hinterpret] at hfault
        exact hfault
      · rw [hinterpret] at hfault
        exact hfault
      · rw [hinterpret] at hfault
        exact hfault

end Event

/-- **What a server can do to the editor.**  Whatever is called, and whatever the server writes: a
first request, a shutdown, a hover on a path that has a URI, and asking for an event all give a
result, but for one case.  Asking for an event ends by a fault if and only if the message it takes is
a notification of diagnostics that can be decoded, for a text that cannot be taken for a URI. -/
theorem run_faults (peer : σ) (processId : Nat) (workingDirectory : Text)
    (pollTimeout : Binary64) (cycles : Int) (steps : List (Step σ)) :
    let run := run peer processId workingDirectory pollTimeout cycles steps
    ∀ e ∈ run.1, (e.call.isRequest = true ∨ e.call = .poll) →
      (∀ path, e.call.path? = some path → e.before.uri? path ≠ none) → e.Calm →
      Attempt.fault? e.result = (e.taken?.bind Message.malformed?).map .malformedUri := by
  intro run e hmem hreads hpath hcalm
  have hhappens := history_happens _ steps e hmem
  rcases hreads with hkind | hcall
  · rw [Event.request_fault hhappens hkind hpath hcalm, Event.taken?_of_isRequest hkind]
    rfl
  · exact Event.poll_fault hhappens hcall hcalm

/-- A server that reports diagnostics for an address that is none. -/
def misaddressed : ScriptedServer :=
  .start ⟨[.send (.object [("method", .ofString "textDocument/publishDiagnostics"),
    ("params", .object [("uri", .ofString "file://[")])])], []⟩

theorem run_faults_misaddressed :
    ∃ e ∈ (run misaddressed 1 "/" .zero 1 [.call .poll]).1, e.call = .poll ∧
      Attempt.fault? e.result = some (.malformedUri (.host .brackets)) := by
  let e : Event ScriptedServer := (attach (.of misaddressed) 1 "/" .zero 1).eventOf .poll
  have hmem : e ∈ (run misaddressed 1 "/" .zero 1 [.call .poll]).1 := List.mem_singleton.mpr rfl
  have hcalm : e.Calm := ⟨by decide +kernel, by decide +kernel⟩
  have htaken : e.taken?.bind Message.malformed? = some (.host .brackets) := by decide +kernel
  refine ⟨e, hmem, rfl, ?_⟩
  rw [run_faults _ _ _ _ _ _ e hmem (Or.inr rfl) (fun path h => nomatch h) hcalm, htaken]
  rfl

end Client

end LanguageClient
