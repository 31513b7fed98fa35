import LanguageClient.Proofs.Client.Totality
import LanguageClient.Proofs.Uri.RoundTrip

/-!
# What diagnostics are about

Diagnostics are sent for a URI, and the event that is made of them names the file by the path that
the URI is read as.  A URI that names no local file is refused only where the diagnostics are
listed: with no list there is an event all the same, and it names nothing.  Main statement:
`subjects_of_polled`.

```text
URI              with a list            without one
a local file     named, list            named, no list
another one      refused                nameless
unreadable       fault                  fault
```

## Strategy

The URI is read once for the list and once for the event.  `interpret_eq_madeOf` says what comes of
both readings, and asking for an event gives what the message it takes is (`result_of_taken?`).
-/

namespace LanguageClient

namespace Message

/-- The message is a notification of diagnostics. -/
structure NotifiesDiagnostics (m : Members) : Prop where
  method : m.get? "method" = some (.str Method.publishDiagnostics.wireName)
  notification : m.has "id" = false

/-- The message is a notification of diagnostics for the URI, with these contents. -/
structure Reports (m : Members) (uri : Text) (decoded : PublishDiagnostics) : Prop where
  method : m.get? "method" = some (.str Method.publishDiagnostics.wireName)
  notification : m.has "id" = false
  params : ∃ params, m.get? "params" = some (.obj params) ∧
    Members.get? params "uri" = some (.str uri) ∧
      PublishDiagnostics.decode (.obj params) = .ok decoded

/-- The message lists diagnostics; the list may be empty. -/
def ListsDiagnostics (m : Members) : Prop :=
  ∃ params items, m.get? "params" = some (.obj params) ∧
    Members.get? params "diagnostics" = some (.arr items)

variable {m : Members} {uri : Text} {decoded : PublishDiagnostics}

theorem Reports.notifies (h : Reports m uri decoded) : NotifiesDiagnostics m :=
  ⟨h.method, h.notification⟩

/-- A list that is sent is decoded, and none else. -/
theorem Reports.lists_iff (h : Reports m uri decoded) :
    ListsDiagnostics m ↔ ∃ list, decoded.diagnostics = some list := by
  obtain ⟨params, hparams, -, hdecode⟩ := h.params
  have hof := (PublishDiagnostics.decodes.sound _ _ hdecode).1.diagnostics
  have hlists : ListsDiagnostics m ↔ ∃ items, (Json.obj params).member? "diagnostics" =
      some (.arr items) := by
    constructor
    · rintro ⟨params', items, hparams', hitems⟩
      obtain rfl : params = params' := by simpa [hparams] using hparams'
      exact ⟨items, hitems⟩
    · rintro ⟨items, hitems⟩
      exact ⟨params, items, hparams, hitems⟩
  rw [hlists]
  generalize decoded.diagnostics = diagnostics at hof
  cases hof with
  | absent hmember => simp [hmember]
  | null hmember => simp [hmember]
  | given hmember hnull hpart =>
      obtain ⟨items, rfl, -⟩ := hpart
      exact iff_of_true ⟨items, hmember⟩ ⟨_, rfl⟩

/-- Diagnostics that do not tell of a URI cannot be decoded. -/
theorem NotifiesDiagnostics.undecodable (h : NotifiesDiagnostics m)
    (hnone : ∀ uri decoded, ¬Reports m uri decoded) :
    ∃ error, Message.diagnostics m = .ok (.error error) := by
  unfold Message.diagnostics
  cases hparams : m.get? "params" with
  | none => exact ⟨_, rfl⟩
  | some v =>
      cases v with
      | obj params =>
          dsimp only
          cases hdecode : PublishDiagnostics.decode (.obj params) with
          | error e => exact ⟨_, rfl⟩
          | ok decoded =>
              obtain ⟨hof, hfits⟩ := PublishDiagnostics.decodes.sound _ _ hdecode
              obtain ⟨uri, huri⟩ := hfits.uri
              exact absurd ⟨h.method, h.notification, params, hparams, huri ▸ hof.uri, hdecode⟩
                (hnone uri decoded)
      | _ => exact ⟨_, rfl⟩

end Message

/-- The event is about the file of the URI: its path is what the URI is read as, a normal one, and
the list it carries comes under the same path. -/
structure ServerEvent.IsAbout (event : ServerEvent) (uri : Text) : Prop where
  method : event.method = .publishDiagnostics
  path_iff : ∀ path, event.path = some path ↔ Uri.toPath uri = .ok (.ok path)
  normal : ∀ path, event.path = some path → Path.normalize path = path
  agrees : ∀ found, event.value = .diagnostics (some found) → event.path = some found.path

namespace Client

open LanguageClient.Connection

variable {σ : Type}

/-- The event of diagnostics for a path. -/
def diagnosticsOf (path : Text) (decoded : PublishDiagnostics) : ServerEvent where
  method := .publishDiagnostics
  value := .diagnostics (decoded.diagnostics.map fun diagnostics => ⟨path, diagnostics⟩)
  path := some path

/-- The event of diagnostics that are about nothing. -/
def nameless : ServerEvent := ⟨.publishDiagnostics, .diagnostics none, none⟩

/-- The refusal of a list of diagnostics. -/
def refusalOf (error : MessageError) : Stop ClientError :=
  .failed (.badNotification .publishDiagnostics error)

/-- What is made of diagnostics for a URI. -/
def madeOf (uri : Text) (decoded : PublishDiagnostics) : Except (Stop ClientError) ServerEvent :=
  match Uri.toPath uri, decoded.diagnostics with
  | .error e, _ => .error (.faulted (.malformedUri e))
  | .ok (.ok path), _ => .ok (diagnosticsOf path decoded)
  | .ok (.error refusal), some _ => .error (refusalOf (.notALocalFile refusal))
  | .ok (.error _), none => .ok nameless

/-- There is an event for a local file, or without a list. -/
theorem madeOf_eq_ok {uri : Text} {decoded : PublishDiagnostics} {event : ServerEvent}
    (h : madeOf uri decoded = .ok event) :
    (∃ path, Uri.toPath uri = .ok (.ok path) ∧ event = diagnosticsOf path decoded) ∨
      (∃ refusal, Uri.toPath uri = .ok (.error refusal)) ∧ decoded.diagnostics = none ∧
        event = nameless := by
  unfold madeOf at h
  rcases hread : Uri.toPath uri with e | (refusal | path)
  · rw [hread] at h
    cases h
  · rw [hread] at h
    cases hlist : decoded.diagnostics with
    | none =>
        rw [hlist] at h
        exact Or.inr ⟨⟨refusal, rfl⟩, rfl, (Except.ok.inj h).symm⟩
    | some list =>
        rw [hlist] at h
        cases h
  · rw [hread] at h
    exact Or.inl ⟨path, rfl, (Except.ok.inj h).symm⟩

theorem isAbout_diagnosticsOf {uri path : Text} (hpath : Uri.toPath uri = .ok (.ok path))
    (decoded : PublishDiagnostics) : (diagnosticsOf path decoded).IsAbout uri where
  method := rfl
  path_iff := by
    intro path'
    simp [diagnosticsOf, hpath]
  normal := by
    rintro _ ⟨⟩
    obtain ⟨name, -, rfl⟩ := Uri.exists_of_toPath hpath
    exact Path.normalize_normalize name
  agrees := by
    intro found hfound
    obtain ⟨list, -, rfl⟩ := Option.map_eq_some_iff.mp (EventValue.diagnostics.inj hfound)
    rfl

theorem isAbout_nameless {uri : Text} {refusal : Uri.Refusal}
    (hrefused : Uri.toPath uri = .ok (.error refusal)) : nameless.IsAbout uri where
  method := rfl
  path_iff := by
    intro path
    simp [nameless, hrefused]
  normal := fun _ h => nomatch h
  agrees := fun _ h => nomatch h

theorem interpret_of_notifies {m : Members} (h : Message.NotifiesDiagnostics m) (c : Client σ) :
    interpret m c = event .publishDiagnostics m c := by
  have hclassify : Message.classify (.obj m) = .ok .notification := by
    simp [Message.classify, Message.namesMethod, h.method, h.notification]
  have hknown : Message.method (.obj m) = .ok .publishDiagnostics := by
    have hname : Method.ofWireName? Method.publishDiagnostics.wireName =
        some .publishDiagnostics := by decide +kernel
    simp [Message.method, Json.member?, h.method, hname]
  unfold interpret
  simp [hclassify, hknown, Attempt.ofExcept, Attempt.bind_apply]

/-- **What comes of both readings of a URI.** -/
theorem interpret_eq_madeOf {m : Members} {uri : Text} {decoded : PublishDiagnostics}
    (h : Message.Reports m uri decoded) (c : Client σ) :
    (interpret m c).1 = madeOf uri decoded := by
  obtain ⟨params, hparams, huri, hdecode⟩ := h.params
  have htext : Message.textOf decoded.uri = uri := by
    have hdecoded : Members.get? params "uri" = some decoded.uri :=
      (PublishDiagnostics.decodes.sound _ _ hdecode).1.uri
    rw [← Option.some.inj (huri.symm.trans hdecoded)]
    rfl
  have hsubject := subjectOf_of_decode hparams hdecode
  rw [htext] at hsubject
  rw [interpret_of_notifies h.notifies]
  unfold event Message.diagnostics madeOf
  simp only [hparams, hdecode, htext, hsubject]
  -- the first reading is skipped without a list
  cases hlist : decoded.diagnostics with
  | none | some =>
      rcases Uri.toPath uri with e | (refusal | path)
      · rfl
      · rfl
      · show _ = Except.ok (diagnosticsOf path decoded)
        rw [diagnosticsOf, hlist]
        rfl

/-- Diagnostics come under the path that their URI is read as. -/
theorem interpret_of_reports {m : Members} {uri path : Text} {decoded : PublishDiagnostics}
    (h : Message.Reports m uri decoded) (hpath : Uri.toPath uri = .ok (.ok path)) (c : Client σ) :
    (interpret m c).1 = .ok (diagnosticsOf path decoded) := by
  rw [interpret_eq_madeOf h, madeOf, hpath]

variable [Peer σ]

/-- Asking for an event gives what the message it takes is. -/
theorem Event.result_of_taken? {e : Event σ} (h : e.Happens) {m : Members}
    (htaken : e.taken? = some m) :
    e.result = (interpret m e.after).1.map fun found => .event (some found) := by
  have hcall : e.call = .poll := by
    unfold taken? at htaken
    split at htaken
    · assumption
    · cases htaken
  rcases h.polled_inv hcall with
    ⟨hclosed, -, -⟩ | ⟨next, d, t, hopen, hpassed, hresult, hafter⟩
  · rw [taken?, hcall] at htaken
    dsimp only at htaken
    rw [if_pos hclosed] at htaken
    cases htaken
  · have hcarries : Carries e.before.connection e.after.connection t := by
      rw [hafter]
      exact hpassed.carries
    rw [taken?, hcall] at htaken
    dsimp only at htaken
    rw [if_neg hopen, e.read_eq hcarries, ← hpassed.head_eq] at htaken
    obtain rfl : next = .ok (some m) := by
      rcases next with stop | (_ | found)
      · cases htaken
      · cases htaken
      · cases htaken
        rfl
    rw [hresult, hafter]
    rfl

/-- What asking for an event gives when the message taken is a notification of diagnostics. -/
structure Event.Subjects (e : Event σ) (m : Members) : Prop where
  /-- An event is about the file of the URI, and it names none only if the URI is that of no local
  file and there is no list. -/
  about : ∀ event, e.result = .ok (.event (some event)) →
    ∃ uri decoded, Message.Reports m uri decoded ∧ event.IsAbout uri ∧
      (event.path = none →
        ¬Message.ListsDiagnostics m ∧ ∃ refusal, Uri.toPath uri = .ok (.error refusal))
  /-- A local file is always named. -/
  named : ∀ uri decoded path, Message.Reports m uri decoded → Uri.toPath uri = .ok (.ok path) →
    e.result = .ok (.event (some (diagnosticsOf path decoded)))
  /-- A list for any other URI is refused. -/
  refused : ∀ uri decoded refusal, Message.Reports m uri decoded →
    Uri.toPath uri = .ok (.error refusal) → Message.ListsDiagnostics m →
      e.result = .error (refusalOf (.notALocalFile refusal))
  /-- The refusal is passed over where there is no list. -/
  passedOver : ∀ uri decoded refusal, Message.Reports m uri decoded →
    Uri.toPath uri = .ok (.error refusal) → ¬Message.ListsDiagnostics m →
      e.result = .ok (.event (some nameless))
  /-- A text that cannot be taken for a URI ends the call by a fault. -/
  malformed : ∀ uri decoded error, Message.Reports m uri decoded → Uri.toPath uri = .error error →
    e.result = .error (.faulted (.malformedUri error))
  /-- Diagnostics that cannot be decoded are refused. -/
  undecodable : (∀ uri decoded, ¬Message.Reports m uri decoded) →
    ∃ error, e.result = .error (refusalOf error)

/-- **Diagnostics name their file, unless they have no list.**  In any state, when the message taken
is a notification of diagnostics: an event names the file that its URI is read as, by a normal path
that its list comes under too.  The URI of no local file is refused if and only if there is a list;
without one there is an event that names nothing. -/
theorem subjects_of_polled {e : Event σ} (h : e.Happens) {m : Members} (htaken : e.taken? = some m)
    (hm : Message.NotifiesDiagnostics m) : e.Subjects m := by
  have hresult := Event.result_of_taken? h htaken
  have hmade : ∀ uri decoded, Message.Reports m uri decoded →
      e.result = (madeOf uri decoded).map fun found => .event (some found) := by
    intro uri decoded hreports
    rw [hresult, interpret_eq_madeOf hreports]
  have hundecodable : (∀ uri decoded, ¬Message.Reports m uri decoded) →
      ∃ error, e.result = .error (refusalOf error) := by
    intro hnone
    obtain ⟨error, herror⟩ := hm.undecodable hnone
    refine ⟨error, ?_⟩
    rw [hresult, interpret_of_notifies hm, event, herror]
    rfl
  refine ⟨?about, ?named, ?refused, ?passedOver, ?malformed, hundecodable⟩
  case about =>
    intro event hevent
    by_cases hreports : ∃ uri decoded, Message.Reports m uri decoded
    · obtain ⟨uri, decoded, hreports⟩ := hreports
      refine ⟨uri, decoded, hreports, ?_⟩
      rw [hmade uri decoded hreports] at hevent
      have hmadeOf : madeOf uri decoded = .ok event := by
        cases hfound : madeOf uri decoded with
        | error stop =>
            rw [hfound] at hevent
            cases hevent
        | ok found =>
            rw [hfound] at hevent
            obtain rfl : found = event := by simpa [Except.map] using hevent
            rfl
      rcases madeOf_eq_ok hmadeOf with ⟨path, hpath, rfl⟩ | ⟨⟨refusal, hrefused⟩, hlist, rfl⟩
      · exact ⟨isAbout_diagnosticsOf hpath decoded, fun hnone => nomatch hnone⟩
      · refine ⟨isAbout_nameless hrefused, fun _ => ⟨?_, refusal, hrefused⟩⟩
        rw [hreports.lists_iff, hlist]
        rintro ⟨list, hlist⟩
        cases hlist
    · obtain ⟨error, herror⟩ := hundecodable fun uri decoded h => hreports ⟨uri, decoded, h⟩
      rw [herror] at hevent
      cases hevent
  case named =>
    intro uri decoded path hreports hpath
    rw [hmade uri decoded hreports, madeOf, hpath]
    rfl
  case refused =>
    intro uri decoded refusal hreports hrefused hlists
    obtain ⟨list, hlist⟩ := hreports.lists_iff.mp hlists
    rw [hmade uri decoded hreports, madeOf, hrefused, hlist]
    rfl
  case passedOver =>
    intro uri decoded refusal hreports hrefused hlists
    have hnone : decoded.diagnostics = none := by
      rw [hreports.lists_iff, ← Option.ne_none_iff_exists'] at hlists
      exact not_not.mp hlists
    rw [hmade uri decoded hreports, madeOf, hrefused, hnone]
    rfl
  case malformed =>
    intro uri decoded error hreports herror
    rw [hmade uri decoded hreports, madeOf, herror]
    rfl

/-- Diagnostics for a page, without a list. -/
def elsewhere : Members :=
  [("method", .ofString "textDocument/publishDiagnostics"),
    ("params", .object [("uri", .ofString "http://example.com/a.py")])]

/-- A client that has not looked at them yet. -/
def notified : Client (Watched ScriptedServer) :=
  let c := attach (.of (ScriptedServer.start ⟨[], []⟩)) 1 "/WS" .zero 1
  { c with connection := { c.connection with inbox := [elsewhere] } }

theorem subjects_of_polled_elsewhere :
    (notified.eventOf .poll).result = .ok (.event (some nameless)) ∧ nameless.path = none := by
  have htaken : (notified.eventOf .poll).taken? = some elsewhere := rfl
  have hreports : Message.Reports elsewhere "http://example.com/a.py"
      ⟨.ofString "http://example.com/a.py", none, none⟩ :=
    ⟨rfl, by decide +kernel, _, rfl, rfl, rfl⟩
  have hrefused : Uri.toPath "http://example.com/a.py" = .ok (.error (.scheme "http")) := by
    decide +kernel
  have hsubjects := subjects_of_polled (notified.eventOf_happens .poll) htaken hreports.notifies
  refine ⟨hsubjects.passedOver _ _ _ hreports hrefused ?_, rfl⟩
  rw [hreports.lists_iff]
  simp

end Client

end LanguageClient
