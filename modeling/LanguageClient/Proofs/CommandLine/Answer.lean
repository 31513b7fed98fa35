import LanguageClient.CommandLine.Run
import LanguageClient.Proofs.Config.Load
import LanguageClient.Proofs.Fleet.Accounts
import LanguageClient.Proofs.Path.Normal

/-!
# What answering an invocation comes to

An answer goes through three stages, and each has its own ways to break off.

```text
planning     the configuration, and the language of the file    `plan_faulted_iff`
opening      a session for the language                         `Fleet.Found.orderly`
examining    the file is read, and the server is asked          `upholds_examine`
```

A fault has its cause in the configuration, in the place that is asked about, in the source file, in
what the system makes of a launch or a trace, in what the server did or wrote, or in a number that
cannot be shown (`Breaks`).  Whatever
the cause, every server has its place afterwards, and no error has been shown yet.  Main statement:
`answer_answered`.

## Strategy

Before the session is open everything follows from `plan` and from what is known of a start.  Then one
invariant carries through the rest (`Serving`): there is one open session, nobody is an orphan, and
nothing shown is an error.  Every task keeps it, and its faults have a cause in the state in which they
leave off (`Attempt.Upholds`).
-/

namespace LanguageClient

/-! ## Errors on the console -/

namespace Block

/-- How an error begins. -/
def alarm : Text := "[bold red]Error:[/bold red] "

/-- The block shows an error. -/
def isError : Block → Bool
  | markup t => alarm.isPrefixOf t
  | _ => false

theorem isError_ofError (message : Text) : (ofError message).isError = true :=
  List.isPrefixOf_iff_prefix.mpr (List.prefix_append alarm _)

/-- Markup in a style that does not begin as that of an error is no error. -/
theorem isError_styled {c : CodePoint} {style : Text} (h : c ≠ CodePoint.ofChar 'b')
    (body rest : Text) : (markup (Markup.styled (c :: style) body ++ rest)).isError = false := by
  have halarm : alarm = CodePoint.ofChar '[' :: CodePoint.ofChar 'b' :: alarm.drop 2 := by
    decide +kernel
  have hopen : Text.ofString "[" = [CodePoint.ofChar '['] := by decide +kernel
  rw [isError, halarm, Markup.styled, hopen]
  simp [List.isPrefixOf, Ne.symm h]

theorem isError_ofServerMessage (s : Surroundings) (language : Text) (m : ServerMessage) :
    (ofServerMessage s language m).isError = false := by
  unfold ofServerMessage
  dsimp only
  rw [List.append_assoc, List.append_assoc, List.append_assoc]
  exact isError_styled (by decide +kernel) _ _

theorem ofDiagnostics_of_empty {d : Diagnostics} (h : d.diagnostics = []) (path : Text) :
    ofDiagnostics (some d) path = .ok (.markup (Markup.styled "green" "✓" ++ Text.ofString " " ++
      Markup.escape d.path ++ Text.ofString ": clean")) := by
  unfold ofDiagnostics
  simp only [h, List.isEmpty_nil, if_true]
  rfl

/-- A list that is not empty is a table. -/
theorem ofDiagnostics_of_ne_nil {d : Diagnostics} (h : d.diagnostics ≠ []) (path : Text) :
    ofDiagnostics (some d) path = (d.diagnostics.mapM diagnosticRow).map fun rows =>
      .table ⟨Markup.escape d.path, true, diagnosticColumns, rows⟩ := by
  have hlisted : d.diagnostics.isEmpty = false := List.isEmpty_eq_false_iff.mpr h
  unfold ofDiagnostics
  simp only [hlisted, Bool.false_eq_true, if_false]
  rfl

theorem isError_ofDiagnostics {d : Option Diagnostics} {path : Text} {block : Block}
    (h : ofDiagnostics d path = .ok block) : block.isError = false := by
  cases d with
  | none =>
      obtain rfl := Except.ok.inj h
      rw [← List.append_nil (Markup.styled _ _)]
      exact isError_styled (by decide +kernel) _ _
  | some d =>
      by_cases hempty : d.diagnostics = []
      · rw [ofDiagnostics_of_empty hempty] at h
        obtain rfl := Except.ok.inj h
        rw [List.append_assoc, List.append_assoc]
        exact isError_styled (by decide +kernel) _ _
      · rw [ofDiagnostics_of_ne_nil hempty] at h
        obtain ⟨rows, -, rfl⟩ := Stopping.map_eq_ok_iff.mp h
        rfl

end Block

/-! ## Attempts that keep an invariant -/

namespace Attempt

variable {ε ε' σ α β : Type}

/-- The attempt keeps `P`, and a fault of it is one that `B` admits in the state reached. -/
def Upholds (P : σ → Prop) (B : σ → Fault → Prop) (action : Attempt ε σ α) : Prop :=
  ∀ s, P s → P (action s).2 ∧ ∀ f, fault? (action s).1 = some f → B (action s).2 f

theorem fault?_error (stop : Stop ε) :
    fault? (.error stop : Except (Stop ε) α) = fault? (.error stop : Except (Stop ε) β) := by
  cases stop <;> rfl

namespace Upholds

variable {P : σ → Prop} {B : σ → Fault → Prop} {action : Attempt ε σ α}

theorem pure (a : α) : Upholds P B (pure a : Attempt ε σ α) :=
  fun _ hs => ⟨hs, fun _ hf => nomatch hf⟩

theorem fail (e : ε) : Upholds P B (fail e : Attempt ε σ α) :=
  fun _ hs => ⟨hs, fun _ hf => nomatch hf⟩

theorem get : Upholds P B (get : Attempt ε σ σ) :=
  fun _ hs => ⟨hs, fun _ hf => nomatch hf⟩

theorem modify {g : σ → σ} (h : ∀ s, P s → P (g s)) :
    Upholds P B (modify g : Attempt ε σ Unit) :=
  fun s hs => ⟨h s hs, fun _ hf => nomatch hf⟩

theorem bind (h : Upholds P B action) {next : α → Attempt ε σ β}
    (hnext : ∀ a, Upholds P B (next a)) : Upholds P B (action >>= next) := by
  intro s hs
  obtain ⟨hP, hB⟩ := h s hs
  rcases haction : action s with ⟨stop | a, t⟩
  · rw [haction] at hP hB
    rw [bind_of_error haction]
    exact ⟨hP, fun f hf => hB f ((fault?_error stop).trans hf)⟩
  · rw [haction] at hP
    rw [bind_of_ok haction]
    exact hnext a t hP

/-- A failure that is taken for a value is no fault. -/
theorem outcome (h : Upholds P B action) :
    Upholds P B (outcome action : Attempt ε' σ (Except ε α)) := by
  intro s hs
  obtain ⟨hP, hB⟩ := h s hs
  rcases haction : action s with ⟨(e | f) | a, t⟩
  all_goals rw [haction] at hP hB
  · rw [outcome_of_failed haction]
    exact ⟨hP, fun f hf => nomatch hf⟩
  · rw [outcome_of_faulted haction]
    exact ⟨hP, fun g hg => hB g hg⟩
  · rw [outcome_of_ok haction]
    exact ⟨hP, fun f hf => nomatch hf⟩

/-- What has been computed without the state is known where the attempt goes on. -/
theorem ofExcept_bind {x : Except Fault α} {next : α → Attempt ε σ β}
    (herror : ∀ f, x = .error f → ∀ s, P s → B s f) (hok : ∀ a, x = .ok a → Upholds P B (next a)) :
    Upholds P B (ofExcept .faulted x >>= next) := by
  intro s hs
  cases hx : x with
  | error f => exact ⟨hs, fun g hg => Option.some.inj hg ▸ herror f hx s hs⟩
  | ok a => exact hok a hx s hs

end Upholds

end Attempt

namespace Workbench

/-! ## Planning -/

section Planning

variable {s : Surroundings} {files : Files} {i : Invocation}

/-- **Setting out is broken off if and only if the loading of the configuration is.** -/
theorem plan_faulted_iff {f : Fault} :
    plan s files i = .error (.faulted f) ↔
      Config.Escapes s files (Config.pathOf s i.choices.config) f := by
  rw [← Config.load_faulted_iff]
  unfold plan configure
  cases Config.load s files i.choices.config with
  | error stop => cases stop <;> simp [planStop, Except.mapError, bind, Except.bind]
  | ok config =>
      refine iff_of_false ?_ (by rintro ⟨⟩)
      simp only [Except.mapError, bind, Except.bind]
      cases given? i.choices.command with
      | some command => rintro ⟨⟩
      | none =>
          cases config.enable with
          | false => rintro ⟨⟩
          | true =>
              simp only [Bool.not_true, Bool.false_eq_true, if_false]
              dsimp only [Pure.pure, Except.pure]
              cases (given? i.choices.language).or
                  (config.languageFor? (s.absolute i.request.file)) with
              | none => rintro ⟨⟩
              | some language => rintro ⟨⟩

end Planning

/-! ## What may go wrong -/

variable {η σ : Type}

/-- The end of an operation on the servers as that of a run. -/
def fleetStop : Stop FleetError → Stop RunError
  | .failed e => .failed (.fleet e)
  | .faulted f => .faulted f

theorem withFleet_apply {α : Type} (action : Attempt FleetError (Fleet η σ) α)
    (w : Workbench η σ) :
    withFleet action w =
      ((action w.fleet).1.mapError fleetStop, { w with fleet := (action w.fleet).2 }) := by
  unfold withFleet Attempt.onPart Attempt.mapError
  rcases action w.fleet with ⟨(e | f) | a, fleet⟩ <;> rfl

theorem fault?_mapError {α : Type} (result : Except (Stop FleetError) α) :
    Attempt.fault? (result.mapError fleetStop) = Attempt.fault? result := by
  rcases result with (e | f) | a <;> rfl

/-- A workbench with servers that are numbered and watched. -/
abbrev TrackedWorkbench (η σ : Type) : Type := Workbench (Counting η) (Tracked σ)

/-- Every server of a workbench, whoever has it. -/
def tracked (w : TrackedWorkbench η σ) : List (Tracked σ) := w.fleet.owned ++ w.fleet.released

/-- Why an answer is broken off that began in `before` and leaves off in `after`. -/
inductive Breaks [Host η σ] (s : Surroundings) (i : Invocation)
    (before after : TrackedWorkbench η σ) : Fault → Prop
  /-- The configuration cannot be loaded. -/
  | config {f : Fault} (h : Config.Escapes s before.fleet.site.files
      (Config.pathOf s i.choices.config) f) : Breaks s i before after f
  /-- The system cannot be asked for a server at all. -/
  | command {config : Config Text} {language : Text} {f : Fault}
      (hplan : plan s before.fleet.site.files i = .ok (config, language))
      (h : Fleet.Bar language (before.equip config i.choices.workspace).fleet f) :
      Breaks s i before after f
  /-- A server was launched, and it is to blame, or its trace is, or the name of the workspace. -/
  | start {config : Config Text} {language : Text} {f : Fault} {w : Tracked σ}
      (hplan : plan s before.fleet.site.files i = .ok (config, language)) (hmem : w ∈ after.tracked)
      (h : Fleet.Blame s language (before.equip config i.choices.workspace).fleet f w) :
      Breaks s i before after f
  /-- The place that is asked about lacks its line or its column. -/
  | place {line column : Option Int} (hquery : i.request.query = .hover line column)
      (hvoid : line = none ∨ column = none) : Breaks s i before after .wrongKind
  /-- The source file is no text. -/
  | source {f : Fault} (h : after.fleet.site.files.text s.workingDirectory
      (s.absolute i.request.file) = .error f) : Breaks s i before after f
  /-- The server is to blame. -/
  | server {f : Fault} {w : Tracked σ} (hmem : w ∈ after.tracked) (h : w.Faulty f) :
      Breaks s i before after f
  /-- The server reports diagnostics for an address that is none. -/
  | address {e : Uri.Malformed} {w : Tracked σ} (hmem : w ∈ after.tracked)
      (h : w.Misaddressed e) : Breaks s i before after (.malformedUri e)
  /-- The diagnostics of the file cannot be shown. -/
  | report {f : Fault} {d : Option Diagnostics}
      (h : Block.ofDiagnostics d (s.absolute i.request.file) = .error f) : Breaks s i before after f

/-! ## Examining the file -/

/-- A session is open, nobody is an orphan, and nothing shown is an error. -/
structure Serving (language : Text) (w : TrackedWorkbench η σ) : Prop where
  orderly : Fleet.Orderly [] w.fleet
  session : ∃ session, w.fleet.sessions = [(language, session)]
  orphans_eq : w.fleet.orphans = []
  calm : ∀ block ∈ w.shown, block.isError = false

theorem Serving.display {language : Text} {w : TrackedWorkbench η σ} (h : Serving language w)
    {block : Block} (hblock : block.isError = false) : Serving language (w.display block) := by
  refine ⟨h.orderly, h.session, h.orphans_eq, fun b hmem => ?_⟩
  rcases List.mem_append.mp hmem with hmem | hmem
  · exact h.calm b hmem
  · rw [List.mem_singleton.mp hmem]
    exact hblock

theorem Serving.remark {language : Text} {w : TrackedWorkbench η σ} (h : Serving language w)
    (level : Level) (text : Text) : Serving language (w.remark level text) :=
  ⟨h.orderly.of_site rfl rfl, h.session, h.orphans_eq, h.calm⟩

/-- A file that can be read at an absolute path has a URI, for every client. -/
theorem uri?_of_text {s : Surroundings} {files : Files} {file text : Text}
    (hcwd : Path.isAbsolute s.workingDirectory = true)
    (hread : files.text s.workingDirectory (s.absolute file) = .ok text) (c : Client σ) :
    c.uri? (s.absolute file) ≠ none := by
  have habsolute : Path.isAbsolute (s.absolute file) = true :=
    (Path.isAbsolute_normalize _).trans (Path.isAbsolute_join hcwd)
  have hsame : Path.absolute c.workingDirectory (s.absolute file) = s.absolute file := by
    rw [Path.absolute, Path.join, if_pos habsolute]
    exact Path.normalize_normalize _
  obtain ⟨bytes, hbytes, -⟩ := Stopping.bind_eq_ok_iff.mp hread
  obtain ⟨target, hlocate, -⟩ := Stopping.bind_eq_ok_iff.mp (Stopping.mapError_eq_ok_iff.mp hbytes)
  unfold Files.locate at hlocate
  rw [Client.uri?, hsame, Uri.ofPath]
  cases hname : Utf8.encodeName (s.absolute file) with
  | error e =>
      rw [Files.handed, hname] at hlocate
      cases hlocate
  | ok name =>
      intro h
      cases h

variable [Host η σ]

section Examining

variable {s : Surroundings} {i : Invocation} {before : TrackedWorkbench η σ} {language : Text}

/-- **What an operation of the session keeps.** -/
theorem upholds_perform {α : Type} {action : Operation (Tracked σ) α}
    (haction : ∀ (session session' : Session (Tracked σ)) (site site' : Site (Counting η) (Tracked σ))
      (result : Except (Stop ClientError) α), session.client.Kept →
        session.Ran action site result session' site' → session.Served result session') :
    Attempt.Upholds (Serving language) (Breaks s i before)
      (withFleet (Fleet.perform s language action) : Task (Counting η) (Tracked σ) α) := by
  intro w hw
  obtain ⟨session, hsessions⟩ := hw.session
  have hsession : w.fleet.session? language = some session := by
    simp [Fleet.session?, hsessions]
  obtain ⟨result, session', site', hran, hperform⟩ := Fleet.perform_of_some s action hsession
  have hkept : session.client.Kept :=
    hw.orderly.open_ (language, session) (hsessions ▸ List.mem_singleton_self _)
  obtain ⟨⟨hkept', hnumber⟩, hblame⟩ := haction _ _ _ _ _ hkept hran
  have hworked : Fleet.Orderly [] { w.fleet with site := site' } :=
    hw.orderly.of_site hran.launches_eq hran.abandoned_eq
  have hupdated : (Fleet.update language session' { w.fleet with site := site' }).sessions =
      [(language, session')] := by
    simp [Fleet.update, hsessions]
  rw [withFleet_apply, hperform]
  refine ⟨⟨hworked.update hsession hkept' hnumber, ⟨session', hupdated⟩, ?_, hw.calm⟩, fun f hf => ?_⟩
  · exact (Fleet.orphans_of_site w.fleet hran.abandoned_eq).trans hw.orphans_eq
  · have hmem : session'.server ∈ tracked (η := η)
        { w with fleet := Fleet.update language session' { w.fleet with site := site' } } := by
      refine List.mem_append_left _ ?_
      rw [Fleet.owned, hupdated]
      exact List.mem_singleton_self _
    have hresult : Attempt.fault? result = some f := by
      rcases result with (e | g) | a <;> exact hf
    rcases hblame f hresult with hfaulty | ⟨e, haddress, rfl⟩
    · exact .server hmem hfaulty
    · exact .address hmem haddress

theorem upholds_readClock (clock : Nat → Binary64) :
    Attempt.Upholds (Serving language) (Breaks s i before)
      (readClock clock : Task (Counting η) (Tracked σ) Binary64) :=
  fun _ hw => ⟨⟨hw.orderly, hw.session, hw.orphans_eq, hw.calm⟩, fun _ hf => nomatch hf⟩

variable [Peer σ]

/-- A call about the file of the run, once that has been read. -/
theorem upholds_document {α : Type} {action : Operation (Tracked σ) α} {files : Files} {text : Text}
    (hcwd : Path.isAbsolute s.workingDirectory = true)
    (hread : files.text s.workingDirectory (s.absolute i.request.file) = .ok text)
    (call : Client.Call) (hpath : call.path? = some (s.absolute i.request.file))
    (answer : α → Client.Answer)
    (haction : ∀ c : Client (Tracked σ), c.perform call = Client.outcomeOf answer (action c)) :
    Attempt.Upholds (Serving language) (Breaks s i before)
      (withFleet (Fleet.perform s language action) : Task (Counting η) (Tracked σ) α) := by
  refine upholds_perform fun session _ _ _ _ hkept hran =>
    (hran.called hkept call answer (haction _) ?_ ?_ fun path h => ?_).served
  · rintro rfl
    cases hpath
  · rintro rfl
    cases hpath
  · obtain rfl := Option.some.inj (hpath.symm.trans h)
    exact uri?_of_text hcwd hread session.client

/-- Waiting shows messages, none of them an error. -/
theorem upholds_awaitDiagnostics (clock : Nat → Binary64) (path : Text) (deadline : Binary64)
    (polls : Nat) :
    Attempt.Upholds (Serving language) (Breaks s i before)
      (awaitDiagnostics s clock language path deadline polls :
        Task (Counting η) (Tracked σ) (Option (Option Diagnostics))) := by
  induction polls with
  | zero => exact .pure _
  | succ polls ih =>
      unfold awaitDiagnostics
      refine .bind (upholds_readClock clock) fun now => ?_
      split
      · exact .pure _
      · have hpoll : Attempt.Upholds (Serving language) (Breaks s i before)
            (withFleet (Fleet.perform s language Client.poll) : Task (Counting η) (Tracked σ) _) :=
          upholds_perform fun session _ _ _ _ hkept hran => hran.polled hkept
        refine .bind hpoll.outcome fun outcome => ?_
        rcases outcome with e | (_ | event)
        · refine .bind (.modify fun w hw => hw.remark _ _) fun _ => .bind .get fun w => ?_
          dsimp only
          split
          · exact .bind (.fail e) fun _ => ih
          · exact ih
        · exact ih
        · dsimp only
          cases event.value with
          | message m =>
              have hcalm := Block.isError_ofServerMessage s language m
              exact .bind (.modify fun w hw => hw.display hcalm) fun _ => ih
          | diagnostics d =>
              dsimp only
              split
              · exact .pure _
              · exact ih
          | other => exact ih

theorem upholds_diagnostics (clock : Nat → Binary64) (limit : Nat) (wait : Binary64) :
    Attempt.Upholds (Serving language) (Breaks s i before)
      (diagnostics s clock limit language (s.absolute i.request.file) wait :
        Task (Counting η) (Tracked σ) Unit) := by
  unfold diagnostics
  refine .bind (upholds_readClock clock) fun now => ?_
  refine .bind (upholds_awaitDiagnostics clock _ _ limit) fun found => ?_
  cases found with
  | none => exact .modify fun w hw => hw.display rfl
  | some d =>
      exact .ofExcept_bind (fun f hblock w _ => .report hblock) fun block hblock =>
        .modify fun w hw => hw.display (Block.isError_ofDiagnostics hblock)

omit [Peer σ] in
/-- A hover that is asked for at no place is a fault. -/
theorem upholds_void {line column : Option Int} (hquery : i.request.query = .hover line column)
    (hvoid : line = none ∨ column = none) :
    Attempt.Upholds (Serving language) (Breaks s i before)
      (Attempt.fault .wrongKind : Task (Counting η) (Tracked σ) Unit) :=
  fun _ hw => ⟨hw, fun _ hf => Option.some.inj hf ▸ .place hquery hvoid⟩

/-- Asking for a hover shows no error. -/
theorem upholds_hover {text : Text} {files : Files}
    (hcwd : Path.isAbsolute s.workingDirectory = true)
    (hread : files.text s.workingDirectory (s.absolute i.request.file) = .ok text)
    (line column : Int) :
    Attempt.Upholds (Serving language) (Breaks s i before)
      (hover s language (s.absolute i.request.file) line column :
        Task (Counting η) (Tracked σ) Unit) := by
  unfold hover
  refine .bind (upholds_document hcwd hread (.hover (s.absolute i.request.file)
    (placeOf line column)) rfl .hover fun c => rfl) fun found => ?_
  cases found with
  | none => exact .modify fun w hw => hw.display rfl
  | some h => exact .modify fun w hw => hw.display rfl

/-- **Examining a file keeps the server, and every fault of it has a cause.** -/
theorem upholds_examine (hcwd : Path.isAbsolute s.workingDirectory = true)
    (clock : Nat → Binary64) (limit : Nat) :
    Attempt.Upholds (Serving language) (Breaks s i before)
      (examine s clock limit i language : Task (Counting η) (Tracked σ) Unit) := by
  intro w hw
  unfold examine
  rw [Attempt.bind_of_ok (Attempt.get_apply w)]
  dsimp only
  cases hread : w.fleet.site.files.text s.workingDirectory (s.absolute i.request.file) with
  | error f => exact ⟨hw, fun g hg => Option.some.inj hg ▸ .source hread⟩
  | ok text =>
      have hclose : Attempt.Upholds (Serving language) (Breaks s i before)
          (withFleet (Fleet.perform s language (Client.closeDocument (s.absolute i.request.file))) :
            Task (Counting η) (Tracked σ) Unit) :=
        upholds_document hcwd hread (.closeDocument (s.absolute i.request.file)) rfl (fun _ => .done)
          fun c => rfl
      refine Attempt.Upholds.bind (upholds_document hcwd hread
        (.openDocument (s.absolute i.request.file) (.text language) (.text text)) rfl
        (fun _ => .done) fun c => rfl) (fun _ => ?_) w hw
      cases hquery : i.request.query with
      | hover line column =>
          rcases line with _ | line
          · exact .bind (upholds_void hquery (Or.inl rfl)) fun _ => hclose
          · rcases column with _ | column
            · exact .bind (upholds_void hquery (Or.inr rfl)) fun _ => hclose
            · exact .bind (upholds_hover hcwd hread line column) fun _ => hclose
      | diagnostics wait => exact .bind (upholds_diagnostics clock limit wait) fun _ => hclose

end Examining

/-! ## The whole answer -/

section Answering

variable [Peer σ] {s : Surroundings} {i : Invocation}

/-- The open sessions of a fleet that was asked for its first one. -/
theorem sessions_of_found {language : Text} {config : Config Text} {workspace : Text}
    {site : Site η σ} {result : Except (Stop FleetError) (Session σ)} {fleet' : Fleet η σ}
    (h : Fleet.Found s language (.ofConfig config workspace site) result fleet') :
    fleet'.sessions = result.toOption.toList.map (language, ·) := by
  have hfresh : (Fleet.ofConfig config workspace site).retireEnded language =
      .ofConfig config workspace site := rfl
  cases h with
  | disabled | remembered | unconfigured => rfl
  | cached henable hsession => cases hsession
  | @started _ _ fleet₁ henable hsession hfailure hserver hlaunches =>
      have hnone : fleet₁.sessions = [] := hlaunches.tables.1.sessions_eq
      rcases result with (e | f) | session
      · exact hnone
      · exact hnone
      · exact congrArg (· ++ [(language, session)]) hnone

/-- What answering comes to: every server has its place, no error has been shown, and a fault has its
cause.  A server was given up as it runs if and only if a fault met its start. -/
structure Answered (s : Surroundings) (i : Invocation) (before : TrackedWorkbench η σ)
    (result : Except (Stop RunError) Unit) (after : TrackedWorkbench η σ) : Prop where
  orderly : Fleet.Orderly [] after.fleet
  calm : ∀ block ∈ after.shown, block.isError = false
  breaks : ∀ f, Attempt.fault? result = some f → Breaks s i before after f
  orphans_iff : after.fleet.orphans ≠ [] ↔
    Attempt.fault? result ≠ none ∧ after.fleet.sessions = [] ∧ after.fleet.launches = 1

omit [Peer σ] in
/-- Nobody is an orphan as long as no fault met a start. -/
theorem Answered.orphans_eq_nil_iff {before after : TrackedWorkbench η σ}
    {result : Except (Stop RunError) Unit} (h : Answered s i before result after) :
    after.fleet.orphans = [] ↔ ∀ f, Attempt.fault? result = some f →
      ¬(after.fleet.sessions = [] ∧ after.fleet.launches = 1) := by
  rw [← not_iff_not, ← ne_eq, h.orphans_iff]
  cases Attempt.fault? result with
  | none => simp
  | some f => simp

/-- A workbench on a host, as a run finds it. -/
def atStart (host : η) (files : Files) : TrackedWorkbench η σ := .ofSite ⟨⟨host, 0⟩, files, [], []⟩

variable {host : η} {files : Files} {config : Config Text} {language : Text}

omit [Host η σ] [Peer σ] in
theorem mem_tracked_of_mem_orphans {w : TrackedWorkbench η σ} {v : Tracked σ}
    (h : v ∈ w.fleet.orphans) : v ∈ w.tracked :=
  List.mem_append_right _ (List.mem_append_right _ (List.mem_of_mem_filter h))

/-- A start that was broken off after the launch is where an orphan comes from. -/
theorem answered_of_unopened {stop : Stop FleetError} {fleet' : Fleet (Counting η) (Tracked σ)}
    (hplan : plan s files i = .ok (config, language))
    (h : Fleet.Found s language (atStart host files |>.equip config i.choices.workspace).fleet
      (.error stop) fleet') :
    Answered s i (atStart host files) (.error (fleetStop stop))
      { (atStart host files : TrackedWorkbench η σ).equip config i.choices.workspace with
        fleet := fleet' } := by
  have hsessions : fleet'.sessions = [] := sessions_of_found h
  obtain ⟨horderly, lost, hlost, hforfeits⟩ := h.orderly (Fleet.orderly_ofConfig _ _ host files)
  have hlost : fleet'.orphans = lost := hlost
  have hfault : Attempt.fault? (.error (fleetStop stop) : Except _ Unit) =
      Attempt.fault? (.error stop : Except _ (Session (Tracked σ))) := by cases stop <;> rfl
  have hcalm : ∀ block ∈ (atStart host files : TrackedWorkbench η σ).shown, block.isError = false :=
    fun _ hmem => absurd hmem List.not_mem_nil
  generalize Attempt.fault? (.error stop : Except _ (Session (Tracked σ))) = fault
    at hforfeits hfault
  cases hforfeits with
  | nothing =>
      exact ⟨horderly, hcalm, fun f hf => (nomatch hfault.symm.trans hf),
        iff_of_false (fun h => h hlost) fun h => h.1 hfault⟩
  | unlaunched hlaunches hbar =>
      refine ⟨horderly, hcalm, fun f hf => ?_,
        iff_of_false (fun h => h hlost) fun h => nomatch hlaunches.symm.trans h.2.2⟩
      obtain rfl := Option.some.inj (hfault.symm.trans hf)
      exact .command hplan hbar
  | @orphan f w hlaunches hblame =>
      have hmem : w ∈ fleet'.orphans := hlost ▸ List.mem_singleton_self w
      refine ⟨horderly, hcalm, fun f hf => ?_,
        iff_of_true (List.ne_nil_of_mem hmem)
          ⟨fun h => (nomatch hfault.symm.trans h), hsessions, hlaunches⟩⟩
      obtain rfl := Option.some.inj (hfault.symm.trans hf)
      exact .start hplan (mem_tracked_of_mem_orphans hmem) hblame

theorem answer_of_error {w : Workbench η σ} {stop : Stop RunError}
    (h : plan s w.fleet.site.files i = .error stop) (clock : Nat → Binary64) (limit : Nat) :
    answer s clock limit i w = (.error stop, w) := by
  unfold answer
  rw [Attempt.bind_of_ok (Attempt.get_apply w)]
  dsimp only
  rw [h]
  rfl

theorem answer_of_ok {w : Workbench η σ}
    (h : plan s w.fleet.site.files i = .ok (config, language)) (clock : Nat → Binary64)
    (limit : Nat) :
    answer s clock limit i w =
      (withFleet (Fleet.sessionFor s language) >>= fun _ => examine s clock limit i language)
        (w.equip config i.choices.workspace) := by
  unfold answer
  rw [Attempt.bind_of_ok (Attempt.get_apply w)]
  dsimp only
  rw [h]
  rfl

/-- **What answering an invocation comes to.** -/
theorem answer_answered (hcwd : Path.isAbsolute s.workingDirectory = true)
    (clock : Nat → Binary64) (limit : Nat) (i : Invocation) (host : η) (files : Files) :
    Answered s i (atStart host files)
      (answer s clock limit i (atStart host files : TrackedWorkbench η σ)).1
      (answer s clock limit i (atStart host files)).2 := by
  cases hplan : plan s files i with
  | error stop =>
      rw [answer_of_error (w := atStart host files) hplan clock limit]
      refine ⟨Fleet.orderly_ofConfig _ _ host files, fun _ hmem => absurd hmem List.not_mem_nil,
        fun f hf => ?_, iff_of_false (fun h => h rfl) fun h => nomatch h.2.2⟩
      rcases stop with e | g
      · cases hf
      · obtain rfl := Option.some.inj hf
        exact .config (plan_faulted_iff.mp hplan)
  | ok settled =>
      obtain ⟨config, language⟩ := settled
      rw [answer_of_ok (w := atStart host files) hplan clock limit]
      have hfound := Fleet.sessionFor_found s language
        (atStart host files |>.equip config i.choices.workspace : TrackedWorkbench η σ).fleet
      rcases hsession : Fleet.sessionFor s language
        (atStart host files |>.equip config i.choices.workspace : TrackedWorkbench η σ).fleet with
        ⟨stop | session, fleet'⟩
      all_goals rw [hsession] at hfound
      · rw [Attempt.bind_of_error ((withFleet_apply _ _).trans (by rw [hsession]; rfl))]
        exact answered_of_unopened hplan hfound
      · rw [Attempt.bind_of_ok ((withFleet_apply _ _).trans (by rw [hsession]; rfl))]
        obtain ⟨horderly, lost, hlost, hforfeits⟩ :=
          hfound.orderly (Fleet.orderly_ofConfig _ _ host files)
        have hserving : Serving language
            { (atStart host files : TrackedWorkbench η σ).equip config i.choices.workspace with
              fleet := fleet' } := by
          refine ⟨horderly, ⟨session, sessions_of_found hfound⟩, ?_,
            fun _ hmem => absurd hmem List.not_mem_nil⟩
          cases hforfeits
          exact hlost
        have hupholds : Attempt.Upholds (Serving language) (Breaks s i (atStart host files))
            (examine s clock limit i language) := upholds_examine hcwd clock limit
        obtain ⟨⟨horderly, ⟨session, hsessions⟩, hnobody, hcalm⟩, hbreaks⟩ := hupholds _ hserving
        refine ⟨horderly, hcalm, hbreaks, iff_of_false (fun h => h hnobody) fun h => ?_⟩
        rw [hsessions] at h
        exact nomatch h.2.1

end Answering

end Workbench

end LanguageClient
