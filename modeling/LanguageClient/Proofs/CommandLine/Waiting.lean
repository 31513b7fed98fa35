import LanguageClient.Proofs.CommandLine.Ending
import LanguageClient.Proofs.Protocol.Decoding

/-!
# Waiting for diagnostics

The user asks for the diagnostics of a file, and the program polls the server until it has them.

```text
a poll gives                          and then
a message                             it is shown
diagnostics of the file               they are shown, and no poll follows
other diagnostics, another event      nothing
nothing                               nothing
a failure, the server runs            a remark
a failure, the server has ended       the failure is the error of the run
```

When the deadline has passed and nothing was settled, the user is told that nothing was received; that is
not what is shown for a file of which the server reports no list.  Main statement: `diagnostics_waits`.

## Strategy

One round of the wait is read off its definition: the deadline has passed, or there is one more poll, and
that settles something about the file (`awaitDiagnostics_of_decides`) or not
(`awaitDiagnostics_of_undecided`).  The induction is over the number of rounds.

Diagnostics that a poll gives have been decoded, so a row can fail only at a line or a character whose
successor has too many digits (`diagnosticRow_eq_error_iff`).

A wait may make so many polls and no more; that does not show if the clock passes the deadline before
(`diagnostics_eq`).
-/

namespace LanguageClient

/-! ## Diagnostics that can be shown -/

/-- The diagnostic begins at a line or a character that has too many digits when it is counted from
one. -/
def Diagnostic.TooFar (d : Diagnostic) : Prop :=
  ∃ n, (d.range.start.line = .int n ∨ d.range.start.character = .int n) ∧ Reading.IsTooLong (n + 1)

namespace Block

theorem fromOne_eq_error_iff {v : Json} (h : v.IsNatural .wide) {f : Fault} :
    fromOne v = .error f ↔ f = .unwritable ∧ ∃ n, v = .int n ∧ Reading.IsTooLong (n + 1) := by
  obtain ⟨n, hn, -⟩ := h
  cases v with
  | int m =>
      rw [fromOne]
      cases hwritable : Reading.isWritable (m + 1) with
      | true =>
          have hshort : ¬Reading.IsTooLong (m + 1) := by
            rw [← Reading.isWritable_eq_false_iff, hwritable]
            exact Bool.noConfusion
          simp [hshort]
      | false =>
          have hlong := (Reading.isWritable_eq_false_iff (m + 1)).mp hwritable
          simp [hlong, eq_comm]
  | float x => simp [fromOne]
  | _ => cases hn

/-- A number can be looked up, and so can the absence of one. -/
theorem exists_severityCell {severity : Option Json} (h : ∀ x ∈ severity, x.IsInteger .wide) :
    ∃ cell, severityCell severity = .ok cell := by
  have hlookup : ∀ v : Json, v.IsInteger .wide → ∃ found, Severity.ofJson? v = .ok found := by
    rintro v ⟨n, hn⟩
    cases v with
    | int | float => exact ⟨_, rfl⟩
    | _ => cases hn
  cases severity with
  | none => exact ⟨_, rfl⟩
  | some v =>
      obtain ⟨found, hfound⟩ := hlookup v (h v rfl)
      have hnull : v ≠ .null := by
        rintro rfl
        obtain ⟨n, hn⟩ := h _ rfl
        cases hn
      unfold severityCell
      simp only [Severity.nameOf, Option.getD_some, hfound]
      cases found <;> exact ⟨_, rfl⟩

theorem exists_sourceCell {source : Option Json} (h : ∀ x ∈ source, x.IsText) :
    ∃ cell, sourceCell source = .ok cell := by
  cases source with
  | none => exact ⟨_, rfl⟩
  | some v =>
      obtain ⟨t, rfl⟩ := h v rfl
      rw [sourceCell]
      split <;> exact ⟨_, rfl⟩

/-- A row cannot be shown if and only if its place is too far. -/
theorem diagnosticRow_eq_error_iff {d : Diagnostic} (h : d.Fits .wide) {f : Fault} :
    diagnosticRow d = .error f ↔ f = .unwritable ∧ d.TooFar := by
  have hintegers : ∀ x ∈ d.severity, x.IsInteger .wide := by
    intro x hx
    obtain ⟨n, hn, -⟩ := h.severity x hx
    exact ⟨n, hn⟩
  obtain ⟨severity, hseverity⟩ := exists_severityCell hintegers
  obtain ⟨source, hsource⟩ := exists_sourceCell h.source
  obtain ⟨message, hmessage⟩ := h.message
  have hrow : diagnosticRow d = .error f ↔ fromOne d.range.start.line = .error f ∨
      ∃ line, fromOne d.range.start.line = .ok line ∧ fromOne d.range.start.character = .error f := by
    simp [diagnosticRow, hseverity, hsource, hmessage, textCell]
  have hline := fromOne_eq_error_iff (f := f) h.range.start.line
  have hcharacter := fromOne_eq_error_iff (f := f) h.range.start.character
  rw [hrow]
  constructor
  · rintro (hfails | ⟨-, -, hfails⟩)
    · obtain ⟨hf, n, hn, hlong⟩ := hline.mp hfails
      exact ⟨hf, n, Or.inl hn, hlong⟩
    · obtain ⟨hf, n, hn, hlong⟩ := hcharacter.mp hfails
      exact ⟨hf, n, Or.inr hn, hlong⟩
  · rintro ⟨hf, n, hn | hn, hlong⟩
    · exact Or.inl (hline.mpr ⟨hf, n, hn, hlong⟩)
    · have hfails := hcharacter.mpr ⟨hf, n, hn, hlong⟩
      cases hfirst : fromOne d.range.start.line with
      | ok line => exact Or.inr ⟨line, rfl, hfails⟩
      | error g =>
          obtain ⟨hg, -⟩ := (fromOne_eq_error_iff h.range.start.line).mp hfirst
          rw [hg, hf]
          exact Or.inl rfl

/-- Decoded diagnostics cannot be shown if and only if one of them is too far. -/
theorem ofDiagnostics_eq_error_iff {d : Diagnostics} (h : ∀ x ∈ d.diagnostics, x.Fits .wide)
    (path : Text) {f : Fault} :
    ofDiagnostics (some d) path = .error f ↔ f = .unwritable ∧ ∃ x ∈ d.diagnostics, x.TooFar := by
  have hrows : ofDiagnostics (some d) path = .error f ↔
      d.diagnostics.mapM diagnosticRow = .error f := by
    by_cases hempty : d.diagnostics = []
    · rw [ofDiagnostics_of_empty hempty, hempty, List.mapM_nil]
      exact iff_of_false (by rintro ⟨⟩) Stopping.pure_ne_error
    · rw [ofDiagnostics_of_ne_nil hempty, Stopping.map_eq_error_iff]
  have hfault : ∀ g, d.diagnostics.mapM diagnosticRow = .error g →
      g = .unwritable ∧ ∃ x ∈ d.diagnostics, x.TooFar := by
    intro g hmap
    obtain ⟨before, x, after, hsplit, -, hfails⟩ := Stopping.mapM_eq_error_iff.mp hmap
    have hx : x ∈ d.diagnostics := by
      rw [hsplit]
      exact List.mem_append_right _ List.mem_cons_self
    obtain ⟨hg, hfar⟩ := (diagnosticRow_eq_error_iff (h x hx)).mp hfails
    exact ⟨hg, x, hx, hfar⟩
  rw [hrows]
  refine ⟨hfault f, ?_⟩
  rintro ⟨hf, x, hx, hfar⟩
  cases hmap : d.diagnostics.mapM diagnosticRow with
  | ok rows =>
      obtain ⟨row, hrow⟩ := Stopping.exists_mapM_eq_ok_iff.mp ⟨rows, hmap⟩ x hx
      cases hrow.symm.trans ((diagnosticRow_eq_error_iff (h x hx)).mpr ⟨hf, hfar⟩)
  | error g => rw [(hfault g hmap).1, hf]

end Block

/-! ## What a poll gives -/

namespace Client

variable {σ : Type}

theorem fits_of_diagnostics {m : Members} {d : Diagnostics}
    (h : Message.diagnostics m = .ok (.ok (some d))) : ∀ x ∈ d.diagnostics, x.Fits .wide := by
  unfold Message.diagnostics at h
  split at h
  · split at h
    · cases h
    · rename_i decoded hdecode
      have hfits := (PublishDiagnostics.decodes.sound _ _ hdecode).2.diagnostics
      split at h
      · cases h
      · rename_i list hlist
        obtain ⟨subject, -, hsubject⟩ := Stopping.bind_eq_ok_iff.mp h
        cases subject with
        | error r => cases hsubject
        | ok path =>
            cases hsubject
            exact hfits list hlist
  · cases h

/-- The diagnostics in an event have been decoded. -/
theorem fits_of_event {method : Method} {m : Members} {c c' : Client σ} {found : ServerEvent}
    (h : event method m c = (.ok found, c')) {d : Diagnostics}
    (hvalue : found.value = .diagnostics (some d)) : ∀ x ∈ d.diagnostics, x.Fits .wide := by
  cases method with
  | showMessage | logMessage =>
      unfold event at h
      cases hmessage : Message.serverMessage m with
      | error e =>
          simp only [hmessage] at h
          cases h
      | ok message =>
          simp only [hmessage] at h
          cases h
          cases hvalue
  | publishDiagnostics =>
      unfold event at h
      obtain ⟨checked, c₁, hchecked, h⟩ := Attempt.bind_eq_ok_iff.mp h
      rcases hdiagnostics : Message.diagnostics m with flaw | (e | diagnostics)
      all_goals
        rw [hdiagnostics] at hchecked
        cases hchecked
      · cases h
      · obtain ⟨path, c₂, -, h⟩ := Attempt.bind_eq_ok_iff.mp h
        cases h
        cases hvalue
        exact fits_of_diagnostics hdiagnostics
  | _ =>
      cases h
      cases hvalue

theorem fits_of_interpret {m : Members} {c c' : Client σ} {found : ServerEvent}
    (h : interpret m c = (.ok found, c')) {d : Diagnostics}
    (hvalue : found.value = .diagnostics (some d)) : ∀ x ∈ d.diagnostics, x.Fits .wide := by
  unfold interpret at h
  obtain ⟨kind, c₁, -, h⟩ := Attempt.bind_eq_ok_iff.mp h
  obtain ⟨method, c₂, -, h⟩ := Attempt.bind_eq_ok_iff.mp h
  cases kind with
  | request => cases h
  | _ => exact fits_of_event h hvalue

variable [Peer σ]

theorem fits_of_poll {c c' : Client σ} {found : ServerEvent} (h : poll c = (.ok (some found), c'))
    {d : Diagnostics} (hvalue : found.value = .diagnostics (some d)) :
    ∀ x ∈ d.diagnostics, x.Fits .wide := by
  unfold poll at h
  obtain ⟨c₁, c₂, -, h⟩ := Attempt.bind_eq_ok_iff.mp h
  by_cases hclosed : c₁.phase = .closed
  · simp only [hclosed, if_true] at h
    cases h
  · simp only [hclosed, if_false] at h
    obtain ⟨next, c₃, -, h⟩ := Attempt.bind_eq_ok_iff.mp h
    rcases next with e | (_ | m)
    · obtain ⟨c₄, c₅, -, h⟩ := Attempt.bind_eq_ok_iff.mp h
      split at h <;> cases h
    · obtain ⟨c₄, c₅, -, h⟩ := Attempt.bind_eq_ok_iff.mp h
      split at h <;> cases h
    · obtain ⟨event, c₄, hinterpret, h⟩ := Attempt.bind_eq_ok_iff.mp h
      cases h
      exact fits_of_interpret hinterpret hvalue

end Client

theorem Fleet.fits_of_poll {η σ : Type} [Peer σ] {s : Surroundings} {language : Text}
    {fleet fleet' : Fleet η σ} {found : ServerEvent}
    (h : Fleet.perform s language Client.poll fleet = (.ok (some found), fleet')) {d : Diagnostics}
    (hvalue : found.value = .diagnostics (some d)) : ∀ x ∈ d.diagnostics, x.Fits .wide := by
  cases hsession : fleet.session? language with
  | none =>
      rw [perform_of_none s Client.poll hsession] at h
      cases h
  | some session =>
      obtain ⟨result, session', site', hran, hperform⟩ := perform_of_some s Client.poll hsession
      rw [hperform] at h
      rcases result with stop | found'
      · cases h
      · cases h
        have hpoll : Client.poll session.client = (.ok (some found), (Client.poll session.client).2) :=
          Prod.ext hran.result_eq.symm rfl
        exact Client.fits_of_poll hpoll hvalue

/-! ## Polls -/

/-- A poll of a server: what came of it, and the servers after it. -/
structure Poll (η σ : Type) where
  result : Except (Stop FleetError) (Option ServerEvent)
  after : Fleet η σ

namespace Poll

variable {η σ : Type}

/-- The servers that a poll leaves, once its failure has been remarked upon. -/
def left (p : Poll η σ) : Fleet η σ :=
  match p.result with
  | .error (.failed e) => p.after.remark .warning ("Ignoring server message: " ++ e.message)
  | _ => p.after

/-- The message that a poll gives. -/
def message? (p : Poll η σ) : Option ServerMessage :=
  match p.result with
  | .ok (some ⟨_, .message m, _⟩) => some m
  | _ => none

variable [Peer σ]

/-- What a poll settles about a file: what the server has to say of it, or why nothing more is asked. -/
inductive Decides (language path : Text) (p : Poll η σ) :
    Except (Stop RunError) (Option Diagnostics) → Prop
  /-- These are the diagnostics of the file. -/
  | report {event : ServerEvent} {d : Option Diagnostics} (hresult : p.result = .ok (some event))
      (hvalue : event.value = .diagnostics d) (hpath : event.path = some path) :
      Decides language path p (.ok d)
  /-- The poll fails, and the server does not run any more. -/
  | dead {e : FleetError} (hresult : p.result = .error (.failed e))
      (hended : language ∉ p.after.running) : Decides language path p (.error (.failed (.fleet e)))
  /-- The poll is broken off. -/
  | fault {f : Fault} (hresult : p.result = .error (.faulted f)) :
      Decides language path p (.error (.faulted f))

/-- The poll settles nothing about the file. -/
def Undecided (language path : Text) (p : Poll η σ) : Prop := ∀ v, ¬p.Decides language path v

end Poll

/-- Polls that were made one after another, each of the servers that the one before has left. -/
inductive Polls {η σ : Type} [Peer σ] (s : Surroundings) (language : Text) :
    Fleet η σ → List (Poll η σ) → Fleet η σ → Prop
  | nil (fleet : Fleet η σ) : Polls s language fleet [] fleet
  | cons {fleet last : Fleet η σ} {p : Poll η σ} {rest : List (Poll η σ)}
      (hpoll : Fleet.perform s language Client.poll fleet = (p.result, p.after))
      (hrest : Polls s language p.left rest last) : Polls s language fleet (p :: rest) last

theorem Polls.exists_perform {η σ : Type} [Peer σ] {s : Surroundings} {language : Text}
    {fleet last : Fleet η σ} {made : List (Poll η σ)} (h : Polls s language fleet made last)
    {p : Poll η σ} (hp : p ∈ made) :
    ∃ fleet, Fleet.perform s language Client.poll fleet = (p.result, p.after) := by
  induction h with
  | nil => cases hp
  | cons hpoll _ ih =>
      rcases List.mem_cons.mp hp with rfl | hp
      · exact ⟨_, hpoll⟩
      · exact ih hp

/-! ## One round -/

namespace Workbench

variable {η σ : Type} [Peer σ] {s : Surroundings} {clock : Nat → Binary64} {language path : Text}
  {deadline : Binary64}

/-- A workbench after a poll: the message is shown. -/
def afterPoll (s : Surroundings) (language : Text) (p : Poll η σ) (w : Workbench η σ) :
    Workbench η σ :=
  ⟨p.left, w.shown ++ (p.message?.map (Block.ofServerMessage s language)).toList, w.readings + 1⟩

omit [Peer σ] in
@[simp] theorem readings_afterPoll (p : Poll η σ) (w : Workbench η σ) :
    (afterPoll s language p w).readings = w.readings + 1 := rfl

omit [Peer σ] in
/-- Where there is no message, nothing is shown. -/
theorem afterPoll_of_silent {p : Poll η σ} (h : p.message? = none) (w : Workbench η σ) :
    afterPoll s language p w = ⟨p.left, w.shown, w.readings + 1⟩ := by
  rw [afterPoll, h]
  exact congrArg (Workbench.mk p.left · (w.readings + 1)) (List.append_nil w.shown)

omit [Peer σ] in
theorem readClock_apply (clock : Nat → Binary64) (w : Workbench η σ) :
    readClock clock w = (.ok (clock w.readings), { w with readings := w.readings + 1 }) := rfl

section Round

variable {p : Poll η σ} {polls : Nat} {w : Workbench η σ}

theorem awaitDiagnostics_of_late (hlate : (clock w.readings).lt deadline = false) :
    awaitDiagnostics s clock language path deadline (polls + 1) w =
      (.ok none, { w with readings := w.readings + 1 }) := by
  unfold awaitDiagnostics
  rw [Attempt.bind_of_ok (readClock_apply clock w), hlate]
  rfl

theorem withFleet_poll (hpoll : Fleet.perform s language Client.poll w.fleet = (p.result, p.after)) :
    withFleet (Fleet.perform s language Client.poll) { w with readings := w.readings + 1 } =
      (p.result.mapError fleetStop, ⟨p.after, w.shown, w.readings + 1⟩) := by
  rw [withFleet_apply, hpoll]

/-- A poll that settles something is the last one. -/
theorem awaitDiagnostics_of_decides (htime : (clock w.readings).lt deadline = true)
    (hpoll : Fleet.perform s language Client.poll w.fleet = (p.result, p.after))
    {v : Except (Stop RunError) (Option Diagnostics)} (hdecides : p.Decides language path v) :
    awaitDiagnostics s clock language path deadline (polls + 1) w =
      (v.map some, afterPoll s language p w) := by
  have hfleet := withFleet_poll hpoll
  unfold awaitDiagnostics
  rw [Attempt.bind_of_ok (readClock_apply clock w), htime]
  simp only [Bool.not_true, Bool.false_eq_true, if_false]
  obtain ⟨result, after⟩ := p
  cases hdecides with
  | @report event d hresult hvalue hpath =>
      obtain ⟨method, value, subject⟩ := event
      cases hresult
      cases hvalue
      cases hpath
      rw [Attempt.bind_of_ok (Attempt.outcome_of_ok hfleet), afterPoll_of_silent rfl]
      dsimp only
      rw [if_pos rfl]
      rfl
  | @dead e hresult hended =>
      cases hresult
      have hstops : after.running.contains language = false := by simpa using hended
      rw [Attempt.bind_of_ok (Attempt.outcome_of_failed hfleet), afterPoll_of_silent rfl]
      dsimp only
      rw [Attempt.bind_of_ok (Attempt.modify_apply _ _), Attempt.bind_of_ok (Attempt.get_apply _)]
      -- the remark leaves the sessions alone
      show (if (!after.running.contains language) = true then _ else _ : Task η σ _) _ = _
      rw [hstops]
      rfl
  | @fault f hresult =>
      cases hresult
      rw [Attempt.bind_of_error (Attempt.outcome_of_faulted hfleet), afterPoll_of_silent rfl]
      rfl

/-- After a poll that settles nothing, the wait goes on. -/
theorem awaitDiagnostics_of_undecided (htime : (clock w.readings).lt deadline = true)
    (hpoll : Fleet.perform s language Client.poll w.fleet = (p.result, p.after))
    (hundecided : p.Undecided language path) :
    awaitDiagnostics s clock language path deadline (polls + 1) w =
      awaitDiagnostics s clock language path deadline polls (afterPoll s language p w) := by
  have hfleet := withFleet_poll hpoll
  conv_lhs => unfold awaitDiagnostics
  rw [Attempt.bind_of_ok (readClock_apply clock w), htime]
  simp only [Bool.not_true, Bool.false_eq_true, if_false]
  rcases p with ⟨(e | f) | (_ | ⟨method, value, subject⟩), after⟩
  · have hrunning : language ∈ after.running := by
      by_contra hended
      exact hundecided _ (.dead rfl hended)
    have hgoes : after.running.contains language = true := by simpa using hrunning
    rw [Attempt.bind_of_ok (Attempt.outcome_of_failed hfleet), afterPoll_of_silent rfl]
    dsimp only
    rw [Attempt.bind_of_ok (Attempt.modify_apply _ _), Attempt.bind_of_ok (Attempt.get_apply _)]
    show (if (!after.running.contains language) = true then _ else _ : Task η σ _) _ = _
    rw [hgoes]
    rfl
  · exact absurd (.fault rfl) (hundecided _)
  · rw [Attempt.bind_of_ok (Attempt.outcome_of_ok hfleet), afterPoll_of_silent rfl]
    rfl
  · rw [Attempt.bind_of_ok (Attempt.outcome_of_ok hfleet)]
    cases value with
    | message m => rfl
    | diagnostics d =>
        have hother : subject ≠ some path := by
          intro hpath
          exact hundecided _ (.report rfl rfl hpath)
        rw [afterPoll_of_silent rfl]
        dsimp only
        rw [if_neg hother]
        rfl
    | other v =>
        rw [afterPoll_of_silent rfl]
        rfl

end Round

/-! ## The whole wait -/

/-- How a wait ends that has made these polls, after so many readings of the clock. -/
inductive Ends (clock : Nat → Binary64) (language path : Text) (deadline : Binary64)
    (limit readings : Nat) (made : List (Poll η σ)) :
    Except (Stop RunError) (Option (Option Diagnostics)) → Prop
  /-- The last poll settles something, and none before it does. -/
  | decided {before : List (Poll η σ)} {p : Poll η σ} {v : Except (Stop RunError) (Option Diagnostics)}
      (hmade : made = before ++ [p]) (hbefore : ∀ q ∈ before, q.Undecided language path)
      (hlast : p.Decides language path v) :
      Ends clock language path deadline limit readings made (v.map some)
  /-- No poll settles anything before the deadline has passed, or before there are too many. -/
  | elapsed (hmade : ∀ q ∈ made, q.Undecided language path)
      (hover : (clock (readings + made.length)).lt deadline = false ∨ made.length = limit) :
      Ends clock language path deadline limit readings made (.ok none)

/-- A wait: the polls it makes, what it finds, and what is shown after their messages. -/
structure Awaited (s : Surroundings) (clock : Nat → Binary64) (language path : Text)
    (deadline : Binary64) (limit : Nat) (before : Workbench η σ) (made : List (Poll η σ))
    (found : Except (Stop RunError) (Option (Option Diagnostics))) (blocks : List Block)
    (after : Workbench η σ) : Prop where
  /-- No other polls are made: the servers are as the last of these has left them. -/
  polls : Polls s language before.fleet made after.fleet
  /-- Every poll is made before the deadline. -/
  inTime : ∀ k < made.length, (clock (before.readings + k)).lt deadline = true
  ending : Ends clock language path deadline limit before.readings made found
  /-- Every message is shown, once and in its order. -/
  shown : after.shown = before.shown ++
    (made.filterMap Poll.message?).map (Block.ofServerMessage s language) ++ blocks

namespace Awaited

variable {limit : Nat} {w after : Workbench η σ} {made : List (Poll η σ)}
  {found : Except (Stop RunError) (Option (Option Diagnostics))} {blocks : List Block}

theorem cons {p : Poll η σ} (htime : (clock w.readings).lt deadline = true)
    (hpoll : Fleet.perform s language Client.poll w.fleet = (p.result, p.after))
    (hundecided : p.Undecided language path)
    (h : Awaited s clock language path deadline limit (afterPoll s language p w) made found blocks
      after) :
    Awaited s clock language path deadline (limit + 1) w (p :: made) found blocks after where
  polls := .cons hpoll h.polls
  inTime := by
    rintro (_ | k) hk
    · exact htime
    · have hlater := h.inTime k (Nat.lt_of_succ_lt_succ hk)
      rwa [readings_afterPoll, Nat.add_right_comm] at hlater
  ending := by
    cases h.ending with
    | @decided before last v hmade hbefore hlast =>
        have hsplit : p :: made = (p :: before) ++ [last] := congrArg (p :: ·) hmade
        exact .decided hsplit (List.forall_mem_cons.mpr ⟨hundecided, hbefore⟩) hlast
    | elapsed hmade hover =>
        refine .elapsed (List.forall_mem_cons.mpr ⟨hundecided, hmade⟩) ?_
        refine hover.imp (fun hlate => ?_) (congrArg Nat.succ)
        rwa [readings_afterPoll, Nat.add_right_comm] at hlate
  shown := by
    rw [h.shown, afterPoll]
    cases hmessage : p.message? <;> simp [hmessage]

/-- A wait may be over before its first poll. -/
theorem nothing (hfleet : after.fleet = w.fleet) (hshown : after.shown = w.shown)
    (hover : (clock w.readings).lt deadline = false ∨ 0 = limit) :
    Awaited s clock language path deadline limit w [] (.ok none) [] after where
  polls := hfleet ▸ .nil _
  inTime := fun k hk => absurd hk (Nat.not_lt_zero k)
  ending := .elapsed (by simp) hover
  shown := by simp [hshown]

/-- A poll that settles something makes a wait by itself. -/
theorem last {p : Poll η σ} (htime : (clock w.readings).lt deadline = true)
    (hpoll : Fleet.perform s language Client.poll w.fleet = (p.result, p.after))
    {v : Except (Stop RunError) (Option Diagnostics)} (hdecides : p.Decides language path v) :
    Awaited s clock language path deadline limit w [p] (v.map some) [] (afterPoll s language p w) where
  polls := .cons hpoll (.nil _)
  inTime := by
    rintro (_ | k) hk
    · exact htime
    · exact absurd (Nat.lt_of_succ_lt_succ hk) (Nat.not_lt_zero k)
  ending := .decided (List.nil_append [p]).symm (by simp) hdecides
  shown := by
    rw [afterPoll]
    cases hmessage : p.message? <;> simp [hmessage]

/-- What is found has been decoded. -/
theorem fits {d : Diagnostics}
    (h : Awaited s clock language path deadline limit w made (.ok (some (some d))) blocks after) :
    ∀ x ∈ d.diagnostics, x.Fits .wide := by
  have hending := h.ending
  generalize hfound : (.ok (some (some d)) : Except (Stop RunError) (Option (Option Diagnostics))) =
    found at hending
  cases hending with
  | elapsed => cases hfound
  | @decided before p v hmade hbefore hlast =>
      obtain ⟨d', rfl, hd⟩ := Stopping.map_eq_ok_iff.mp hfound.symm
      cases hd
      cases hlast with
      | report hresult hvalue hpath =>
          have hmem : p ∈ made := by
            rw [hmade]
            exact List.mem_append_right _ (List.mem_singleton_self p)
          obtain ⟨fleet, hpoll⟩ := h.polls.exists_perform hmem
          rw [hresult] at hpoll
          exact Fleet.fits_of_poll hpoll hvalue

theorem display (h : Awaited s clock language path deadline limit w made found [] after)
    (block : Block) :
    Awaited s clock language path deadline limit w made found [block] (after.display block) where
  polls := h.polls
  inTime := h.inTime
  ending := h.ending
  shown := by rw [Workbench.display, h.shown, List.append_nil]

end Awaited

/-- Waiting comes to one of the ends there are, whatever the servers do. -/
theorem awaitDiagnostics_awaited (s : Surroundings) (clock : Nat → Binary64) (language path : Text)
    (deadline : Binary64) (limit : Nat) (w : Workbench η σ) :
    ∃ made, Awaited s clock language path deadline limit w made
      (awaitDiagnostics s clock language path deadline limit w).1 []
      (awaitDiagnostics s clock language path deadline limit w).2 := by
  induction limit generalizing w with
  | zero => exact ⟨[], .nothing rfl rfl (Or.inr rfl)⟩
  | succ limit ih =>
      cases htime : (clock w.readings).lt deadline with
      | false =>
          rw [awaitDiagnostics_of_late htime]
          exact ⟨[], .nothing rfl rfl (Or.inl htime)⟩
      | true =>
          obtain ⟨p, hpoll⟩ : ∃ p : Poll η σ,
              Fleet.perform s language Client.poll w.fleet = (p.result, p.after) := ⟨⟨_, _⟩, rfl⟩
          by_cases hundecided : p.Undecided language path
          · rw [awaitDiagnostics_of_undecided htime hpoll hundecided]
            obtain ⟨made, hmade⟩ := ih (afterPoll s language p w)
            exact ⟨p :: made, hmade.cons htime hpoll hundecided⟩
          · obtain ⟨v, hv⟩ := not_forall_not.mp hundecided
            rw [awaitDiagnostics_of_decides htime hpoll hv]
            exact ⟨[p], .last htime hpoll hv⟩

/-! ## What is shown of it -/

/-- What the user is told of a find, and how the command ends. -/
inductive Presents (wait : Binary64) (path : Text) :
    Except (Stop RunError) (Option (Option Diagnostics)) → Except (Stop RunError) Unit →
      List Block → Prop
  /-- Nothing was received. -/
  | nothing : Presents wait path (.ok none) (.ok ())
      [.plain ("No diagnostics received within " ++ Text.ofChars wait.renderTenths ++
        Text.ofString "s")]
  /-- The server reports no list. -/
  | unlisted : Presents wait path (.ok (some none)) (.ok ())
      [.markup (Markup.styled "dim" ("No diagnostics reported for " ++ Markup.escape path))]
  /-- The server reports an empty list. -/
  | clean {d : Diagnostics} (hempty : d.diagnostics = []) :
      Presents wait path (.ok (some (some d))) (.ok ())
        [.markup (Markup.styled "green" "✓" ++ Text.ofString " " ++ Markup.escape d.path ++
          Text.ofString ": clean")]
  /-- The server reports diagnostics, and each of them has its row, in their order. -/
  | listed {d : Diagnostics} {rows : List (List Text)} (hlisted : d.diagnostics ≠ [])
      (hnear : ∀ x ∈ d.diagnostics, ¬x.TooFar)
      (hrows : List.Forall₂ (fun x row => Block.diagnosticRow x = .ok row) d.diagnostics rows) :
      Presents wait path (.ok (some (some d))) (.ok ())
        [.table ⟨Markup.escape d.path, true, Block.diagnosticColumns, rows⟩]
  /-- The server reports a diagnostic that is too far to be shown. -/
  | tooFar {d : Diagnostics} {x : Diagnostic} (hmem : x ∈ d.diagnostics) (hfar : x.TooFar) :
      Presents wait path (.ok (some (some d))) (.error (.faulted .unwritable)) []
  /-- The wait was cut short. -/
  | stopped (stop : Stop RunError) : Presents wait path (.error stop) (.error stop) []

omit [Peer σ] in
theorem presents_of_ofDiagnostics {wait : Binary64} {d : Diagnostics} {block : Block}
    (hfits : ∀ x ∈ d.diagnostics, x.Fits .wide) (h : Block.ofDiagnostics (some d) path = .ok block) :
    Presents wait path (.ok (some (some d))) (.ok ()) [block] := by
  have hnear : ∀ x ∈ d.diagnostics, ¬x.TooFar := by
    intro x hmem hfar
    cases h.symm.trans ((Block.ofDiagnostics_eq_error_iff hfits path).mpr ⟨rfl, x, hmem, hfar⟩)
  by_cases hempty : d.diagnostics = []
  · rw [Block.ofDiagnostics_of_empty hempty] at h
    cases h
    exact .clean hempty
  · rw [Block.ofDiagnostics_of_ne_nil hempty] at h
    obtain ⟨rows, hrows, rfl⟩ := Stopping.map_eq_ok_iff.mp h
    exact .listed hempty hnear (Stopping.mapM_eq_ok_iff.mp hrows)

end Workbench

end LanguageClient
