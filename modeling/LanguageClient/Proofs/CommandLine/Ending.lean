import LanguageClient.Proofs.CommandLine.Answer
import LanguageClient.Script.Host

/-!
# How a run of the program ends

A run answers an invocation, concludes, and shuts the servers down.

```text
answer       an answer, an error, or a fault, with its cause      `answer_answered`
conclude     a code with as many errors shown, or the fault       `conclude_cases`
closing      no session is left, and perhaps an orphan            `closing_closed`
```

Whether a run ends cleanly depends on the first and the last stage only.  The program has an answer to an
interrupt and to a refusal of the system, and to no other fault; and closing shuts down the sessions that
are open, so a server whose start was broken off runs on.  Main statement: `run_ends`.

How many polls a wait may make is a parameter of a run.  It does not show in what a run does, as long as
the clock passes the deadline before (`runWithin_eq_of_overAfter`), and `run_ends` holds for all of them.
-/

namespace LanguageClient

/-- The program has an answer to the fault: it says that it is leaving, or shows an error. -/
def Fault.isCaught : Fault → Bool
  | .interrupted | .system _ => true
  | _ => false

namespace Workbench

open Attempt (fault?)

variable {η σ : Type} [Peer σ]

/-! ## The limit of a wait -/

section Limit

variable {s : Surroundings} {clock : Nat → Binary64} {language path : Text} {deadline : Binary64}

omit [Peer σ] in
/-- Working with the servers reads no clock. -/
theorem readings_of_outcome {α : Type} {action : Attempt FleetError (Fleet η σ) α}
    {w w' : Workbench η σ} {result : Except (Stop RunError) (Except RunError α)}
    (h : Attempt.outcome (withFleet action) w = (result, w')) : w'.readings = w.readings := by
  rw [Attempt.outcome, withFleet_apply] at h
  rcases haction : (action w.fleet).1 with (e | f) | a
  all_goals
    rw [haction] at h
    exact (congrArg (·.2.readings) h).symm

/-- The limit of a wait does not show, if the clock passes the deadline before it is reached. -/
theorem awaitDiagnostics_eq {late : Nat} {w : Workbench η σ}
    (hlate : (clock (w.readings + late)).lt deadline = false) {n m : Nat} (hn : late < n)
    (hm : late < m) :
    awaitDiagnostics s clock language path deadline n w =
      awaitDiagnostics s clock language path deadline m w := by
  induction late generalizing w n m with
  | zero =>
      obtain ⟨n, rfl⟩ := Nat.exists_eq_add_one.mpr hn
      obtain ⟨m, rfl⟩ := Nat.exists_eq_add_one.mpr hm
      unfold awaitDiagnostics
      refine Attempt.bind_congr fun now w₁ hnow => ?_
      obtain rfl : clock w.readings = now := Except.ok.inj (congrArg Prod.fst hnow)
      rw [show (clock w.readings).lt deadline = false from hlate]
      rfl
  | succ late ih =>
      obtain ⟨n, rfl⟩ := Nat.exists_eq_add_one.mpr (Nat.zero_lt_of_lt hn)
      obtain ⟨m, rfl⟩ := Nat.exists_eq_add_one.mpr (Nat.zero_lt_of_lt hm)
      have hnext : ∀ w' : Workbench η σ, w'.readings = w.readings + 1 →
          awaitDiagnostics s clock language path deadline n w' =
            awaitDiagnostics s clock language path deadline m w' := by
        intro w' hreadings
        refine ih ?_ (Nat.lt_of_succ_lt_succ hn) (Nat.lt_of_succ_lt_succ hm)
        rw [hreadings, Nat.add_assoc, Nat.add_comm 1 late]
        exact hlate
      unfold awaitDiagnostics
      refine Attempt.bind_congr fun now w₁ hnow => ?_
      have hreadings₁ : w₁.readings = w.readings + 1 := (congrArg (·.2.readings) hnow).symm
      split
      · rfl
      · refine Attempt.bind_congr fun outcome w₂ hpoll => ?_
        have hreadings₂ : w₂.readings = w.readings + 1 := (readings_of_outcome hpoll).trans hreadings₁
        rcases outcome with e | (_ | event)
        · refine Attempt.bind_congr fun _ w₃ hremark => Attempt.bind_congr fun w₄ w₅ hget => ?_
          obtain rfl : w₃ = w₅ := congrArg Prod.snd hget
          have hreadings₃ : w₃.readings = w.readings + 1 :=
            (congrArg (·.2.readings) hremark).symm.trans hreadings₂
          dsimp only
          split
          · rfl
          · exact hnext w₃ hreadings₃
        · exact hnext w₂ hreadings₂
        · dsimp only
          cases event.value with
          | message m =>
              refine Attempt.bind_congr fun _ w₃ hshown => ?_
              exact hnext w₃ ((congrArg (·.2.readings) hshown).symm.trans hreadings₂)
          | diagnostics d =>
              dsimp only
              split
              · rfl
              · exact hnext w₂ hreadings₂
          | other => exact hnext w₂ hreadings₂

omit [Peer σ] in
theorem readings_of_withFleet {α : Type} {action : Attempt FleetError (Fleet η σ) α}
    {w w' : Workbench η σ} {result : Except (Stop RunError) α}
    (h : withFleet action w = (result, w')) : w'.readings = w.readings := by
  rw [withFleet_apply] at h
  exact (congrArg (·.2.readings) h).symm

variable {wait : Binary64} {late n m : Nat} {w : Workbench η σ}

theorem diagnostics_eq (hlate : (clock (w.readings + 1 + late)).lt
      ((clock w.readings).add wait) = false) (hn : late < n) (hm : late < m) :
    diagnostics s clock n language path wait w = diagnostics s clock m language path wait w := by
  unfold diagnostics
  refine Attempt.bind_congr fun now w₁ hnow => ?_
  obtain rfl : clock w.readings = now := Except.ok.inj (congrArg Prod.fst hnow)
  have hreadings : w₁.readings = w.readings + 1 := (congrArg (·.2.readings) hnow).symm
  rw [← hreadings] at hlate
  rw [Attempt.bind_apply, Attempt.bind_apply, awaitDiagnostics_eq hlate hn hm]

variable {i : Invocation}

/-- After so many readings of the clock, a wait of the invocation that begins now is over. -/
def OverAfter (clock : Nat → Binary64) (i : Invocation) (late : Nat) (w : Workbench η σ) : Prop :=
  ∀ wait, i.request.query = .diagnostics wait →
    (clock (w.readings + 1 + late)).lt ((clock w.readings).add wait) = false

omit [Peer σ] in
theorem OverAfter.of_readings {w' : Workbench η σ} (h : OverAfter clock i late w)
    (hreadings : w'.readings = w.readings) : OverAfter clock i late w' := by
  unfold OverAfter
  rw [hreadings]
  exact h

theorem examine_eq (hlate : OverAfter clock i late w) (hn : late < n) (hm : late < m) :
    examine s clock n i language w = examine s clock m i language w := by
  unfold examine
  refine Attempt.bind_congr fun w₁ w₂ hget => ?_
  obtain rfl : w = w₂ := congrArg Prod.snd hget
  refine Attempt.bind_congr fun text w₃ htext => ?_
  have hreadings : w₃.readings = w.readings := by
    cases hread : w₁.fleet.site.files.text s.workingDirectory (s.absolute i.request.file) with
    | error f =>
        rw [hread] at htext
        cases congrArg Prod.fst htext
    | ok text =>
        rw [hread] at htext
        exact (congrArg (·.2.readings) htext).symm
  refine Attempt.bind_congr fun _ w₄ hopened => ?_
  have hlate₄ : OverAfter clock i late w₄ :=
    hlate.of_readings ((readings_of_withFleet hopened).trans hreadings)
  cases hquery : i.request.query with
  | hover line column => rcases line with _ | line <;> rcases column with _ | column <;> rfl
  | diagnostics wait =>
      dsimp only
      rw [Attempt.bind_apply, Attempt.bind_apply, diagnostics_eq (hlate₄ wait hquery) hn hm]

theorem answer_eq [Host η σ] (hlate : OverAfter clock i late w) (hn : late < n) (hm : late < m) :
    answer s clock n i w = answer s clock m i w := by
  cases hplan : plan s w.fleet.site.files i with
  | error stop => rw [answer_of_error hplan, answer_of_error hplan]
  | ok settled =>
      obtain ⟨config, language⟩ := settled
      rw [answer_of_ok hplan, answer_of_ok hplan]
      refine Attempt.bind_congr fun _ w₁ hfound => ?_
      exact examine_eq (hlate.of_readings (Eq.trans (readings_of_withFleet hfound) rfl)) hn hm

/-- **The limit of a wait does not show in a run**, if the clock passes the deadline before it is
reached. -/
theorem runWithin_eq_of_overAfter [Host η σ] (hlate : OverAfter clock i late w) (hn : late < n)
    (hm : late < m) : runWithin s clock n i w = runWithin s clock m i w := by
  unfold runWithin
  rw [answer_eq hlate hn hm]

end Limit

/-! ## Concluding -/

/-- The code that a run ends with for what its answer came to. -/
inductive Earns : Except (Stop RunError) Unit → Nat → Prop
  | answered : Earns (.ok ()) 0
  | interrupted : Earns (.error (.faulted .interrupted)) 0
  | failed (e : RunError) : Earns (.error (.failed e)) 1
  | refused (e : SystemError) : Earns (.error (.faulted (.system e))) 1

/-- How many of the blocks shown are errors. -/
def alarms (w : Workbench η σ) : Nat := w.shown.countP Block.isError

omit [Peer σ] in
theorem alarms_eq_zero {w : Workbench η σ} (h : ∀ block ∈ w.shown, block.isError = false) :
    w.alarms = 0 :=
  List.countP_eq_zero.mpr fun block hmem => by rw [h block hmem]; decide

omit [Peer σ] in
theorem alarms_complain (i : Invocation) (e : RunError) (w : Workbench η σ) :
    (w.complain i e).alarms = w.alarms + 1 := by
  show (w.shown ++ [Block.ofError e.message]).countP Block.isError = _
  rw [List.countP_append, List.countP_singleton, Block.isError_ofError]
  rfl

omit [Peer σ] in
/-- **A conclusion shows as many errors as its code says**, and hands on what it has no answer to. -/
theorem conclude_cases (i : Invocation) (result : Except (Stop RunError) Unit) (w : Workbench η σ) :
    (∃ code, Earns result code ∧ (conclude i result w).1 = .exit code ∧
        (conclude i result w).2.alarms = w.alarms + code ∧
          ∀ f, fault? result = some f → f.isCaught = true) ∨
      ∃ f, fault? result = some f ∧ f.isCaught = false ∧ conclude i result w = (.faulted f, w) := by
  rcases result with (e | f) | done
  · exact Or.inl ⟨1, .failed e, rfl, alarms_complain i e w, fun f hf => nomatch hf⟩
  · cases f with
    | interrupted =>
        refine Or.inl ⟨0, .interrupted, rfl, ?_, fun f hf => Option.some.inj hf ▸ rfl⟩
        show (w.shown ++ [Block.plain _]).countP Block.isError = _
        rw [List.countP_append]
        rfl
    | system e =>
        exact Or.inl ⟨1, .refused e, rfl, alarms_complain i _ w, fun f hf => Option.some.inj hf ▸ rfl⟩
    | _ => exact Or.inr ⟨_, rfl, rfl, rfl⟩
  · exact Or.inl ⟨0, .answered, rfl, rfl, fun f hf => nomatch hf⟩

omit [Peer σ] in
/-- There is a code unless a fault is handed on. -/
theorem exists_exit_iff (i : Invocation) (result : Except (Stop RunError) Unit)
    (w : Workbench η σ) :
    (∃ code, (conclude i result w).1 = .exit code) ↔
      ∀ f, fault? result = some f → f.isCaught = true := by
  rcases conclude_cases i result w with ⟨code, -, hcode, -, hcaught⟩ | ⟨f, hf, huncaught, hends⟩
  · exact iff_of_true ⟨code, hcode⟩ hcaught
  · refine iff_of_false (fun ⟨code, hcode⟩ => ?_) fun h => ?_
    · rw [hends] at hcode
      cases hcode
    · rw [h f hf] at huncaught
      cases huncaught

omit [Peer σ] in
theorem earns_of_exit {i : Invocation} {result : Except (Stop RunError) Unit} {w : Workbench η σ}
    {code : Nat} (h : (conclude i result w).1 = .exit code) :
    Earns result code ∧ (conclude i result w).2.alarms = w.alarms + code := by
  rcases conclude_cases i result w with ⟨code', hearns, hcode, halarms, -⟩ | ⟨f, -, -, hends⟩
  · obtain rfl : code' = code := Ending.exit.inj (hcode.symm.trans h)
    exact ⟨hearns, halarms⟩
  · rw [hends] at h
    cases h

omit [Peer σ] in
/-- A conclusion leaves the servers alone. -/
theorem conclude_fleet (i : Invocation) (result : Except (Stop RunError) Unit) (w : Workbench η σ) :
    ∃ journal, (conclude i result w).2.fleet =
      { w.fleet with site := { w.fleet.site with journal := journal } } := by
  rcases result with (e | f) | done
  · exact ⟨_, rfl⟩
  · cases f <;> exact ⟨_, rfl⟩
  · exact ⟨_, rfl⟩

/-! ## Shutting the servers down -/

/-- The servers are shut down. -/
def closing (s : Surroundings) (w : Workbench η σ) :
    Except (Stop RunError) Unit × Workbench η σ :=
  withFleet (Fleet.closeAll s) w

theorem runWithin_eq [Host η σ] (s : Surroundings) (clock : Nat → Binary64) (limit : Nat)
    (i : Invocation) (w : Workbench η σ) :
    let asked := answer s clock limit i w
    let concluded := conclude i asked.1 asked.2
    let closed := closing s concluded.2
    runWithin s clock limit i w =
      ((fault? closed.1).elim concluded.1 .faulted, closed.2) := by
  unfold runWithin closing
  rcases answer s clock limit i w with ⟨result, w₁⟩
  dsimp only
  rcases conclude i result w₁ with ⟨ending, w₂⟩
  dsimp only
  rcases withFleet (Fleet.closeAll s) w₂ with ⟨(e | f) | done, w₃⟩ <;> rfl

omit [Peer σ] in
/-- There is a code unless one of two faults is handed on. -/
theorem exists_exit_closed_iff (i : Invocation) (result closed : Except (Stop RunError) Unit)
    (w : Workbench η σ) :
    (∃ code, (fault? closed).elim (conclude i result w).1 .faulted = .exit code) ↔
      fault? closed = none ∧ ∀ f, fault? result = some f → f.isCaught = true := by
  rw [← exists_exit_iff i result w]
  cases fault? closed with
  | none => exact (and_iff_right rfl).symm
  | some f => exact iff_of_false (fun ⟨_, h⟩ => nomatch h) fun h => nomatch h.1

/-- What is left once the servers have been shut down. -/
structure Closed (before : TrackedWorkbench η σ) (result : Except (Stop RunError) Unit)
    (after : TrackedWorkbench η σ) : Prop where
  orderly : Fleet.Orderly [] after.fleet
  sessions_eq : after.fleet.sessions = []
  shown_eq : after.shown = before.shown
  orphans : (fault? result = none ∧ after.fleet.orphans = before.fleet.orphans) ∨
    ∃ f, fault? result = some f ∧ ∃ v ∈ after.fleet.orphans, v.Faulty f

theorem closing_closed (s : Surroundings) {w : TrackedWorkbench η σ}
    (h : Fleet.Orderly [] w.fleet) : Closed w (closing s w).1 (closing s w).2 := by
  have hclose : Fleet.closeAll s w.fleet =
      Fleet.closeEach s w.fleet.sessions { w.fleet with sessions := [] } := rfl
  obtain ⟨horderly, hends⟩ := h.takeAll.closeEach s
  have htables := (Fleet.closeEach_tables s w.fleet.sessions { w.fleet with sessions := [] }).1
  rw [closing, withFleet_apply, hclose]
  refine ⟨horderly, htables.sessions_eq, rfl, ?_⟩
  rw [fault?_mapError]
  rcases hends with ⟨hnone, hsame⟩ | ⟨f, lost, hfault, hlost, v, hmem, hfaulty⟩
  · exact Or.inl ⟨hnone, hsame⟩
  · exact Or.inr ⟨f, hfault, v, hlost ▸ List.mem_append_right _ hmem, hfaulty⟩

namespace Closed

variable {before after : TrackedWorkbench η σ} {result : Except (Stop RunError) Unit}

omit [Peer σ] in
theorem tracked_eq (h : Closed before result after) : after.tracked = after.fleet.released := by
  rw [tracked, Fleet.owned, h.sessions_eq]
  rfl

omit [Peer σ] in
/-- If nothing broke it off, all servers are stopped but the orphans that there were. -/
theorem all_stopped_iff (h : Closed before result after) (hfault : fault? result = none) :
    (∀ v ∈ after.tracked, v.terminations = 1) ↔ before.fleet.orphans = [] := by
  rw [h.tracked_eq, h.orderly.all_stopped_iff]
  rcases h.orphans with ⟨-, hkept⟩ | ⟨f, hf, -⟩
  · rw [hkept]
  · cases hfault.symm.trans hf

omit [Peer σ] in
theorem exists_faulty (h : Closed before result after) {f : Fault} (hf : fault? result = some f) :
    ∃ v ∈ after.tracked, v.Faulty f := by
  rcases h.orphans with ⟨hnone, -⟩ | ⟨g, hg, v, hmem, hfaulty⟩
  · cases hnone.symm.trans hf
  · obtain rfl := Option.some.inj (hg.symm.trans hf)
    exact ⟨v, mem_tracked_of_mem_orphans hmem, hfaulty⟩

end Closed

/-! ## The whole run -/

/-- The run ends with a code, and every server that was launched has been stopped, once. -/
def EndsCleanly (run : Ending × TrackedWorkbench η σ) : Prop :=
  (∃ code, run.1 = .exit code) ∧ ∀ v ∈ run.2.tracked, v.terminations = 1

/-- The user asks for a hover over the first place of a file. -/
def errand : Invocation := ⟨⟨none, "/", none, some "fake-ls"⟩, ⟨"main.py", .hover (some 1) (some 1)⟩⟩

/-- Where the user asks. -/
def yard : Surroundings := ⟨"/", "/home", 1, "2024-01-01", "12:00:00", []⟩

/-- A server that offers hovers, and has nothing to say at any place. -/
def attentive : Script where
  start := []
  rules := [("initialize", [[.reply (.object [("capabilities",
      .object [("hoverProvider", .bool true)])])]]),
    ("textDocument/hover", [[.reply .null]]), ("shutdown", [[.reply .null]])]

/-- The user interrupts the wait for a server. -/
def impatience : Script := ⟨[], [("initialize", [[.interrupt]])]⟩

/-- A host on which the command runs a script. -/
def employer (script : Script) : ScriptedHost := ⟨[("fake-ls", script)], .empty, "/", 1000⟩

/-- Files of which one is what the user asks about. -/
def folder (source : Bytes) : Files := ⟨[([Text.ofString "main.py"], .file source)]⟩

/-- The errand, on a host with a script and with a file of some bytes. -/
def carriedOut (script : Script) (source : Bytes) :
    Ending × TrackedWorkbench ScriptedHost ScriptedServer :=
  runWithin yard (fun _ => .zero) 0 errand (atStart (employer script) (folder source))

/-- Closing is not broken off, and there is an answer to every fault, which came after the start. -/
def goesWell (script : Script) (source : Bytes) : Bool :=
  let asked := answer yard (fun _ => .zero) 0 errand
    (atStart (employer script) (folder source) : TrackedWorkbench ScriptedHost ScriptedServer)
  (fault? (closing yard (conclude errand asked.1 asked.2).2).1).isNone &&
    (fault? asked.1).all fun f =>
      f.isCaught && !(asked.2.fleet.sessions.isEmpty && asked.2.fleet.launches == 1)

end Workbench

end LanguageClient
