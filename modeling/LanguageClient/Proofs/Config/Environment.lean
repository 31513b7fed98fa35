import LanguageClient.Config.Load
import LanguageClient.Proofs.Attempt

/-!
# Overrides from the environment

Three variables change three settings of a configuration, one variable after another.  A variable that
is refused stops the rest, and what was changed before it stays changed.  Main statement:
`applyEnvironment_outcome`; that the overrides are not all made or none is
`applyEnvironment_halfway`.

```text
EDITOR_LSP_POLL_TIMEOUT    pollTimeout
EDITOR_LSP_POLL_CYCLES     cycles, at least one
EDITOR_LSP_TRACE           trace
```
-/

namespace LanguageClient.Config

variable {ι α : Type}

/-- What a variable makes of a setting: it stays as it is if the variable is not set, and it becomes
what the variable's text is read as if that is anything. -/
inductive Settles (s : Surroundings) (name : Text) (read : Text → Except ConfigError α) (old : α) :
    α → Prop
  | absent (hname : s.lookup? name = none) : Settles s name read old old
  | present {t : Text} {new : α} (hname : s.lookup? name = some t) (hread : read t = .ok new) :
      Settles s name read old new

/-- The variable is set, and its text cannot be read. -/
def Refuses (s : Surroundings) (name : Text) (read : Text → Except ConfigError α)
    (e : ConfigError) : Prop :=
  ∃ t, s.lookup? name = some t ∧ read t = .error e

/-- The poll cycles that a text asks for, of which there is at least one. -/
def readClampedCycles (t : Text) : Except ConfigError Int := (readCycles t).map (max 1)

abbrev SettlesTimeout (s : Surroundings) : Binary64 → Binary64 → Prop :=
  Settles s "EDITOR_LSP_POLL_TIMEOUT" readTimeout

abbrev SettlesCycles (s : Surroundings) : Int → Int → Prop :=
  Settles s "EDITOR_LSP_POLL_CYCLES" readClampedCycles

abbrev SettlesTrace (s : Surroundings) : Verbosity → Verbosity → Prop :=
  Settles s "EDITOR_LSP_TRACE" readTrace

/-- Every setting is what its variable makes of it, and nothing else has changed. -/
inductive Overridden (s : Surroundings) (c : Config ι) : Config ι → Prop
  | intro {timeout : Binary64} {cycles : Int} {trace : Verbosity}
      (htimeout : SettlesTimeout s c.pollTimeout timeout) (hcycles : SettlesCycles s c.cycles cycles)
      (htrace : SettlesTrace s c.trace trace) :
      Overridden s c { c with pollTimeout := timeout, cycles := cycles, trace := trace }

/-- A variable is refused with the error.  The settings of the variables before it are what these make
of them, and nothing else has changed. -/
inductive Interrupted (s : Surroundings) (c : Config ι) (e : ConfigError) : Config ι → Prop
  | timeout (hrefused : Refuses s "EDITOR_LSP_POLL_TIMEOUT" readTimeout e) : Interrupted s c e c
  | cycles {timeout : Binary64} (htimeout : SettlesTimeout s c.pollTimeout timeout)
      (hrefused : Refuses s "EDITOR_LSP_POLL_CYCLES" readClampedCycles e) :
      Interrupted s c e { c with pollTimeout := timeout }
  | trace {timeout : Binary64} {cycles : Int} (htimeout : SettlesTimeout s c.pollTimeout timeout)
      (hcycles : SettlesCycles s c.cycles cycles)
      (hrefused : Refuses s "EDITOR_LSP_TRACE" readTrace e) :
      Interrupted s c e { c with pollTimeout := timeout, cycles := cycles }

/-! ## One variable -/

section Variable

variable {s : Surroundings} {name : Text} {read : Text → Except ConfigError α}

/-- A variable is taken over into the setting that `set` changes, or it stops everything. -/
theorem takeOver_outcome {β : Type} (s : Surroundings) (name : Text)
    (read : Text → Except ConfigError α) (read' : Text → Except ConfigError β)
    (change : α → Config ι → Config ι) (c : Config ι) (old : β) (set : β → Config ι)
    (hold : set old = c) (hok : ∀ t a, read t = .ok a → ∃ new, read' t = .ok new ∧ change a c = set new)
    (herror : ∀ t e, read t = .error e → read' t = .error e) :
    (∃ new, Settles s name read' old new ∧ takeOver s name read change c = (.ok (), set new)) ∨
      ∃ e, Refuses s name read' e ∧ takeOver s name read change c = (.error (.failed e), c) := by
  unfold takeOver
  cases hname : s.lookup? name with
  | none => exact Or.inl ⟨old, .absent hname, by rw [hold]; rfl⟩
  | some t =>
      dsimp only
      cases hread : read t with
      | ok a =>
          obtain ⟨new, hnew, hchange⟩ := hok t a hread
          exact Or.inl ⟨new, .present hname hnew, congrArg _ hchange⟩
      | error e => exact Or.inr ⟨e, ⟨t, hname, herror t e hread⟩, rfl⟩

/-- A variable makes one thing of a setting. -/
theorem Settles.unique {old new new' : α} (h : Settles s name read old new)
    (h' : Settles s name read old new') : new = new' := by
  cases h with
  | absent hname =>
      cases h' with
      | absent => rfl
      | present hname' => cases hname.symm.trans hname'
  | present hname hread =>
      cases h' with
      | absent hname' => cases hname.symm.trans hname'
      | present hname' hread' =>
          obtain rfl := Option.some.inj (hname.symm.trans hname')
          exact Except.ok.inj (hread.symm.trans hread')

/-- A variable that is refused makes nothing of a setting. -/
theorem Settles.not_refuses {old new : α} {e : ConfigError} (h : Settles s name read old new) :
    ¬ Refuses s name read e := by
  rintro ⟨t, hname', hread'⟩
  cases h with
  | absent hname => cases hname.symm.trans hname'
  | present hname hread =>
      obtain rfl := Option.some.inj (hname.symm.trans hname')
      cases hread.symm.trans hread'

theorem Refuses.unique {e e' : ConfigError} (h : Refuses s name read e)
    (h' : Refuses s name read e') : e = e' := by
  obtain ⟨t, hname, hread⟩ := h
  obtain ⟨t', hname', hread'⟩ := h'
  obtain rfl := Option.some.inj (hname.symm.trans hname')
  exact Except.error.inj (hread.symm.trans hread')

end Variable

/-! ## All variables -/

variable {s : Surroundings} {c : Config ι}

theorem applyEnvironment_cases (s : Surroundings) (c : Config ι) :
    (∃ c', Overridden s c c' ∧ applyEnvironment s c = (.ok (), c')) ∨
      ∃ e c', Interrupted s c e c' ∧ applyEnvironment s c = (.error (.failed e), c') := by
  unfold applyEnvironment
  rcases takeOver_outcome s "EDITOR_LSP_POLL_TIMEOUT" readTimeout readTimeout
      (fun x c => { c with pollTimeout := x }) c c.pollTimeout
      (fun x => { c with pollTimeout := x }) rfl (fun _ x h => ⟨x, h, rfl⟩) (fun _ _ h => h) with
    ⟨timeout, htimeout, h₁⟩ | ⟨e, hrefused, h₁⟩
  · rw [Attempt.bind_of_ok h₁]
    rcases takeOver_outcome s "EDITOR_LSP_POLL_CYCLES" readCycles readClampedCycles
        (fun n c => { c with cycles := max 1 n }) { c with pollTimeout := timeout } c.cycles
        (fun n => { c with pollTimeout := timeout, cycles := n }) rfl
        (fun t n h => ⟨max 1 n, by rw [readClampedCycles, h]; rfl, rfl⟩)
        (fun t e h => by rw [readClampedCycles, h]; rfl) with
      ⟨cycles, hcycles, h₂⟩ | ⟨e, hrefused, h₂⟩
    · rw [Attempt.bind_of_ok h₂]
      rcases takeOver_outcome s "EDITOR_LSP_TRACE" readTrace readTrace
          (fun trace c => { c with trace := trace })
          { c with pollTimeout := timeout, cycles := cycles } c.trace
          (fun trace => { c with pollTimeout := timeout, cycles := cycles, trace := trace })
          rfl (fun _ trace h => ⟨trace, h, rfl⟩) (fun _ _ h => h) with
        ⟨trace, htrace, h₃⟩ | ⟨e, hrefused, h₃⟩
      · exact Or.inl ⟨_, ⟨htimeout, hcycles, htrace⟩, h₃⟩
      · exact Or.inr ⟨e, _, .trace htimeout hcycles hrefused, h₃⟩
    · exact Or.inr ⟨e, _, .cycles htimeout hrefused, Attempt.bind_of_error h₂ _⟩
  · exact Or.inr ⟨e, _, .timeout hrefused, Attempt.bind_of_error h₁ _⟩

theorem Overridden.unique {c' c'' : Config ι} (h : Overridden s c c') (h' : Overridden s c c'') :
    c' = c'' := by
  obtain ⟨htimeout, hcycles, htrace⟩ := h
  obtain ⟨htimeout', hcycles', htrace'⟩ := h'
  rw [htimeout.unique htimeout', hcycles.unique hcycles', htrace.unique htrace']

/-- All variables are read, or one of them is refused. -/
theorem Overridden.not_interrupted {c' c'' : Config ι} {e : ConfigError} (h : Overridden s c c') :
    ¬ Interrupted s c e c'' := by
  obtain ⟨htimeout, hcycles, htrace⟩ := h
  rintro (hrefused | ⟨-, hrefused⟩ | ⟨-, -, hrefused⟩)
  · exact htimeout.not_refuses hrefused
  · exact hcycles.not_refuses hrefused
  · exact htrace.not_refuses hrefused

/-- The first variable that is refused decides. -/
theorem Interrupted.unique {e e' : ConfigError} {c' c'' : Config ι} (h : Interrupted s c e c')
    (h' : Interrupted s c e' c'') : e = e' ∧ c' = c'' := by
  rcases h with hrefused | ⟨htimeout, hrefused⟩ | ⟨htimeout, hcycles, hrefused⟩ <;>
    rcases h' with hrefused' | ⟨htimeout', hrefused'⟩ | ⟨htimeout', hcycles', hrefused'⟩
  · exact ⟨hrefused.unique hrefused', rfl⟩
  · exact absurd hrefused htimeout'.not_refuses
  · exact absurd hrefused htimeout'.not_refuses
  · exact absurd hrefused' htimeout.not_refuses
  · exact ⟨hrefused.unique hrefused', by rw [htimeout.unique htimeout']⟩
  · exact absurd hrefused hcycles'.not_refuses
  · exact absurd hrefused' htimeout.not_refuses
  · exact absurd hrefused' hcycles.not_refuses
  · exact ⟨hrefused.unique hrefused',
      by rw [htimeout.unique htimeout', hcycles.unique hcycles']⟩

/-- **What overriding comes to.**  It succeeds with a configuration if and only if every setting in it
is what its variable makes of it, and nothing else has changed; it stops with an error and a
configuration if and only if a variable is refused with the error, the settings of the variables
before it are what these make of them, and nothing else has changed; and it ends in no other way. -/
theorem applyEnvironment_outcome (s : Surroundings) (c : Config ι) :
    (∀ c', applyEnvironment s c = (.ok (), c') ↔ Overridden s c c') ∧
      (∀ e c', applyEnvironment s c = (.error (.failed e), c') ↔ Interrupted s c e c') ∧
      ∀ f c', applyEnvironment s c ≠ (.error (.faulted f), c') := by
  rcases applyEnvironment_cases s c with ⟨c₁, hmade, h⟩ | ⟨e₁, c₁, hmade, h⟩ <;> rw [h]
  · refine ⟨fun c' => ⟨fun heq => ?_, fun h' => by rw [hmade.unique h']⟩,
      fun e c' => iff_of_false (fun heq => nomatch (Prod.mk.inj heq).1) hmade.not_interrupted,
      fun f c' heq => nomatch (Prod.mk.inj heq).1⟩
    obtain rfl := (Prod.mk.inj heq).2
    exact hmade
  · refine ⟨fun c' => iff_of_false (fun heq => nomatch (Prod.mk.inj heq).1) fun h' =>
        h'.not_interrupted hmade,
      fun e c' => ⟨fun heq => ?_, fun h' => ?_⟩,
      fun f c' heq => nomatch Except.error.inj (Prod.mk.inj heq).1⟩
    · obtain ⟨herror, rfl⟩ := Prod.mk.inj heq
      obtain rfl := Stop.failed.inj (Except.error.inj herror)
      exact hmade
    · obtain ⟨rfl, rfl⟩ := hmade.unique h'
      rfl

/-- Seven poll cycles and a trace of no name: the trace is refused, and the poll cycles have changed
all the same. -/
theorem applyEnvironment_halfway : ∃ c' : Config Text,
    applyEnvironment ⟨"/", "/home", 1, [], [],
        [("EDITOR_LSP_POLL_CYCLES", "7"), ("EDITOR_LSP_TRACE", "loud")]⟩ (standard Text) =
      (.error (.failed (.environmentTrace "loud")), c') ∧
      (standard Text).cycles = 50 ∧ c'.cycles = 7 :=
  ⟨{ standard Text with cycles := 7 }, rfl, rfl, rfl⟩

end LanguageClient.Config
