import LanguageClient.Proofs.Rpc.Exchange

/-!
# No message is lost

Two operations take messages from the same stream: waiting for a response, and asking for the next
message.  Main statement: `history_accounts`, for every sequence of operations and every peer.

```text
read with a method       returned by `next`, in order, or still in the inbox
read without a method    returned as the awaited response, refused, or dropped, once
```

## Strategy

One operation moves the inbox and the messages read in a few ways (`Step`).  In each of them the
messages with a method are conserved (`Step.conserves`), and a response that was read is dealt with
on the spot (`Step.accounts`).  Both add up over a run.
-/

namespace LanguageClient.Connection

/-- What is known of an operation once it is over. -/
structure Event where
  operation : Operation
  outcome : Outcome
  /-- The messages that it read. -/
  read : List Members
  /-- The warnings that it logged. -/
  warned : List Text

namespace Event

/-- The message that was returned as the next one. -/
def passedOn? : Event → Option Members
  | ⟨.next, .returned m, _, _⟩ => some m
  | _ => none

/-- How the event deals with a response that it read. -/
inductive Settles (event : Event) (m : Members) : Prop
  /-- It was awaited. -/
  | answered {id : Json} (hawaits : event.operation.awaits? = some id)
      (hid : (responseId m).same id = true) (houtcome : event.outcome = .returned m)
      (hwarned : event.warned = [])
  /-- Another response was awaited. -/
  | refused {id : Json} (hawaits : event.operation.awaits? = some id)
      (hid : (responseId m).same id = false)
      (houtcome : event.outcome = .stopped (.failed (.unsolicited (responseId m))))
      (hwarned : event.warned = [unknownResponse (responseId m) id])
  /-- No response was awaited. -/
  | dropped (hnext : event.operation = .next) (houtcome : event.outcome = .nothing)
      (hwarned : event.warned = [lateResponse (responseId m)])

/-- The event looks as if a response had been dealt with. -/
def ShowsResponse (event : Event) : Prop :=
  (event.operation ≠ .next ∧ ∃ m, event.outcome = .returned m) ∨
    (∃ id, event.outcome = .stopped (.failed (.unsolicited id))) ∨ event.warned ≠ []

/-- At most one message was read.  A response was dealt with, and without one nothing looks like it. -/
def Accounts (event : Event) : Prop :=
  (∃ m : Members, event.read = [m] ∧ m.has "method" = false ∧ event.Settles m) ∨
    ((event.read = [] ∨ ∃ m : Members, event.read = [m] ∧ m.has "method" = true) ∧
      ¬ event.ShowsResponse)

end Event

variable {σ : Type}

/-- The event of an operation that led from `c` to `c'`. -/
def eventOf (op : Operation) (c : Connection σ) (outcome : Outcome) (c' : Connection σ) : Event where
  operation := op
  outcome := outcome
  read := c'.received.drop c.received.length
  warned := c'.warnings.drop c.warnings.length

/-! ## One operation -/

section Step

variable {op : Operation} {c c' : Connection σ} {outcome : Outcome}
  {inbox read : List Members} {warned : List Text}

theorem Moves.read_eq (h : Moves c c' inbox read warned) :
    (eventOf op c outcome c').read = read := by
  rw [eventOf, h.received_eq, List.drop_left]

theorem Moves.warned_eq (h : Moves c c' inbox read warned) :
    (eventOf op c outcome c').warned = warned := by
  rw [eventOf, h.warnings_eq, List.drop_left]

theorem Step.exists_moves (h : Step op c outcome c') :
    ∃ inbox read warned, Moves c c' inbox read warned := by
  cases h <;> exact ⟨_, _, _, ‹Moves ..›⟩

theorem Step.received_eq (h : Step op c outcome c') :
    c'.received = c.received ++ (eventOf op c outcome c').read ∧
      c'.warnings = c.warnings ++ (eventOf op c outcome c').warned := by
  obtain ⟨inbox, read, warned, hmoves⟩ := h.exists_moves
  rw [hmoves.read_eq, hmoves.warned_eq]
  exact ⟨hmoves.received_eq, hmoves.warnings_eq⟩

theorem passedOn?_of_awaits {id : Json} (hawaits : op.awaits? = some id) :
    (eventOf op c outcome c').passedOn? = none := by
  cases op with
  | call | receive => rfl
  | next | notify => cases hawaits

theorem passedOn?_of_isIdle (hidle : outcome.isIdle = true) :
    (eventOf op c outcome c').passedOn? = none := by
  cases outcome with
  | returned m => cases hidle
  | nothing | stopped => cases op <;> rfl

/-- **The messages with a method go through the inbox in order.** -/
theorem Step.conserves (h : Step op c outcome c') :
    (eventOf op c outcome c').passedOn?.toList ++ c'.inbox =
      c.inbox ++ (eventOf op c outcome c').read.filter (·.has "method") := by
  cases h with
  | idle hidle h =>
      rw [passedOn?_of_isIdle hidle, h.read_eq, h.inbox_eq]
      simp
  | kept hawaits hmethod h =>
      rw [passedOn?_of_awaits hawaits, h.read_eq, h.inbox_eq]
      simp [hmethod]
  | answered hawaits hmethod hid h | refused hawaits hmethod hid h =>
      rw [passedOn?_of_awaits hawaits, h.read_eq, h.inbox_eq]
      simp [hmethod]
  | taken hnext hinbox h =>
      subst hnext
      rw [h.read_eq, h.inbox_eq, hinbox]
      simp [eventOf, Event.passedOn?]
  | passed hnext hinbox hmethod h =>
      subst hnext
      rw [h.read_eq, h.inbox_eq, hinbox]
      simp [eventOf, Event.passedOn?, hmethod]
  | dropped hnext hinbox hmethod h =>
      rw [passedOn?_of_isIdle rfl, h.read_eq, h.inbox_eq, hinbox]
      simp [hmethod]

/-- Without a sign of a response, none was read. -/
theorem not_showsResponse (hwarned : (eventOf op c outcome c').warned = [])
    (hreturned : ∀ m, outcome = .returned m → op = .next)
    (hrefused : ∀ id, outcome ≠ .stopped (.failed (.unsolicited id))) :
    ¬ (eventOf op c outcome c').ShowsResponse := by
  rintro (⟨hop, m, hm⟩ | ⟨id, hid⟩ | hwarns)
  · exact hop (hreturned m hm)
  · exact hrefused id hid
  · exact hwarns hwarned

/-- **A response that was read is dealt with, and only such a response.** -/
theorem Step.accounts (h : Step op c outcome c') : (eventOf op c outcome c').Accounts := by
  cases h with
  | idle hidle h =>
      refine Or.inr ⟨Or.inl h.read_eq, not_showsResponse h.warned_eq ?_ ?_⟩
      · rintro m rfl
        cases hidle
      · rintro id rfl
        cases hidle
  | kept hawaits hmethod h =>
      refine Or.inr ⟨Or.inr ⟨_, h.read_eq, hmethod⟩, not_showsResponse h.warned_eq ?_ ?_⟩
      · exact fun m hm => nomatch hm
      · exact fun id hid => nomatch hid
  | answered hawaits hmethod hid h =>
      exact Or.inl ⟨_, h.read_eq, hmethod, .answered hawaits hid rfl h.warned_eq⟩
  | refused hawaits hmethod hid h =>
      exact Or.inl ⟨_, h.read_eq, hmethod, .refused hawaits hid rfl h.warned_eq⟩
  | taken hnext hinbox h =>
      refine Or.inr ⟨Or.inl h.read_eq, not_showsResponse h.warned_eq (fun _ _ => hnext) ?_⟩
      exact fun id hid => nomatch hid
  | passed hnext hinbox hmethod h =>
      refine Or.inr ⟨Or.inr ⟨_, h.read_eq, hmethod⟩,
        not_showsResponse h.warned_eq (fun _ _ => hnext) ?_⟩
      exact fun id hid => nomatch hid
  | dropped hnext hinbox hmethod h =>
      exact Or.inl ⟨_, h.read_eq, hmethod, .dropped hnext rfl h.warned_eq⟩

end Step

/-! ## A run -/

variable [Peer σ]

/-- The events of a run, and the connection after it. -/
def history (c : Connection σ) : List Operation → List Event × Connection σ
  | [] => ([], c)
  | op :: ops =>
    (eventOf op c (c.perform op).1 (c.perform op).2 :: ((c.perform op).2.history ops).1,
      ((c.perform op).2.history ops).2)

theorem received_history (c : Connection σ) (ops : List Operation) :
    (c.history ops).2.received = c.received ++ (c.history ops).1.flatMap Event.read ∧
      (c.history ops).2.warnings = c.warnings ++ (c.history ops).1.flatMap Event.warned := by
  induction ops generalizing c with
  | nil => simp [history]
  | cons op ops ih =>
      obtain ⟨hreceived, hwarnings⟩ := (c.perform_step op).received_eq
      obtain ⟨hreceived', hwarnings'⟩ := ih (c.perform op).2
      rw [history, hreceived', hwarnings', hreceived, hwarnings, List.append_assoc,
        List.append_assoc]
      exact ⟨rfl, rfl⟩

/-- **What was passed on and what is in the inbox is what was in the inbox and what was read.** -/
theorem conserves_history (c : Connection σ) (ops : List Operation) :
    (c.history ops).1.filterMap Event.passedOn? ++ (c.history ops).2.inbox =
      c.inbox ++ ((c.history ops).1.flatMap Event.read).filter (·.has "method") := by
  induction ops generalizing c with
  | nil => simp [history]
  | cons op ops ih =>
      have hstep := (c.perform_step op).conserves
      have hrest := ih (c.perform op).2
      -- the first event and the rest of the run are all that matters from here on
      generalize hevent : eventOf op c (c.perform op).1 (c.perform op).2 = event at hstep
      generalize hrun : (c.perform op).2.history ops = run at hrest
      calc
        (c.history (op :: ops)).1.filterMap Event.passedOn? ++ (c.history (op :: ops)).2.inbox =
            event.passedOn?.toList ++ (run.1.filterMap Event.passedOn? ++ run.2.inbox) := by
          rw [history, hevent, hrun, ← List.append_assoc, List.filterMap_cons]
          cases event.passedOn? <;> rfl
        _ = event.passedOn?.toList ++ (c.perform op).2.inbox ++
            (run.1.flatMap Event.read).filter (·.has "method") := by
          rw [hrest, List.append_assoc]
        _ = c.inbox ++ (event.read ++ run.1.flatMap Event.read).filter (·.has "method") := by
          rw [hstep, List.filter_append, List.append_assoc]
        _ = c.inbox ++
            ((c.history (op :: ops)).1.flatMap Event.read).filter (·.has "method") := by
          rw [history, hevent, hrun, List.flatMap_cons]

theorem accounts_history (c : Connection σ) (ops : List Operation) :
    ∀ event ∈ (c.history ops).1, event.Accounts := by
  induction ops generalizing c with
  | nil => exact fun _ h => absurd h (List.not_mem_nil)
  | cons op ops ih =>
      intro event hevent
      rw [history] at hevent
      rcases List.mem_cons.mp hevent with rfl | hevent
      · exact (c.perform_step op).accounts
      · exact ih _ event hevent

end LanguageClient.Connection
