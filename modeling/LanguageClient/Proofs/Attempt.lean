import LanguageClient.Fault

/-!
# Running attempts

An attempt is a function of the state it starts in.  The equations here run one, step by step, so
that what an operation does can be read off its definition; nothing else about the monads is used.
-/

namespace LanguageClient.Attempt

variable {ε σ α β : Type} (s : σ)

@[simp] theorem pure_apply (a : α) : (pure a : Attempt ε σ α) s = (.ok a, s) := rfl

@[simp] theorem get_apply : (get : Attempt ε σ σ) s = (.ok s, s) := rfl

@[simp] theorem set_apply (t : σ) : (set t : Attempt ε σ Unit) s = (.ok (), t) := rfl

@[simp] theorem modify_apply (f : σ → σ) : (modify f : Attempt ε σ Unit) s = (.ok (), f s) := rfl

@[simp] theorem fail_apply (e : ε) : (fail e : Attempt ε σ α) s = (.error (.failed e), s) := rfl

@[simp] theorem fault_apply (f : Fault) : (fault f : Attempt ε σ α) s = (.error (.faulted f), s) :=
  rfl

/-- What follows starts in the state reached, unless the attempt has stopped. -/
theorem bind_apply (action : Attempt ε σ α) (next : α → Attempt ε σ β) :
    (action >>= next) s =
      match action s with
      | (.ok a, t) => next a t
      | (.error e, t) => (.error e, t) := by
  simp only [bind, ExceptT.bind, ExceptT.mk, ExceptT.bindCont, StateT.bind]
  cases h : action s with
  | mk result t => cases result <;> rfl

variable {s} {t : σ} {action : Attempt ε σ α}

theorem bind_of_ok {a : α} (h : action s = (.ok a, t)) (next : α → Attempt ε σ β) :
    (action >>= next) s = next a t := by
  rw [bind_apply, h]

theorem bind_of_error {e : Stop ε} (h : action s = (.error e, t)) (next : α → Attempt ε σ β) :
    (action >>= next) s = (.error e, t) := by
  rw [bind_apply, h]

/-- Two attempts in a row have a result if the first has one, and the second in the state reached. -/
theorem bind_eq_ok_iff {next : α → Attempt ε σ β} {b : β} {u : σ} :
    (action >>= next) s = (.ok b, u) ↔ ∃ a t, action s = (.ok a, t) ∧ next a t = (.ok b, u) := by
  constructor
  · intro h
    rcases haction : action s with ⟨stop | a, t⟩
    · rw [bind_of_error haction] at h
      cases h
    · rw [bind_of_ok haction] at h
      exact ⟨a, t, rfl, h⟩
  · rintro ⟨a, t, haction, hnext⟩
    rw [bind_of_ok haction, hnext]

/-- What follows matters in the state reached only. -/
theorem bind_congr {next next' : α → Attempt ε σ β}
    (h : ∀ a t, action s = (.ok a, t) → next a t = next' a t) :
    (action >>= next) s = (action >>= next') s := by
  rw [bind_apply, bind_apply]
  rcases haction : action s with ⟨stop | a, t⟩
  · rfl
  · exact h a t haction

variable {ε' : Type}

theorem outcome_of_ok {a : α} (h : action s = (.ok a, t)) :
    (outcome action : Attempt ε' σ (Except ε α)) s = (.ok (.ok a), t) := by
  rw [outcome, h]

theorem outcome_of_failed {e : ε} (h : action s = (.error (.failed e), t)) :
    (outcome action : Attempt ε' σ (Except ε α)) s = (.ok (.error e), t) := by
  rw [outcome, h]

theorem outcome_of_faulted {f : Fault} (h : action s = (.error (.faulted f), t)) :
    (outcome action : Attempt ε' σ (Except ε α)) s = (.error (.faulted f), t) := by
  rw [outcome, h]

end LanguageClient.Attempt
