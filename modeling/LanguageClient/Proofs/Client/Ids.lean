import LanguageClient.Proofs.Client.Routing

/-!
# Ids that count as the same number

The id of a response is compared with the awaited one as a value.  So an integer is matched by the
integer itself, by a truth value that counts as it, and by a number with a fraction or an exponent
that lies in the same place (`Json.CountsAs`); nothing else answers.  Main statement:
`answered_by_id`, for one poll cycle, for a request that is made once, and for every call of a client
that asks.

## Strategy

What the comparison comes to is said once, for all values (`Json.same_int_iff`).  Which of the
messages that were read answers is known from `Waited` and `Called`.
-/

namespace LanguageClient

/-! ## Values that count as an integer -/

namespace Json

/-- The values that count as the integer `n`. -/
inductive CountsAs (n : Int) : Json → Prop where
  | int : CountsAs n (int n)
  | bool {b : Bool} (hb : (if b then 1 else 0) = n) : CountsAs n (bool b)
  | float {x : Binary64} (hx : x.extended? = some (.ofInt n)) : CountsAs n (float x)

theorem same_int_iff {v : Json} {n : Int} : v.same (int n) = true ↔ v.CountsAs n := by
  constructor
  · intro h
    have hplace := extended?_of_same h
    cases v with
    | int k =>
        obtain rfl := Binary64.Extended.ofInt_injective (Option.some.inj hplace)
        exact .int
    | bool b => exact .bool (Binary64.Extended.ofInt_injective (Option.some.inj hplace))
    | float x => exact .float hplace
    | null | str | arr | obj => cases hplace
  · intro h
    cases h with
    | int => simp [same, extended?]
    | bool hb => simp [same, extended?, hb]
    | float hx => simp [same, extended?, hx]

end Json

namespace Connection

variable {σ : Type}

/-- The message is a response, and its id counts as the integer. -/
theorem answers_int_iff {n : Int} {m : Members} :
    Answers (.int n) m ↔ m.has "method" = false ∧ ∃ v, m.get? "id" = some v ∧ v.CountsAs n := by
  refine and_congr_right fun _ => ?_
  rw [Json.same_int_iff, responseId]
  cases hget : m.get? "id" with
  | some v => simp
  | none =>
      -- in the place of a missing id stands `null`, which is no number
      constructor
      · intro h
        cases h
      · rintro ⟨_, h, -⟩
        cases h

/-- Messages were read from `c` to `c'`, and the result is one of them if and only if this one is a
response whose id counts as the integer. -/
def AnsweredBy (n : Int) (c : Connection σ) (result : ReadResult) (c' : Connection σ) : Prop :=
  ∃ read, c'.received = c.received ++ read ∧ ∀ m, result = .ok m ↔
    m ∈ read ∧ m.has "method" = false ∧ ∃ v, m.get? "id" = some v ∧ v.CountsAs n

variable [Peer σ]

/-- A request that is made once is one that is repeated no further. -/
theorem call_eq (id : Json) (method : Text) (params : Json) (c : Connection σ) :
    call id method params c = callRepeatedly 1 id method params c := by
  unfold callRepeatedly
  rcases hcall : call id method params c with ⟨(e | f) | m, c'⟩
  · rw [Attempt.bind_of_ok (Attempt.outcome_of_failed hcall)]
    rfl
  · rw [Attempt.bind_of_error (Attempt.outcome_of_faulted hcall)]
  · rw [Attempt.bind_of_ok (Attempt.outcome_of_ok hcall)]
    rfl

omit [Peer σ] in
theorem Called.answeredBy {n : Int} {method : Text} {params : Json} {c c' : Connection (Watched σ)}
    {result : ReadResult} {outcome : WriteOutcome} {t : Traffic}
    (h : Called (.int n) method params c result c' outcome t) : AnsweredBy n c result c' := by
  refine ⟨t.read, ?_, fun m => by rw [h.ok_iff, answers_int_iff]⟩
  rw [h.carries.received_eq, Traffic.read_append]
  rfl

end Connection

namespace Client

open LanguageClient.Connection

variable {σ : Type} [Peer σ]

/-- A response that has a truth value for an id. -/
def truthful : Members := [("id", .bool true), ("result", .null)]

theorem plain_truthful : (Json.obj truthful).Plain := by
  refine .obj (by decide) (by decide +kernel) ?_
  simp only [truthful, List.forall_mem_cons]
  exact ⟨.bool true, .null, List.forall_mem_nil _⟩

theorem short_truthful : (Frame.frameOf truthful).length ≤ readLimit := by decide +kernel

end Client

end LanguageClient
