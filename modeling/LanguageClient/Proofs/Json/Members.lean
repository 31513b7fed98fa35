import LanguageClient.Protocol.Inbound
import LanguageClient.Proofs.Stopping

/-!
# Members of a document

What a structure needs of a document is a member that must be there (`required_eq_ok_iff`), or one
that may be missing or null (`Optionally`).
-/

namespace LanguageClient

theorem Members.has_eq_isSome (m : Members) (name : Text) : m.has name = (m.get? name).isSome := by
  rw [Bool.eq_iff_iff, has, get?, Option.isSome_map, List.find?_isSome, List.any_eq_true]

namespace Json

variable {v : Json} {name : Text}

theorem required_eq_ok_iff {part : Json} :
    v.required name = .ok part ↔ v.member? name = some part := by
  cases v with
  | obj members =>
      rw [required, member?]
      cases Members.get? members name <;> simp
  | _ => simp [required, member?]

/-- What an optional member of a document holds: nothing if it is absent or null, and otherwise what
is told of the part. -/
inductive Optionally (v : Json) (name : Text) {α : Type} (IsOf : α → Json → Prop) :
    Option α → Prop where
  | absent (hmember : v.member? name = none) : Optionally v name IsOf none
  | null (hmember : v.member? name = some .null) : Optionally v name IsOf none
  | given {x : α} {part : Json} (hmember : v.member? name = some part) (hnull : part ≠ .null)
      (hpart : IsOf x part) : Optionally v name IsOf (some x)

/-- The member is absent or null, or it is there. -/
theorem optional_cases (v : Json) (name : Text) :
    v.optional name = none ∧ (v.member? name = none ∨ v.member? name = some .null) ∨
      ∃ part, v.optional name = some part ∧ v.member? name = some part ∧ part ≠ .null := by
  unfold optional
  cases v.member? name with
  | none => exact Or.inl ⟨rfl, Or.inl rfl⟩
  | some part =>
      cases part with
      | null => exact Or.inl ⟨rfl, Or.inr rfl⟩
      | _ => exact Or.inr ⟨_, rfl, rfl, by simp⟩

variable {α ε : Type} {IsOf : α → Json → Prop}

theorem optionally_of_none (h : v.member? name = none ∨ v.member? name = some .null)
    {x : Option α} :
    v.Optionally name IsOf x ↔ x = none := by
  constructor
  · intro hx
    cases hx with
    | given hmember hnull =>
        rcases h with h | h
        · rw [h] at hmember
          cases hmember
        · rw [h] at hmember
          exact absurd (Option.some.inj hmember).symm hnull
    | _ => rfl
  · rintro rfl
    exact h.elim .absent .null

theorem optionally_of_some {part : Json} (h : v.member? name = some part) (hnull : part ≠ .null)
    {x : Option α} : v.Optionally name IsOf x ↔ ∃ y, x = some y ∧ IsOf y part := by
  constructor
  · intro hx
    cases hx with
    | absent hmember => simp [hmember] at h
    | null hmember => exact absurd (Option.some.inj (h.symm.trans hmember)) hnull
    | given hmember hnull hpart =>
        rw [Option.some.inj (h.symm.trans hmember)]
        exact ⟨_, rfl, hpart⟩
  · rintro ⟨y, rfl, hpart⟩
    exact .given h hnull hpart

/-- An optional member is read by what reads the part. -/
theorem mapM_optional_eq_ok_iff {read : Json → Except ε α}
    (hread : ∀ part y, read part = .ok y ↔ IsOf y part) {x : Option α} :
    (v.optional name).mapM read = .ok x ↔ v.Optionally name IsOf x := by
  rcases optional_cases v name with ⟨hoptional, hmember⟩ | ⟨part, hoptional, hmember, hnull⟩
  · rw [hoptional, optionally_of_none hmember]
    exact ⟨fun h => (Except.ok.inj h).symm, fun h => congrArg Except.ok h.symm⟩
  · rw [hoptional, optionally_of_some hmember hnull]
    simp only [← hread]
    show (some <$> read part) = .ok x ↔ _
    cases read part <;> simp [eq_comm]

/-- An optional member is taken as it stands. -/
theorem optional_eq_iff {x : Option Json} :
    v.optional name = x ↔ v.Optionally name (fun y part => y = part) x := by
  rcases optional_cases v name with ⟨hoptional, hmember⟩ | ⟨part, hoptional, hmember, hnull⟩
  · rw [hoptional, optionally_of_none hmember, eq_comm]
  · rw [hoptional, optionally_of_some hmember hnull]
    simp [eq_comm]

end Json

end LanguageClient
