import LanguageClient.Proofs.Json.Members
import LanguageClient.Proofs.Number.Place

/-!
# Admission and violations

A value has a schema exactly if nothing in it violates the schema (`violations_eq_nil_iff`), so the
check of a shape accepts just the documents that its schema admits (`Shape.check_cases`).

A schema leaves open what an integer is.  In the wide sense, that of the checks, a double without a
fraction is one; in the narrow sense only a number that is written as an integer is.  `admitsIn`
reads a schema in either sense.

## Strategy

Both readings of a schema follow its structure, and so do the inductions.  The equations for
records, choices and lists at the end say what a schema admits without its rules.
-/

namespace LanguageClient

/-! ## Integers -/

/-- What counts as an integer. -/
inductive Sense where
  /-- Numbers that are written as integers. -/
  | narrow
  /-- These, and doubles without a fraction. -/
  | wide

/-- The integer that a value is. -/
def Sense.integer? : Sense → Json → Option Int
  | _, .int n => some n
  | .wide, .float x => x.toInt?
  | _, _ => none

namespace Sense

variable {sense : Sense} {v : Json} {n : Int}

theorem integer?_narrow_iff : Sense.narrow.integer? v = some n ↔ v = .int n := by
  cases v with
  | int m => simp [integer?]
  | _ => simp [integer?]

/-- The integer lies where the value does. -/
theorem number?_of_integer? (h : sense.integer? v = some n) : v.number? = some (.ofInt n) := by
  cases v with
  | int m =>
      obtain rfl : m = n := Option.some.inj h
      rfl
  | float x =>
      cases sense with
      | narrow => cases h
      | wide => exact Binary64.toInt?_eq_some_iff.mp h
  | _ => cases sense <;> cases h

theorem wide_of_integer? (h : sense.integer? v = some n) : Sense.wide.integer? v = some n := by
  cases sense with
  | wide => exact h
  | narrow =>
      rw [integer?_narrow_iff] at h
      rw [h]
      rfl

end Sense

/-- The value is of the kind, with integers in a sense. -/
def Kind.admitsIn (sense : Sense) : Kind → Json → Bool
  | integer, v => (sense.integer? v).isSome
  | kind, v => kind.admits v

mutual

/-- The value has the schema, with integers in a sense. -/
def Schema.admitsIn (sense : Sense) : Schema → Json → Bool
  | .mk kinds rules, v =>
    (kinds.isEmpty || kinds.any (·.admitsIn sense v)) && Rule.allHoldIn sense rules v

def Rule.holdsIn (sense : Sense) : Rule → Json → Bool
  | .property name schema, v =>
    match v.member? name with
    | some part => schema.admitsIn sense part
    | none => true
  | .items schema, v =>
    match v with
    | .arr parts => parts.all fun part => schema.admitsIn sense part
    | _ => true
  | .anyOf branches, v => Schema.oneAdmitsIn sense branches v
  | .required names, v => (Rule.required names).holds v
  | .minimum bound, v => (Rule.minimum bound).holds v
  | .maximum bound, v => (Rule.maximum bound).holds v

def Rule.allHoldIn (sense : Sense) : List Rule → Json → Bool
  | [], _ => true
  | rule :: rest, v => rule.holdsIn sense v && Rule.allHoldIn sense rest v

def Schema.oneAdmitsIn (sense : Sense) : List Schema → Json → Bool
  | [], _ => false
  | schema :: rest, v => schema.admitsIn sense v || Schema.oneAdmitsIn sense rest v

end

theorem Kind.admitsIn_wide (kind : Kind) (v : Json) : kind.admitsIn .wide v = kind.admits v := by
  cases kind with
  | integer => cases v <;> rfl
  | _ => rfl

mutual

/-- The checks take integers in the wide sense. -/
theorem Schema.admitsIn_wide (schema : Schema) (v : Json) :
    schema.admitsIn .wide v = schema.admits v := by
  obtain ⟨kinds, rules⟩ := schema
  simp only [Schema.admitsIn, Schema.admits, Kind.admitsIn_wide, Rule.allHoldIn_wide rules v]

theorem Rule.holdsIn_wide (rule : Rule) (v : Json) : rule.holdsIn .wide v = rule.holds v := by
  cases rule with
  | property name schema =>
      simp only [Rule.holdsIn, Rule.holds]
      cases v.member? name with
      | none => rfl
      | some part => exact Schema.admitsIn_wide schema part
  | items schema =>
      cases v with
      | arr parts => simp only [Rule.holdsIn, Rule.holds, Schema.admitsIn_wide schema]
      | _ => rfl
  | anyOf branches => exact Schema.oneAdmitsIn_wide branches v
  | _ => rfl

theorem Rule.allHoldIn_wide (rules : List Rule) (v : Json) :
    Rule.allHoldIn .wide rules v = Rule.allHold rules v := by
  cases rules with
  | nil => rfl
  | cons rule rest =>
      simp only [Rule.allHoldIn, Rule.allHold, Rule.holdsIn_wide rule v, Rule.allHoldIn_wide rest v]

theorem Schema.oneAdmitsIn_wide (branches : List Schema) (v : Json) :
    Schema.oneAdmitsIn .wide branches v = Schema.oneAdmits branches v := by
  cases branches with
  | nil => rfl
  | cons schema rest =>
      simp only [Schema.oneAdmitsIn, Schema.oneAdmits, Schema.admitsIn_wide schema v,
        Schema.oneAdmitsIn_wide rest v]

end

/-! ## Violations -/

namespace Schema

theorem ruleViolations_required {names : List Text} {fits : Bool} {path : List Step} {v : Json} :
    ruleViolations (.required names) fits path v = [] ↔ (Rule.required names).holds v = true := by
  cases v <;> simp [ruleViolations, Rule.holds]

mutual

/-- **A value has a schema if and only if it violates nothing in it.** -/
theorem violations_eq_nil_iff (schema : Schema) (path : List Step) (v : Json) :
    violations schema path v = [] ↔ schema.admits v = true := by
  obtain ⟨kinds, rules⟩ := schema
  simp only [violations, Schema.admits, List.append_eq_nil_iff, Bool.and_eq_true,
    allRuleViolations_eq_nil_iff rules]
  refine and_congr_left fun _ => ?_
  split <;> simp_all

theorem ruleViolations_eq_nil_iff (rule : Rule) (fits : Bool) (path : List Step) (v : Json) :
    ruleViolations rule fits path v = [] ↔ rule.holds v = true := by
  cases rule with
  | required names => exact ruleViolations_required
  | property name schema =>
      simp only [ruleViolations, Rule.holds]
      cases v.member? name with
      | none => simp
      | some part => exact violations_eq_nil_iff schema _ part
  | minimum bound => simp [ruleViolations, Rule.holds]
  | maximum bound => simp [ruleViolations, Rule.holds]
  | items schema =>
      cases v with
      | arr parts =>
          simp only [ruleViolations, Rule.holds, List.flatMap_eq_nil_iff, List.all_eq_true]
          constructor
          · intro h part hmem
            obtain ⟨index, hindex⟩ := List.getElem?_of_mem hmem
            have hnone := h (part, index) (List.mk_mem_zipIdx_iff_getElem?.mpr hindex)
            exact (violations_eq_nil_iff schema _ part).1 hnone
          · rintro h ⟨part, index⟩ hmem
            exact (violations_eq_nil_iff schema _ part).mpr
              (h part (List.fst_mem_of_mem_zipIdx hmem))
      | _ => simp [ruleViolations, Rule.holds]
  | anyOf branches =>
      simp only [ruleViolations, Rule.holds, ← branchViolations_any branches v]
      split <;> simp_all

theorem allRuleViolations_eq_nil_iff (rules : List Rule) (fits : Bool) (path : List Step)
    (v : Json) : allRuleViolations rules fits path v = [] ↔ Rule.allHold rules v = true := by
  cases rules with
  | nil => simp [allRuleViolations, Rule.allHold]
  | cons rule rest =>
      simp only [allRuleViolations, Rule.allHold, List.append_eq_nil_iff, Bool.and_eq_true,
        ruleViolations_eq_nil_iff rule, allRuleViolations_eq_nil_iff rest]

theorem branchViolations_any (branches : List Schema) (v : Json) :
    (branchViolations branches v).any List.isEmpty = Schema.oneAdmits branches v := by
  cases branches with
  | nil => rfl
  | cons branch rest =>
      simp only [branchViolations, Schema.oneAdmits, List.any_cons, branchViolations_any rest v]
      congr 1
      rw [Bool.eq_iff_iff, List.isEmpty_iff, violations_eq_nil_iff branch]

end

theorem mostRelevant?_eq_none_iff {found : List Violation} :
    Violation.mostRelevant? found = none ↔ found = [] := by
  cases found <;> simp [Violation.mostRelevant?]

theorem find?_eq_none_iff (schema : Schema) (v : Json) :
    find? schema v = none ↔ schema.admits v = true := by
  rw [find?, Option.map_eq_none_iff, mostRelevant?_eq_none_iff, violations_eq_nil_iff]

end Schema

/-- **The check of a shape accepts what its schema admits**, and refuses all else by name. -/
theorem Shape.check_cases (shape : Shape) (v : Json) :
    shape.check v = .ok () ∧ shape.schema.admits v = true ∨
      ∃ finding, shape.check v = .error ⟨shape, finding⟩ ∧ shape.schema.admits v = false := by
  have hfind := Schema.find?_eq_none_iff shape.schema v
  unfold check
  cases hfound : Schema.find? shape.schema v with
  | none => exact Or.inl ⟨rfl, hfind.mp hfound⟩
  | some finding =>
      refine Or.inr ⟨finding, rfl, ?_⟩
      rw [Bool.eq_false_iff]
      intro hadmits
      rw [hfind.mpr hadmits] at hfound
      cases hfound

/-! ## What the schemas admit -/

/-- The value is a text. -/
def Json.IsText (v : Json) : Prop := ∃ t, v = .str t

namespace Kind

variable {sense : Sense} {v : Json}

theorem admitsIn_object_iff : object.admitsIn sense v = true ↔ ∃ members, v = .obj members := by
  cases v <;> simp [admitsIn, admits]

theorem admitsIn_array_iff : array.admitsIn sense v = true ↔ ∃ items, v = .arr items := by
  cases v <;> simp [admitsIn, admits]

theorem admitsIn_string_iff : string.admitsIn sense v = true ↔ v.IsText := by
  cases v <;> simp [admitsIn, admits, Json.IsText]

theorem admitsIn_integer_iff :
    integer.admitsIn sense v = true ↔ ∃ n, sense.integer? v = some n := by
  rw [admitsIn, Option.isSome_iff_exists]

theorem admitsIn_null_iff : null.admitsIn sense v = true ↔ v = .null := by
  cases v <;> simp [admitsIn, admits]

end Kind

namespace Rule

variable {sense : Sense} {v : Json} {n : Int}

theorem allHoldIn_iff {rules : List Rule} :
    allHoldIn sense rules v = true ↔ ∀ rule ∈ rules, rule.holdsIn sense v = true := by
  induction rules with
  | nil => simp [allHoldIn]
  | cons rule rest ih => simp [allHoldIn, ih]

theorem holdsIn_required_iff {names : List Text} {members : Members} :
    (required names).holdsIn sense (.obj members) = true ↔
      ∀ name ∈ names, ∃ part, Members.get? members name = some part := by
  simp [holdsIn, holds, Members.has_eq_isSome, Option.isSome_iff_exists]

theorem holdsIn_property_iff {name : Text} {schema : Schema} :
    (property name schema).holdsIn sense v = true ↔
      ∀ part, v.member? name = some part → schema.admitsIn sense part = true := by
  rw [holdsIn]
  cases v.member? name <;> simp

theorem holdsIn_minimum_iff (h : sense.integer? v = some n) {bound : Int} :
    (minimum bound).holdsIn sense v = true ↔ bound ≤ n := by
  simp [holdsIn, holds, Sense.number?_of_integer? h, Binary64.Extended.lt_ofInt]

theorem holdsIn_maximum_iff (h : sense.integer? v = some n) {bound : Int} :
    (maximum bound).holdsIn sense v = true ↔ n ≤ bound := by
  simp [holdsIn, holds, Sense.number?_of_integer? h, Binary64.Extended.lt_ofInt]

end Rule

namespace Schema

variable {sense : Sense} {v : Json}

theorem admitsIn_mk_iff {kinds : List Kind} {rules : List Rule} :
    (mk kinds rules).admitsIn sense v = true ↔
      (kinds = [] ∨ ∃ kind ∈ kinds, kind.admitsIn sense v = true) ∧
        ∀ rule ∈ rules, rule.holdsIn sense v = true := by
  simp [admitsIn, Rule.allHoldIn_iff]

theorem oneAdmitsIn_iff {branches : List Schema} :
    oneAdmitsIn sense branches v = true ↔ ∃ branch ∈ branches, branch.admitsIn sense v = true := by
  induction branches with
  | nil => simp [oneAdmitsIn]
  | cons branch rest ih => simp [oneAdmitsIn, ih]

theorem admitsIn_ofKinds_iff {kind : Kind} {kinds : List Kind} :
    (ofKinds (kind :: kinds)).admitsIn sense v = true ↔
      ∃ k ∈ kind :: kinds, k.admitsIn sense v = true := by
  simp [ofKinds, admitsIn_mk_iff]

theorem admitsIn_choice_iff {branches : List Schema} :
    (choice branches).admitsIn sense v = true ↔
      ∃ branch ∈ branches, branch.admitsIn sense v = true := by
  simp [choice, admitsIn_mk_iff, Rule.holdsIn, oneAdmitsIn_iff]

/-- A record is an object with its required members, and all members have their schemas. -/
theorem admitsIn_record_iff {names : List String} {properties : List (String × Schema)} :
    (record names properties).admitsIn sense v = true ↔
      (∃ members, v = .obj members) ∧
      (∀ name ∈ names, ∃ part, v.member? (Text.ofString name) = some part) ∧
      ∀ p ∈ properties, ∀ part, v.member? (Text.ofString p.1) = some part →
        p.2.admitsIn sense part = true := by
  rw [record, admitsIn_mk_iff]
  simp only [List.forall_mem_cons, List.forall_mem_map, Rule.holdsIn_property_iff]
  have hkind : ([.object] = ([] : List Kind) ∨
      ∃ kind ∈ [Kind.object], kind.admitsIn sense v = true) ↔ ∃ members, v = .obj members := by
    simp [Kind.admitsIn_object_iff]
  rw [hkind]
  refine and_congr_right ?_
  rintro ⟨members, rfl⟩
  refine and_congr_left fun _ => ?_
  rw [Rule.holdsIn_required_iff, List.forall_mem_map]
  rfl

/-- A list is an array whose items have a schema. -/
theorem admitsIn_list_iff {schema : Schema} :
    (mk [.array] [.items schema]).admitsIn sense v = true ↔
      ∃ items, v = .arr items ∧ ∀ item ∈ items, schema.admitsIn sense item = true := by
  cases v <;> simp [admitsIn_mk_iff, Kind.admitsIn_array_iff, Rule.holdsIn]

/-- In the place of an optional list there may be null. -/
theorem admitsIn_optionalList_iff {schema : Schema} :
    (mk [.array, .null] [.items schema]).admitsIn sense v = true ↔
      v = .null ∨ ∃ items, v = .arr items ∧ ∀ item ∈ items, schema.admitsIn sense item = true := by
  cases v <;>
    simp [admitsIn_mk_iff, Kind.admitsIn_array_iff, Kind.admitsIn_null_iff, Rule.holdsIn]

theorem admitsIn_natural_iff :
    natural.admitsIn sense v = true ↔ ∃ n, sense.integer? v = some n ∧ 0 ≤ n := by
  rw [natural, admitsIn_mk_iff]
  simp only [List.mem_singleton, forall_eq, exists_eq_left, List.cons_ne_nil, false_or,
    Kind.admitsIn_integer_iff]
  constructor
  · rintro ⟨⟨n, hn⟩, hbound⟩
    exact ⟨n, hn, (Rule.holdsIn_minimum_iff hn).mp hbound⟩
  · rintro ⟨n, hn, hbound⟩
    exact ⟨⟨n, hn⟩, (Rule.holdsIn_minimum_iff hn).mpr hbound⟩

theorem admitsIn_optionalBetween_iff {low high : Int} :
    (mk [.integer, .null] [.minimum low, .maximum high]).admitsIn sense v = true ↔
      v = .null ∨ ∃ n, sense.integer? v = some n ∧ low ≤ n ∧ n ≤ high := by
  rw [admitsIn_mk_iff]
  simp only [List.forall_mem_cons, List.exists_mem_cons_iff, List.cons_ne_nil, false_or,
    Kind.admitsIn_integer_iff, Kind.admitsIn_null_iff]
  constructor
  · rintro ⟨⟨n, hn⟩ | hnull | hnone, hlow, hhigh, -⟩
    · exact Or.inr ⟨n, hn, (Rule.holdsIn_minimum_iff hn).mp hlow,
        (Rule.holdsIn_maximum_iff hn).mp hhigh⟩
    · exact Or.inl hnull
    · simp at hnone
  · rintro (rfl | ⟨n, hn, hlow, hhigh⟩)
    · exact ⟨Or.inr (Or.inl rfl), rfl, rfl, by simp⟩
    · exact ⟨Or.inl ⟨n, hn⟩, (Rule.holdsIn_minimum_iff hn).mpr hlow,
        (Rule.holdsIn_maximum_iff hn).mpr hhigh, by simp⟩

end Schema

end LanguageClient
