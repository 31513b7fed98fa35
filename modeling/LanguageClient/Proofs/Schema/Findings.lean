import LanguageClient.Proofs.Schema.Admission

/-!
# Reported findings are offences

The check of a shape collects all violations of its schema and reports one of them.  What it reports
is true of the document: the path of the finding leads from the root to a part of the document, and
this part breaks a constraint that the schema states for it (`Shape.check_reports_offence`).

## Strategy

An offence (`Offence`) is said without the search: a walk that goes down document and schema
together, and a constraint at its end.  A walk enters a branch of a choice only where no branch
admits the value, so whoever offends against a schema does not have it.

Each collected violation comes down to an offence (`violations_traced`).  The induction follows the
schema.  A violation of a choice is the only one that can come down to another one, and its closest
branch starts from an empty path, so the walk goes on in this branch:

* wrong kind, missing member, bound: the violation itself, at the end of the path;
* a violation below a member or an item: one step in front of what the part's violation comes
  down to;
* a choice with a closest branch: the path of the choice, then what the branch comes down to;
* a choice without one: the choice itself.
-/

namespace LanguageClient

namespace Schema

/-! ## Constraints -/

/-- What a schema can ask of the value it is for. -/
inductive Constraint where
  | ofKind (kinds : List Kind)
  | hasMember (name : Text)
  | atLeast (bound : Int)
  | atMost (bound : Int)
  | oneOf (branches : List Schema)

namespace Constraint

/-- What is wrong with a value that breaks the constraint. -/
def problem : Constraint → Problem
  | ofKind kinds => .wrongKind kinds
  | hasMember name => .missing name
  | atLeast bound => .tooSmall bound
  | atMost bound => .tooLarge bound
  | oneOf _ => .noBranch

/-- The value breaks the constraint. -/
def BrokenBy : Constraint → Json → Prop
  | ofKind kinds, v => ∀ kind ∈ kinds, kind.admits v = false
  | hasMember name, v => ∃ members, v = .obj members ∧ Members.has members name = false
  | atLeast bound, v => ∃ x, v.number? = some x ∧ x.lt (.ofInt bound) = true
  | atMost bound, v => ∃ x, v.number? = some x ∧ Binary64.Extended.lt (.ofInt bound) x = true
  | oneOf branches, v => ∀ branch ∈ branches, branch.admits v = false

end Constraint

/-- The schema itself asks for the constraint, and not a schema inside it. -/
inductive Demands : Schema → Constraint → Prop where
  | ofKind {kinds : List Kind} {rules : List Rule} (hsome : kinds ≠ []) :
      Demands (.mk kinds rules) (.ofKind kinds)
  | hasMember {kinds : List Kind} {rules : List Rule} {names : List Text} {name : Text}
      (hrule : .required names ∈ rules) (hname : name ∈ names) :
      Demands (.mk kinds rules) (.hasMember name)
  | atLeast {kinds : List Kind} {rules : List Rule} {bound : Int} (hrule : .minimum bound ∈ rules) :
      Demands (.mk kinds rules) (.atLeast bound)
  | atMost {kinds : List Kind} {rules : List Rule} {bound : Int} (hrule : .maximum bound ∈ rules) :
      Demands (.mk kinds rules) (.atMost bound)
  | oneOf {kinds : List Kind} {rules : List Rule} {branches : List Schema}
      (hrule : .anyOf branches ∈ rules) : Demands (.mk kinds rules) (.oneOf branches)

/-! ## Walks -/

/-- The steps lead from a value to a part of it, and from its schema to a schema for this part.  A
branch of a choice is entered only where none of the branches admits the value. -/
inductive Walks : Schema → Json → List Step → Schema → Json → Prop where
  | here {schema : Schema} {v : Json} : Walks schema v [] schema v
  | member {kinds : List Kind} {rules : List Rule} {name : Text} {schema sub : Schema}
      {v part w : Json} {path : List Step} (hrule : .property name schema ∈ rules)
      (hpart : v.member? name = some part) (rest : Walks schema part path sub w) :
      Walks (.mk kinds rules) v (.member name :: path) sub w
  | item {kinds : List Kind} {rules : List Rule} {parts : List Json} {i : Nat}
      {schema sub : Schema} {part w : Json} {path : List Step} (hrule : .items schema ∈ rules)
      (hpart : parts[i]? = some part) (rest : Walks schema part path sub w) :
      Walks (.mk kinds rules) (.arr parts) (.item i :: path) sub w
  | branch {kinds : List Kind} {rules : List Rule} {branches : List Schema} {schema sub : Schema}
      {v w : Json} {path : List Step} (hrule : .anyOf branches ∈ rules)
      (hbranch : schema ∈ branches) (hnone : ∀ b ∈ branches, b.admits v = false)
      (rest : Walks schema v path sub w) : Walks (.mk kinds rules) v path sub w

/-- The part of a value that a step leads to. -/
def Step.part? : Step → Json → Option Json
  | member name, v => v.member? name
  | item i, .arr parts => parts[i]?
  | item _, _ => none

/-- The part of a value that a path leads to. -/
def part? : List Step → Json → Option Json
  | [], v => some v
  | step :: rest, v => (step.part? v).bind (part? rest)

/-- At the end of the path stands the value, and it breaks a constraint that the schema states for
it there. -/
def Offence (schema : Schema) (v : Json) (finding : Finding) : Prop :=
  ∃ sub constraint, Walks schema v finding.path sub finding.value ∧ Demands sub constraint ∧
    constraint.BrokenBy finding.value ∧ finding.problem = constraint.problem

variable {schema sub : Schema} {constraint : Constraint} {v w : Json} {path : List Step}
  {finding : Finding}

/-- A walk follows a path of the document. -/
theorem Walks.part?_eq (h : Walks schema v path sub w) : part? path v = some w := by
  induction h with
  | here => rfl
  | member _ hpart _ ih => rw [part?, Step.part?, hpart, Option.bind_some, ih]
  | item _ hpart _ ih => rw [part?, Step.part?, hpart, Option.bind_some, ih]
  | branch _ _ _ _ ih => exact ih

/-! ## Offences refuse -/

theorem admits_mk_eq_false_of_rule {kinds : List Kind} {rules : List Rule} {rule : Rule}
    (hrule : rule ∈ rules) (h : rule.holds v = false) : (mk kinds rules).admits v = false := by
  rw [Bool.eq_false_iff, ← admitsIn_wide]
  intro hadmits
  have hholds := (admitsIn_mk_iff.mp hadmits).2 rule hrule
  rw [Rule.holdsIn_wide, h] at hholds
  cases hholds

theorem oneAdmits_eq_false_iff {branches : List Schema} :
    oneAdmits branches v = false ↔ ∀ branch ∈ branches, branch.admits v = false := by
  induction branches with
  | nil => simp [oneAdmits]
  | cons branch rest ih => simp [oneAdmits, ih]

/-- What breaks a constraint of a schema does not have the schema. -/
theorem Demands.refuses (h : Demands schema constraint) (hbroken : constraint.BrokenBy v) :
    schema.admits v = false := by
  cases h with
  | @ofKind kinds _ hsome =>
      have hkinds : kinds.any (·.admits v) = false := by
        simpa [List.any_eq_false, Constraint.BrokenBy] using hbroken
      simp [admits, hkinds, hsome]
  | @hasMember _ _ names name hrule hname =>
      obtain ⟨members, rfl, hmissing⟩ := hbroken
      refine admits_mk_eq_false_of_rule hrule ?_
      rw [Rule.holds, List.all_eq_false]
      exact ⟨name, hname, by simp [hmissing]⟩
  | atLeast hrule =>
      obtain ⟨x, hx, hlt⟩ := hbroken
      exact admits_mk_eq_false_of_rule hrule (by simp [Rule.holds, hx, hlt])
  | atMost hrule =>
      obtain ⟨x, hx, hlt⟩ := hbroken
      exact admits_mk_eq_false_of_rule hrule (by simp [Rule.holds, hx, hlt])
  | oneOf hrule => exact admits_mk_eq_false_of_rule hrule (oneAdmits_eq_false_iff.mpr hbroken)

/-- A part without its schema is passed on to the whole. -/
theorem Walks.refuses (h : Walks schema v path sub w) (hend : sub.admits w = false) :
    schema.admits v = false := by
  induction h with
  | here => exact hend
  | member hrule hpart _ ih =>
      refine admits_mk_eq_false_of_rule hrule ?_
      rw [Rule.holds, hpart]
      exact ih hend
  | item hrule hpart _ ih =>
      refine admits_mk_eq_false_of_rule hrule ?_
      rw [Rule.holds, List.all_eq_false]
      exact ⟨_, List.mem_of_getElem? hpart, by simp [ih hend]⟩
  | branch hrule _ hnone _ _ =>
      exact admits_mk_eq_false_of_rule hrule (oneAdmits_eq_false_iff.mpr hnone)

theorem Offence.refuses (h : Offence schema v finding) : schema.admits v = false := by
  obtain ⟨sub, constraint, hwalk, hdemands, hbroken, -⟩ := h
  exact hwalk.refuses (hdemands.refuses hbroken)

/-! ## Violations come down to offences -/

/-- The violation, found below a path, comes down to an offence of the value there. -/
def Traced (schema : Schema) (path : List Step) (v : Json) (x : Violation) : Prop :=
  ∃ rest, x.finding.path = path ++ rest ∧ Offence schema v { x.finding with path := rest }

section

variable {kinds : List Kind} {rules : List Rule} {x : Violation}

/-- A violation without branches is the offence itself. -/
theorem traced_of_broken (constraint : Constraint) {fits : Bool}
    (hdemands : Demands schema constraint) (hbroken : constraint.BrokenBy v) :
    Traced schema path v (.mk path constraint.problem v fits []) :=
  ⟨[], (List.append_nil path).symm, schema, constraint, .here, hdemands, hbroken, rfl⟩

theorem Traced.member {name : Text} {part : Json} (hrule : .property name schema ∈ rules)
    (hpart : v.member? name = some part) (h : Traced schema (path ++ [.member name]) part x) :
    Traced (.mk kinds rules) path v x := by
  obtain ⟨rest, hpath, sub, constraint, hwalk, hend⟩ := h
  exact ⟨.member name :: rest, by simpa using hpath, sub, constraint,
    .member hrule hpart hwalk, hend⟩

theorem Traced.item {i : Nat} {parts : List Json} {part : Json} (hrule : .items schema ∈ rules)
    (hpart : parts[i]? = some part) (h : Traced schema (path ++ [.item i]) part x) :
    Traced (.mk kinds rules) path (.arr parts) x := by
  obtain ⟨rest, hpath, sub, constraint, hwalk, hend⟩ := h
  exact ⟨.item i :: rest, by simpa using hpath, sub, constraint, .item hrule hpart hwalk, hend⟩

theorem Violation.mem_findings {found : List Violation} {p : Relevance × Finding}
    (h : p ∈ findings found) : ∃ x ∈ found, p = (x.relevance, x.finding) := by
  induction found with
  | nil => cases h
  | cons first rest ih =>
      rcases List.mem_cons.mp h with rfl | h
      · exact ⟨first, List.mem_cons_self, rfl⟩
      · obtain ⟨x, hx, rfl⟩ := ih h
        exact ⟨x, List.mem_cons_of_mem _ hx, rfl⟩

/-- A choice that keeps the better of two ends with one of the elements. -/
theorem foldl_mem {α : Type} (better : α → α → Bool) (list : List α) (first : α) :
    list.foldl (fun best a => if better best a then a else best) first ∈ first :: list := by
  induction list generalizing first with
  | nil => exact List.mem_singleton_self first
  | cons a list ih =>
      rw [List.foldl_cons]
      split
      · exact List.mem_cons_of_mem _ (ih a)
      · rcases List.mem_cons.mp (ih first) with heq | hmem
        · exact List.mem_cons.mpr (Or.inl heq)
        · exact List.mem_cons_of_mem _ (List.mem_cons_of_mem _ hmem)

theorem Violation.mem_of_least? {found : List (Relevance × Finding)} {finding : Finding}
    (h : least? found = some finding) : ∃ relevance, (relevance, finding) ∈ found := by
  cases found with
  | nil => cases h
  | cons first rest =>
      rw [least?] at h
      split at h
      · have hmem := foldl_mem (fun best v => (v.1.compare best.1).isLT) rest first
        obtain rfl := Option.some.inj h
        exact ⟨_, hmem⟩
      · cases h

/-- A violation of a choice is the offence itself, or that of one of the branches. -/
theorem traced_of_branches {branches : List Schema} {fits : Bool} {found : List Violation}
    (hrule : .anyOf branches ∈ rules) (hnone : ∀ branch ∈ branches, branch.admits v = false)
    (h : ∀ x ∈ found, ∃ branch ∈ branches, Traced branch [] v x) :
    Traced (.mk kinds rules) path v (.mk path .noBranch v fits found) := by
  unfold Traced
  rw [Violation.finding]
  cases hleast : Violation.least? (Violation.findings found) with
  | none =>
      exact ⟨[], (List.append_nil path).symm, _, _, .here, .oneOf hrule, hnone, rfl⟩
  | some inner =>
      obtain ⟨relevance, hmem⟩ := Violation.mem_of_least? hleast
      obtain ⟨x, hx, heq⟩ := Violation.mem_findings hmem
      obtain rfl : inner = x.finding := congrArg Prod.snd heq
      obtain ⟨branch, hbranch, rest, hpath, sub, constraint, hwalk, hend⟩ := h x hx
      obtain rfl : x.finding.path = rest := hpath
      exact ⟨_, rfl, sub, constraint, .branch hrule hbranch hnone hwalk, hend⟩

end

mutual

/-- **Every violation that is collected comes down to an offence.** -/
theorem violations_traced (schema : Schema) (path : List Step) (v : Json) :
    ∀ x ∈ violations schema path v, Traced schema path v x := by
  obtain ⟨kinds, rules⟩ := schema
  intro x hx
  rw [violations] at hx
  rcases List.mem_append.mp hx with hx | hx
  · split at hx
    · cases hx
    · rename_i hkinds
      obtain rfl := List.mem_singleton.mp hx
      simp only [Bool.or_eq_true, List.isEmpty_iff, List.any_eq_true, not_or, not_exists,
        not_and, Bool.not_eq_true] at hkinds
      exact traced_of_broken (.ofKind kinds) (.ofKind hkinds.1) hkinds.2
  · exact allRuleViolations_traced rules (fun _ h => h) path v x hx

theorem ruleViolations_traced {kinds : List Kind} {rules : List Rule} (rule : Rule)
    (hrule : rule ∈ rules) {fits : Bool} (path : List Step) (v : Json) :
    ∀ x ∈ ruleViolations rule fits path v, Traced (.mk kinds rules) path v x := by
  intro x hx
  cases rule with
  | required names =>
      cases v with
      | obj members =>
          obtain ⟨name, hname, rfl⟩ := List.mem_map.mp hx
          rw [List.mem_filter, Bool.not_eq_true'] at hname
          exact traced_of_broken (.hasMember name) (.hasMember hrule hname.1)
            ⟨members, rfl, hname.2⟩
      | _ => cases hx
  | property name schema =>
      rw [ruleViolations] at hx
      cases hpart : v.member? name with
      | none =>
          rw [hpart] at hx
          cases hx
      | some part =>
          rw [hpart] at hx
          exact .member hrule hpart (violations_traced schema _ part x hx)
  | minimum bound =>
      rw [ruleViolations] at hx
      split at hx
      · rename_i hbound
        obtain rfl := List.mem_singleton.mp hx
        exact traced_of_broken (.atLeast bound) (.atLeast hrule)
          ((Option.any_eq_true ..).mp hbound)
      · cases hx
  | maximum bound =>
      rw [ruleViolations] at hx
      split at hx
      · rename_i hbound
        obtain rfl := List.mem_singleton.mp hx
        exact traced_of_broken (.atMost bound) (.atMost hrule)
          ((Option.any_eq_true ..).mp hbound)
      · cases hx
  | items schema =>
      cases v with
      | arr parts =>
          obtain ⟨⟨part, i⟩, hpart, hx⟩ := List.mem_flatMap.mp hx
          exact .item hrule (List.mk_mem_zipIdx_iff_getElem?.mp hpart)
            (violations_traced schema _ part x hx)
      | _ => cases hx
  | anyOf branches =>
      rw [ruleViolations, branchViolations_any] at hx
      cases hadmits : oneAdmits branches v with
      | true =>
          rw [hadmits, if_pos rfl] at hx
          cases hx
      | false =>
          rw [hadmits, if_neg Bool.false_ne_true] at hx
          obtain rfl := List.mem_singleton.mp hx
          exact traced_of_branches hrule (oneAdmits_eq_false_iff.mp hadmits)
            (branchViolations_traced branches v)

theorem allRuleViolations_traced {kinds : List Kind} {rules : List Rule} (part : List Rule)
    (hpart : ∀ rule ∈ part, rule ∈ rules) {fits : Bool} (path : List Step) (v : Json) :
    ∀ x ∈ allRuleViolations part fits path v, Traced (.mk kinds rules) path v x := by
  cases part with
  | nil => exact nofun
  | cons rule rest =>
      intro x hx
      rcases List.mem_append.mp hx with hx | hx
      · exact ruleViolations_traced rule (hpart rule List.mem_cons_self) path v x hx
      · exact allRuleViolations_traced rest (fun r hr => hpart r (List.mem_cons_of_mem _ hr))
          path v x hx

theorem branchViolations_traced (branches : List Schema) (v : Json) :
    ∀ x ∈ (branchViolations branches v).flatten, ∃ branch ∈ branches, Traced branch [] v x := by
  cases branches with
  | nil => exact nofun
  | cons branch rest =>
      intro x hx
      rw [branchViolations, List.flatten_cons] at hx
      rcases List.mem_append.mp hx with hx | hx
      · exact ⟨branch, List.mem_cons_self, violations_traced branch [] v x hx⟩
      · obtain ⟨other, hother, htraced⟩ := branchViolations_traced rest v x hx
        exact ⟨other, List.mem_cons_of_mem _ hother, htraced⟩

end

/-- What is reported is one of the collected violations, and with it an offence. -/
theorem find?_offence (h : find? schema v = some finding) : Offence schema v finding := by
  obtain ⟨x, hx, rfl⟩ := Option.map_eq_some_iff.mp h
  have hmem : x ∈ violations schema [] v := by
    cases hfound : violations schema [] v with
    | nil =>
        rw [hfound] at hx
        cases hx
    | cons first rest =>
        rw [hfound, Violation.mostRelevant?] at hx
        obtain rfl := Option.some.inj hx
        exact foldl_mem (fun best y => (best.relevance.compare y.relevance).isLT) rest first
  obtain ⟨rest, hpath, hoffence⟩ := violations_traced schema [] v x hmem
  rw [List.nil_append] at hpath
  rwa [← hpath] at hoffence

/-- **A value lacks a schema exactly if it offends against it somewhere.** -/
theorem admits_eq_false_iff_offence (schema : Schema) (v : Json) :
    schema.admits v = false ↔ ∃ finding, Offence schema v finding := by
  constructor
  · intro hrefuses
    cases hfound : find? schema v with
    | none =>
        rw [(find?_eq_none_iff schema v).mp hfound] at hrefuses
        cases hrefuses
    | some finding => exact ⟨finding, find?_offence hfound⟩
  · rintro ⟨finding, hoffence⟩
    exact hoffence.refuses

/-! ## Named steps -/

mutual

/-- All members that the schema speaks of have a name. -/
def named : Schema → Bool
  | .mk _ rules => allRulesNamed rules

def ruleNamed : Rule → Bool
  | .property name schema => !name.isEmpty && named schema
  | .items schema => named schema
  | .anyOf branches => allNamed branches
  | _ => true

def allRulesNamed : List Rule → Bool
  | [] => true
  | rule :: rest => ruleNamed rule && allRulesNamed rest

def allNamed : List Schema → Bool
  | [] => true
  | schema :: rest => named schema && allNamed rest

end

theorem ruleNamed_of_mem {rules : List Rule} (h : allRulesNamed rules = true) {rule : Rule}
    (hrule : rule ∈ rules) : ruleNamed rule = true := by
  induction rules with
  | nil => cases hrule
  | cons first rest ih =>
      obtain ⟨hfirst, hrest⟩ := (Bool.and_eq_true _ _).mp h
      rcases List.mem_cons.mp hrule with rfl | hrule
      · exact hfirst
      · exact ih hrest hrule

theorem named_of_mem {branches : List Schema} (h : allNamed branches = true)
    (hschema : schema ∈ branches) : named schema = true := by
  induction branches with
  | nil => cases hschema
  | cons first rest ih =>
      obtain ⟨hfirst, hrest⟩ := (Bool.and_eq_true _ _).mp h
      rcases List.mem_cons.mp hschema with rfl | hschema
      · exact hfirst
      · exact ih hrest hschema

theorem Step.text_item_ne_nil (i : Nat) : (Step.item i).text ≠ [] := by
  rw [Step.text, Text.ofNat, Text.ofChars]
  simp [Nat.toDigits_ne_nil]

/-- Where all members have a name, no step of a walk is written as nothing. -/
theorem Walks.text_ne_nil (h : Walks schema v path sub w) (hnamed : schema.named = true) :
    ∀ step ∈ path, step.text ≠ [] := by
  induction h with
  | here => exact nofun
  | member hrule _ _ ih =>
      obtain ⟨hname, hrest⟩ := (Bool.and_eq_true _ _).mp (ruleNamed_of_mem hnamed hrule)
      refine List.forall_mem_cons.mpr ⟨?_, ih hrest⟩
      rw [Step.text]
      simpa using hname
  | item hrule _ _ ih =>
      exact List.forall_mem_cons.mpr
        ⟨Step.text_item_ne_nil _, ih (ruleNamed_of_mem hnamed hrule)⟩
  | branch hrule hbranch _ _ ih => exact ih (named_of_mem (ruleNamed_of_mem hnamed hrule) hbranch)

/-- A path in a message. -/
def place (path : List Step) : Text :=
  if path = [] then "<root>" else Text.join "/" (path.map Step.text)

end Schema

/-! ## The report of a check -/

theorem Shape.named (shape : Shape) : shape.schema.named = true := by
  cases shape <;> rfl

/-- The message names the shape, the place and the problem there.  Only the empty path is written
as the root. -/
theorem ShapeError.message_eq {e : ShapeError}
    (h : ∀ step ∈ e.finding.path, step.text ≠ []) :
    e.message = e.shape.name ++ ": " ++ Schema.place e.finding.path ++ ": " ++
      e.finding.problem.message e.finding.value := by
  obtain ⟨shape, path, problem, value⟩ := e
  rw [message, Schema.place]
  cases path with
  | nil => rfl
  | cons step rest =>
      have hjoin : Text.join "/" ((step :: rest).map Schema.Step.text) ≠ [] := by
        simp [Text.join, h step List.mem_cons_self]
      rw [if_neg (List.cons_ne_nil step rest)]
      split
      · contradiction
      · rfl

/-- **A refused document is told where it offends.**  The check of a shape accepts what its schema
admits and reports nothing then.  All else it refuses with one finding: its path leads through the
members and items of the document to the value it speaks of, this value breaks the very constraint
that the message words, and the schema asks for this constraint at that path. -/
theorem Shape.check_reports_offence (shape : Shape) (document : Json) :
    shape.check document = .ok () ∧ shape.schema.admits document = true ∨
      ∃ finding, shape.check document = .error ⟨shape, finding⟩ ∧
        shape.schema.admits document = false ∧
        Schema.part? finding.path document = some finding.value ∧
        Schema.Offence shape.schema document finding ∧
        ShapeError.message ⟨shape, finding⟩ = shape.name ++ ": " ++ Schema.place finding.path ++
          ": " ++ finding.problem.message finding.value := by
  rcases shape.check_cases document with haccepted | ⟨finding, hcheck, hrefused⟩
  · exact Or.inl haccepted
  · have hfound : Schema.find? shape.schema document = some finding := by
      rw [check] at hcheck
      split at hcheck
      · cases hcheck
      · cases hcheck
        assumption
    obtain ⟨sub, constraint, hwalk, -⟩ := Schema.find?_offence hfound
    exact Or.inr ⟨finding, hcheck, hrefused, hwalk.part?_eq, Schema.find?_offence hfound,
      ShapeError.message_eq (hwalk.text_ne_nil shape.named)⟩

/-- A choice is gone into as long as one branch is the closest: a line below zero is found inside
the optional range of a hover. -/
example :
    (Shape.hover.check (.obj [(Text.ofString "contents", .str []),
      (Text.ofString "range", .obj [
        (Text.ofString "start", .obj [
          (Text.ofString "line", .int (-1)), (Text.ofString "character", .int 0)]),
        (Text.ofString "end", .obj [
          (Text.ofString "line", .int 0), (Text.ofString "character", .int 0)])])])).mapError
      ShapeError.message = .error (Text.ofString
        "Hover: range/start/line: -1 is less than the minimum of 0") := by
  decide +kernel

end LanguageClient
