import LanguageClient.Schema.Basic

/-!
# Violations of a schema

A value that does not have a schema violates it at one or more places.  All
violations are collected, and one is reported: of the shallowest places the last
one in the order of paths, and below a choice of schemas the branch that came
closest.

## Strategy

A violation of a choice carries the violations of all its branches, with paths
that start where the choice stands.  `Violation.finding` walks down as long as
one branch is clearly the closest; two equally close ones leave the choice
itself as the thing to report.
-/

namespace LanguageClient.Schema

/-- A step from a value to one of its parts. -/
inductive Step where
  | member (name : Text)
  | item (index : Nat)
deriving DecidableEq

/-- The step as a part of a path. -/
def Step.text : Step → Text
  | member name => name
  | item index => Text.ofNat index

/-- What is wrong with a value. -/
inductive Problem where
  | wrongKind (kinds : List Kind)
  | missing (name : Text)
  | tooSmall (bound : Int)
  | tooLarge (bound : Int)
  | noBranch
deriving DecidableEq

/-- The wording of a problem with a value. -/
def Problem.message (value : Json) : Problem → Text
  | wrongKind kinds =>
    value.shown ++ " is not of type " ++
      Text.join ", " (kinds.map fun kind => Quoted.text kind.name)
  | missing name => Quoted.text name ++ " is a required property"
  | tooSmall bound => value.shown ++ " is less than the minimum of " ++ Text.ofInt bound
  | tooLarge bound => value.shown ++ " is greater than the maximum of " ++ Text.ofInt bound
  | noBranch => value.shown ++ " is not valid under any of the given schemas"

/-- A violation: where, what, the value there, whether that value is of a kind that its schema
names, and the violations of the branches when no branch of a choice admits the value. -/
inductive Violation where
  | mk (path : List Step) (problem : Problem) (value : Json) (fits : Bool)
      (branches : List Violation)

/-- A violation as it is reported, with the path from the document's root. -/
structure Finding where
  path : List Step
  problem : Problem
  value : Json

/-! ## Collecting violations -/

mutual

/-- The violations of a schema by a value that stands at a path. -/
def violations : Schema → (path : List Step) → Json → List Violation
  | .mk kinds rules, path, v =>
    let fits := kinds.any (·.admits v)
    (if kinds.isEmpty || fits then [] else [.mk path (.wrongKind kinds) v fits []]) ++
      allRuleViolations rules fits path v

def ruleViolations : Rule → (fits : Bool) → (path : List Step) → Json → List Violation
  | .required names, fits, path, v =>
    match v with
    | .obj members =>
      (names.filter fun name => !Members.has members name).map fun name =>
        .mk path (.missing name) v fits []
    | _ => []
  | .property name schema, _, path, v =>
    match v.member? name with
    | some part => violations schema (path ++ [.member name]) part
    | none => []
  | .minimum bound, fits, path, v =>
    if v.number?.any fun x => x.lt (.ofInt bound) then [.mk path (.tooSmall bound) v fits []] else []
  | .maximum bound, fits, path, v =>
    if v.number?.any fun x => Binary64.Extended.lt (.ofInt bound) x then
      [.mk path (.tooLarge bound) v fits []]
    else []
  | .items schema, _, path, v =>
    match v with
    | .arr parts =>
      parts.zipIdx.flatMap fun (part, index) => violations schema (path ++ [.item index]) part
    | _ => []
  | .anyOf branches, fits, path, v =>
    let found := branchViolations branches v
    if found.any List.isEmpty then [] else [.mk path .noBranch v fits found.flatten]

/-- The violations of several rules, rule by rule. -/
def allRuleViolations : List Rule → (fits : Bool) → (path : List Step) → Json → List Violation
  | [], _, _, _ => []
  | rule :: rest, fits, path, v =>
    ruleViolations rule fits path v ++ allRuleViolations rest fits path v

/-- The violations of every branch of a choice. -/
def branchViolations : List Schema → Json → List (List Violation)
  | [], _ => []
  | branch :: rest, v => violations branch [] v :: branchViolations rest v

end

/-! ## Choosing the violation to report -/

/-- The order of texts by their code points. -/
def compareText : Text → Text → Ordering
  | [], [] => .eq
  | [], _ :: _ => .lt
  | _ :: _, [] => .gt
  | a :: as, b :: bs => (compare a.val b.val).then (compareText as bs)

/-- Names are ordered as texts and indices as numbers. -/
def compareStep : Step → Step → Ordering
  | .member a, .member b => compareText a b
  | .item a, .item b => compare a b
  | .member _, .item _ => .lt
  | .item _, .member _ => .gt

/-- Paths are ordered step by step. -/
def comparePath : List Step → List Step → Ordering
  | [], [] => .eq
  | [], _ :: _ => .lt
  | _ :: _, [] => .gt
  | a :: as, b :: bs => (compareStep a b).then (comparePath as bs)

/-- What decides how relevant a violation is: a short path, then the path, then not being a choice,
then a value of another kind than its schema names. -/
structure Relevance where
  path : List Step
  isChoice : Bool
  fits : Bool
deriving DecidableEq

def Relevance.compare (a b : Relevance) : Ordering :=
  (Ord.compare b.path.length a.path.length).then <|
    (comparePath a.path b.path).then <|
      (Ord.compare (!a.isChoice) (!b.isChoice)).then (Ord.compare (!a.fits) (!b.fits))

namespace Violation

def relevance : Violation → Relevance
  | .mk path problem _ fits _ => ⟨path, problem == .noBranch, fits⟩

/-- The first of the most relevant. -/
def mostRelevant? : List Violation → Option Violation
  | [] => none
  | first :: rest => some <| rest.foldl
      (fun best v => if (best.relevance.compare v.relevance).isLT then v else best) first

/-- The first of the least relevant, unless another one is equally so. -/
def least? (found : List (Relevance × Finding)) : Option Finding :=
  match found with
  | [] => none
  | first :: rest =>
    let least := rest.foldl
      (fun best v => if (v.1.compare best.1).isLT then v else best) first
    if (found.filter (·.1 = least.1)).length = 1 then some least.2 else none

mutual

/-- What a violation comes down to: itself, or what its closest branch comes down to. -/
def finding : Violation → Finding
  | .mk path problem value _ branches =>
    match least? (findings branches) with
    | some inner => { inner with path := path ++ inner.path }
    | none => ⟨path, problem, value⟩

/-- What each of several violations comes down to, with its relevance. -/
def findings : List Violation → List (Relevance × Finding)
  | [] => []
  | v :: rest => (v.relevance, finding v) :: findings rest

end

end Violation

/-- The violation to report, if the value does not have the schema. -/
def find? (schema : Schema) (v : Json) : Option Finding :=
  (Violation.mostRelevant? (violations schema [] v)).map Violation.finding

end LanguageClient.Schema
