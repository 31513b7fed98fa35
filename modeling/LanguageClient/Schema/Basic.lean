import LanguageClient.Json.Basic

/-!
# Schemas

A schema says which JSON values a member of a server message may have: the kinds
of value it admits, and rules about its parts.  A double without a fraction
counts as an integer, and a truth value is never a number.

`Schema.Admits` is what a schema means.  How a violation is found and which one
is reported is in `LanguageClient.Schema.Violation`.
-/

namespace LanguageClient

/-- The kinds of JSON value that a schema can name. -/
inductive Kind where
  | object
  | array
  | string
  | integer
  | null
deriving DecidableEq

namespace Kind

def name : Kind → Text
  | object => "object"
  | array => "array"
  | string => "string"
  | integer => "integer"
  | null => "null"

/-- The value is of the kind. -/
def admits : Kind → Json → Bool
  | object, .obj _ => true
  | array, .arr _ => true
  | string, .str _ => true
  | integer, .int _ => true
  | integer, .float x => x.toInt?.isSome
  | null, .null => true
  | _, _ => false

end Kind

mutual

/-- The admitted kinds, where none named means any, and further rules. -/
inductive Schema where
  | mk (kinds : List Kind) (rules : List Rule)

/-- A rule about a value.  A rule about parts says nothing of values without such parts. -/
inductive Rule where
  /-- An object has members of these names. -/
  | required (names : List Text)
  /-- The member of that name, if there is one, has the schema. -/
  | property (name : Text) (schema : Schema)
  /-- A number is not less than the bound. -/
  | minimum (bound : Int)
  /-- A number is not greater than the bound. -/
  | maximum (bound : Int)
  /-- Every item of an array has the schema. -/
  | items (schema : Schema)
  /-- The value has one of the schemas. -/
  | anyOf (branches : List Schema)

end

/-- The place of a number on the line; truth values are no numbers here. -/
def Json.number? : Json → Option Binary64.Extended
  | .int n => some (.ofInt n)
  | .float x => x.extended?
  | _ => none

mutual

def Schema.admits : Schema → Json → Bool
  | .mk kinds rules, v => (kinds.isEmpty || kinds.any (·.admits v)) && Rule.allHold rules v

def Rule.holds : Rule → Json → Bool
  | .required names, v =>
    match v with
    | .obj members => names.all fun name => Members.has members name
    | _ => true
  | .property name schema, v =>
    match v.member? name with
    | some part => schema.admits part
    | none => true
  | .minimum bound, v => !(v.number?.any fun x => x.lt (.ofInt bound))
  | .maximum bound, v => !(v.number?.any fun x => Binary64.Extended.lt (.ofInt bound) x)
  | .items schema, v =>
    match v with
    | .arr parts => parts.all fun part => schema.admits part
    | _ => true
  | .anyOf branches, v => Schema.oneAdmits branches v

/-- The value keeps all the rules. -/
def Rule.allHold : List Rule → Json → Bool
  | [], _ => true
  | rule :: rest, v => rule.holds v && Rule.allHold rest v

/-- The value has one of the schemas. -/
def Schema.oneAdmits : List Schema → Json → Bool
  | [], _ => false
  | schema :: rest, v => schema.admits v || Schema.oneAdmits rest v

end

end LanguageClient
