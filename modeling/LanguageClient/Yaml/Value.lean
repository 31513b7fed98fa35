import LanguageClient.Json.Basic
import LanguageClient.Number.Reading
import LanguageClient.Yaml.Moment

/-!
# YAML values

What a YAML document says: JSON's values, and besides them bytes, dates, moments,
sets, lists of pairs, and mappings whose keys need not be texts.

A document may contain itself through an alias; there the value holds `enclosing`
instead.
-/

namespace LanguageClient.Yaml

inductive Value where
  | null
  | bool (b : Bool)
  | int (n : Int)
  | float (x : Binary64)
  | str (t : Text)
  | bytes (bytes : Bytes)
  | date (d : Date)
  | moment (m : Moment)
  | list (items : List Value)
  | pairs (entries : List (Value × Value))
  | set (items : List Value)
  | map (entries : List (Value × Value))
  /-- The list or mapping around this place. -/
  | enclosing (isMap : Bool)

namespace Value

instance : Inhabited Value := ⟨null⟩

/-! ## Keys -/

/-- The place of a number or truth value on the line of doubles. -/
def extended? : Value → Option Binary64.Extended
  | bool b => some (.ofInt (if b then 1 else 0))
  | int n => some (.ofInt n)
  | float x => x.extended?
  | _ => none

/-- A value that can be a key. -/
def isKey : Value → Bool
  | list _ | pairs _ | set _ | map _ | enclosing _ => false
  | _ => true

/-- The two keys are one: numbers are compared as numbers. -/
def sameKey (a b : Value) : Bool :=
  match a, b with
  | null, null => true
  | str a, str b => a == b
  | bytes a, bytes b => a == b
  | date a, date b => a == b
  | moment a, moment b => a == b
  | float .nan, float .nan => true
  | a, b =>
    match a.extended?, b.extended? with
    | some a, some b => a == b
    | _, _ => false

def lookup (entries : List (Value × Value)) (key : Value) : Option Value :=
  (entries.find? fun e => e.1.sameKey key).map (·.2)

/-- Sets the value of a key: in its place when the key is known, else at the end. -/
def insert (entries : List (Value × Value)) (key value : Value) : List (Value × Value) :=
  if entries.any fun e => e.1.sameKey key then
    entries.map fun e => if e.1.sameKey key then (e.1, value) else e
  else entries ++ [(key, value)]

/-- The value under a text, in a mapping. -/
def get? (entries : List (Value × Value)) (name : Text) : Option Value := lookup entries (str name)

/-! ## Truth -/

/-- A value that counts as true: not empty, not zero, not `null` and not `false`. -/
def isTruthy : Value → Bool
  | null => false
  | bool b => b
  | int n => n ≠ 0
  | float x => !x.same Binary64.zero
  | str t => !t.isEmpty
  | bytes b => !b.isEmpty
  | date _ | moment _ => true
  | list items => !items.isEmpty
  | pairs entries => !entries.isEmpty
  | set items => !items.isEmpty
  | map entries => !entries.isEmpty
  | enclosing _ => true

/-! ## Showing a value in a message -/

/-- The name of a value's kind. -/
def kindName : Value → Text
  | null => "NoneType"
  | bool _ => "bool"
  | int _ => "int"
  | float _ => "float"
  | str _ => "str"
  | bytes _ => "bytes"
  | date _ => "date"
  | moment _ => "datetime"
  | list _ | pairs _ | enclosing false => "list"
  | set _ => "set"
  | map _ | enclosing true => "dict"

/-- The name of a value's kind with the name of the group that it belongs to. -/
def fullKindName : Value → Text
  | date d => "datetime." ++ (date d).kindName
  | moment m => "datetime." ++ (moment m).kindName
  | v => v.kindName

mutual

/-- The value as messages show it: texts between quotes, `None`, `True` and `False`. -/
def shown : Value → Text
  | null => "None"
  | bool true => "True"
  | bool false => "False"
  | int n => Text.ofInt n
  | float x => Text.ofChars x.render
  | str t => Quoted.text t
  | bytes b => Quoted.bytes b
  | date d => d.shown
  | moment m => m.shown
  | list items => "[" ++ shownItems items ++ Text.ofString "]"
  | pairs entries => "[" ++ shownPairs entries ++ Text.ofString "]"
  | set [] => "set()"
  | set (item :: items) => "\x7b" ++ shownItems (item :: items) ++ Text.ofString "\x7d"
  | map entries => "\x7b" ++ shownEntries entries ++ Text.ofString "\x7d"
  | enclosing false => "[...]"
  | enclosing true => "\x7b...\x7d"

def shownItems : List Value → Text
  | [] => []
  | [item] => shown item
  | item :: next :: rest => shown item ++ Text.ofString ", " ++ shownItems (next :: rest)

def shownPairs : List (Value × Value) → Text
  | [] => []
  | [(a, b)] => "(" ++ shown a ++ Text.ofString ", " ++ shown b ++ Text.ofString ")"
  | (a, b) :: next :: rest =>
    "(" ++ shown a ++ Text.ofString ", " ++ shown b ++ Text.ofString "), " ++
      shownPairs (next :: rest)

def shownEntries : List (Value × Value) → Text
  | [] => []
  | [(key, value)] => shown key ++ Text.ofString ": " ++ shown value
  | (key, value) :: next :: rest =>
    shown key ++ Text.ofString ": " ++ shown value ++ Text.ofString ", " ++
      shownEntries (next :: rest)

end

/-- The value as it stands inside a sentence: a text without quotes, a date in its usual form. -/
def worded : Value → Text
  | str t => t
  | date d => d.written
  | moment m => m.written
  | v => v.shown

mutual

/-- No integer in the value is too long to be written, so the value can be shown. -/
def isShowable : Value → Bool
  | int n => Reading.isWritable n
  | list items | set items => areShowable items
  | pairs entries | map entries => areShowablePairs entries
  | _ => true

def areShowable : List Value → Bool
  | [] => true
  | item :: rest => isShowable item && areShowable rest

def areShowablePairs : List (Value × Value) → Bool
  | [] => true
  | (a, b) :: rest => isShowable a && isShowable b && areShowablePairs rest

end

/-! ## JSON documents -/

mutual

/-- The value that says just what a JSON document says. -/
def ofJson : Json → Value
  | .null => null
  | .bool b => bool b
  | .int n => int n
  | .float x => float x
  | .str t => str t
  | .arr items => list (ofItems items)
  | .obj members => map (ofMembers members)

def ofItems : List Json → List Value
  | [] => []
  | item :: rest => ofJson item :: ofItems rest

def ofMembers : Members → List (Value × Value)
  | [] => []
  | (name, value) :: rest => (str name, ofJson value) :: ofMembers rest

end

end Value

end LanguageClient.Yaml
