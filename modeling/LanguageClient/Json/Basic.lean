import LanguageClient.Number.Decimal
import LanguageClient.Text.Quoted

/-!
# JSON documents

The values that travel between client and server.  Integers of any size and
doubles are kept apart, and the members of an object keep the order in which
they were written.

Two documents are `same` when they are equal as values: numbers are compared as
numbers, truth values count as `0` and `1`, and the order of members does not
matter.
-/

namespace LanguageClient

inductive Json where
  | null
  | bool (b : Bool)
  | int (n : Int)
  | float (x : Binary64)
  | str (t : Text)
  | arr (items : List Json)
  | obj (members : List (Text × Json))

/-- The members of a JSON object, in order. -/
abbrev Members := List (Text × Json)

instance : Inhabited Json := ⟨.null⟩

namespace Members

/-- The value of the member with a given name. -/
def get? (members : Members) (name : Text) : Option Json :=
  (members.find? (·.1 = name)).map (·.2)

/-- There is a member with the given name. -/
def has (members : Members) (name : Text) : Bool := members.any (·.1 = name)

/-- Sets a member: in its place when the name is known, else at the end. -/
def put (members : Members) (name : Text) (value : Json) : Members :=
  if members.has name then members.map fun m => if m.1 = name then (name, value) else m
  else members ++ [(name, value)]

end Members

namespace Json

instance : Coe Text Json := ⟨str⟩

def ofString (s : String) : Json := str s

/-- An object from names and values. -/
def object (members : List (String × Json)) : Json :=
  obj (members.map fun m => (Text.ofString m.1, m.2))

/-- The member of an object; nothing for other values. -/
def member? (v : Json) (name : Text) : Option Json :=
  match v with
  | obj members => Members.get? members name
  | _ => none

def isNull : Json → Bool
  | null => true
  | _ => false

/-- The place of a number or truth value on the line of doubles. -/
def extended? : Json → Option Binary64.Extended
  | bool b => some (.ofInt (if b then 1 else 0))
  | int n => some (.ofInt n)
  | float x => x.extended?
  | _ => none

/-! ## Equality as values -/

mutual

/-- The two documents are equal as values. -/
def same : Json → Json → Bool
  | null, null => true
  | str a, str b => a == b
  | arr a, arr b => sameItems a b
  | obj a, obj b => a.length == b.length && sameMembers a b
  | a, b =>
    match a.extended?, b.extended? with
    | some a, some b => a == b
    | _, _ => false

/-- The items are equal one by one. -/
def sameItems : List Json → List Json → Bool
  | [], [] => true
  | a :: as, b :: bs => same a b && sameItems as bs
  | _, _ => false

/-- Every member of the first list has an equal one of its name in the second. -/
def sameMembers : Members → Members → Bool
  | [], _ => true
  | (name, a) :: rest, others =>
    (match Members.get? others name with
      | some b => same a b
      | none => false) && sameMembers rest others

end

/-! ## Showing a document in a message -/

mutual

/-- The document as messages show it: texts between quotes, `None`, `True` and `False`. -/
def shown : Json → Text
  | null => "None"
  | bool true => "True"
  | bool false => "False"
  | int n => Text.ofInt n
  | float x => Text.ofChars x.render
  | str t => Quoted.text t
  | arr items => [CodePoint.ofChar '['] ++ shownItems items ++ [CodePoint.ofChar ']']
  | obj members => [CodePoint.ofChar '\x7b'] ++ shownMembers members ++ [CodePoint.ofChar '\x7d']

def shownItems : List Json → Text
  | [] => []
  | [item] => shown item
  | item :: next :: rest => shown item ++ Text.ofString ", " ++ shownItems (next :: rest)

def shownMembers : Members → Text
  | [] => []
  | [(name, value)] => Quoted.text name ++ Text.ofString ": " ++ shown value
  | (name, value) :: next :: rest =>
    Quoted.text name ++ Text.ofString ": " ++ shown value ++ Text.ofString ", " ++
      shownMembers (next :: rest)

end

/-- The document as it stands inside a sentence: a text without quotes. -/
def worded : Json → Text
  | str t => t
  | v => shown v

end Json

end LanguageClient
