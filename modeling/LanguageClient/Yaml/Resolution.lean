import LanguageClient.Yaml.Moment

/-!
# What an untagged scalar is

A plain scalar is told by its form: `12` is an integer, `yes` a truth value,
`2024-01-31` a date.  Whatever has no such form is a text.  The printer asks the same
question to find out which texts need quotes.
-/

namespace LanguageClient.Yaml

inductive Kind where
  | null
  | bool
  | int
  | float
  | binary
  | timestamp
  | omap
  | pairs
  | set
  | str
  | seq
  | map
  /-- The key that takes over the entries of other mappings. -/
  | merge
  /-- The key of a mapping's own value. -/
  | value
  | unknown
deriving DecidableEq

namespace Kind

/-- The kinds that have a tag, with its last part. -/
def tagged : List (String × Kind) :=
  [("null", null), ("bool", bool), ("int", int), ("float", float), ("binary", binary),
    ("timestamp", timestamp), ("omap", omap), ("pairs", pairs), ("set", set), ("str", str),
    ("seq", seq), ("map", map), ("merge", merge), ("value", value)]

/-- What a complete tag stands for. -/
def ofTag (tag : Text) : Kind :=
  match Cut.after? (Text.ofString "tag:yaml.org,2002:") tag with
  | none => unknown
  | some name => ((tagged.find? fun t => Text.ofString t.1 = name).map (·.2)).getD unknown

/-! ## Forms of scalars -/

def truthWords : List String :=
  ["yes", "Yes", "YES", "no", "No", "NO", "true", "True", "TRUE", "false", "False", "FALSE",
    "on", "On", "ON", "off", "Off", "OFF"]

def nullWords : List String := ["~", "null", "Null", "NULL", ""]

def isPlace (c : Char) : Bool := c.isDigit || c == '_'

/-- A digit, and then digits and underscores. -/
def isWhole : List Char → Bool
  | [] => false
  | c :: rest => c.isDigit && rest.all isPlace

/-- A number below sixty, with at most two digits. -/
def isSixtieth : List Char → Bool
  | [d] => d.isDigit
  | [t, d] => t.isDigit && t ≤ '5' && d.isDigit
  | _ => false

/-- Nothing, or `e`, a sign and digits. -/
def isExponent : List Char → Bool
  | [] => true
  | e :: sign :: digits =>
    (e == 'e' || e == 'E') && (sign == '-' || sign == '+') && !digits.isEmpty &&
      digits.all Char.isDigit
  | _ => false

/-- A whole number and sixtieths behind colons. -/
def isSexagesimal (cs : List Char) : Bool :=
  match Cut.pieces ':' cs with
  | whole :: sixtieths => isWhole whole && !sixtieths.isEmpty && sixtieths.all isSixtieth
  | [] => false

/-- The characters behind a sign, if there is one. -/
def unsigned : List Char → List Char
  | [] => []
  | c :: rest => if c == '-' || c == '+' then rest else c :: rest

/-- The form of a number with a point. -/
def isFloat (cs : List Char) : Bool :=
  let body := unsigned cs
  let before := body.takeWhile (· ≠ '.')
  match body.dropWhile (· ≠ '.') with
  | [] => false
  | _ :: after =>
    let fraction := after.takeWhile isPlace
    let rest := after.dropWhile isPlace
    (isWhole before && isExponent rest) ||
      (isSexagesimal before && rest.isEmpty) ||
      (cs.head? == some '.' && isWhole fraction && isExponent rest) ||
      (before.isEmpty && ["inf", "Inf", "INF"].contains (String.ofList after)) ||
      (cs.head? == some '.' && ["nan", "NaN", "NAN"].contains (String.ofList after))

/-- The form of an integer in base two, eight, ten, sixteen or sixty. -/
def isInt (cs : List Char) : Bool :=
  match unsigned cs with
  | [] => false
  | '0' :: 'b' :: bits => !bits.isEmpty && bits.all fun c => c == '0' || c == '1' || c == '_'
  | '0' :: 'x' :: digits => !digits.isEmpty && digits.all fun c =>
      isPlace c || ('a' ≤ c && c ≤ 'f') || ('A' ≤ c && c ≤ 'F')
  | '0' :: rest => rest.all fun c => ('0' ≤ c && c ≤ '7') || c == '_'
  | first :: rest => isWhole (first :: rest) || isSexagesimal (first :: rest)

/-- The form of a date or moment. -/
def isTimestamp (cs : List Char) : Bool := (Stamp.read? cs).any Stamp.isStrict

/-- The form that a text has; a line feed at the end of a longer text does not count. -/
def ofPlain (t : Text) : Kind :=
  let cs := match t.reverse with
    | last :: before => if last.val == 0x0A && !before.isEmpty then before.reverse else t
    | [] => t
  let cs := Text.toChars cs
  let word := String.ofList cs
  if truthWords.contains word then bool
  else if isFloat cs then float
  else if isInt cs then int
  else if word = "<<" then merge
  else if nullWords.contains word then null
  else if isTimestamp cs then timestamp
  else if word = "=" then value
  else if ["!", "&", "*"].contains word then unknown
  else str

end Kind

end LanguageClient.Yaml
