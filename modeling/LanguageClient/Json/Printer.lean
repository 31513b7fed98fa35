import LanguageClient.Json.Basic

/-!
# Printing JSON

Documents are printed on one line of ASCII: `", "` between items, `": "` after a
name, and every other character than the printable ASCII ones as an escape.  A
character beyond the basic plane is written as the two surrogates of UTF-16.
The doubles that JSON has no numbers for are written `NaN`, `Infinity` and
`-Infinity`.
-/

namespace LanguageClient.Json

def shortEscape? (n : Nat) : Option Char :=
  if n = 0x22 then some '"'
  else if n = 0x5C then some '\\'
  else if n = 0x0A then some 'n'
  else if n = 0x0D then some 'r'
  else if n = 0x09 then some 't'
  else if n = 0x0C then some 'f'
  else if n = 0x08 then some 'b'
  else none

/-- The escape of one UTF-16 unit by its number, in four lowercase digits. -/
def unitEscape (n : Nat) : List Char :=
  let digits := Nat.toDigits 16 n
  '\\' :: 'u' :: (List.replicate (4 - digits.length) '0' ++ digits)

/-- One code point inside a printed string. -/
def renderCodePoint (c : CodePoint) : List Char :=
  match shortEscape? c.val with
  | some e => ['\\', e]
  | none =>
    if 0x20 ≤ c.val && c.val < 0x7F then [c.toChar]
    else if c.val < 0x10000 then unitEscape c.val
    else
      let n := c.val - 0x10000
      unitEscape (0xD800 + n / 0x400) ++ unitEscape (0xDC00 + n % 0x400)

def renderText (t : Text) : List Char := '"' :: t.flatMap renderCodePoint ++ ['"']

/-- The number as JSON writes it. -/
def renderFloat : Binary64 → List Char
  | .nan => "NaN".toList
  | .infinite negative => (if negative then "-Infinity" else "Infinity").toList
  | x => x.render

/-- The decimal digits of an integer, after `-` when it is negative. -/
def renderInt : Int → List Char
  | .ofNat n => Nat.toDigits 10 n
  | .negSucc n => '-' :: Nat.toDigits 10 (n + 1)

mutual

def render : Json → List Char
  | null => "null".toList
  | bool true => "true".toList
  | bool false => "false".toList
  | int n => renderInt n
  | float x => renderFloat x
  | str t => renderText t
  | arr items => '[' :: renderItems items ++ [']']
  | obj members => '\x7b' :: renderMembers members ++ ['\x7d']

/-- The items with `", "` between neighbours. -/
def renderItems : List Json → List Char
  | [] => []
  | [item] => render item
  | item :: next :: rest => render item ++ ',' :: ' ' :: renderItems (next :: rest)

/-- The members with `", "` between neighbours. -/
def renderMembers : Members → List Char
  | [] => []
  | [(name, value)] => renderText name ++ ':' :: ' ' :: render value
  | (name, value) :: next :: rest =>
    renderText name ++ ':' :: ' ' :: (render value ++ ',' :: ' ' :: renderMembers (next :: rest))

end

end LanguageClient.Json
