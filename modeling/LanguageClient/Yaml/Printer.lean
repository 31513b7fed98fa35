import LanguageClient.Json.Basic
import LanguageClient.Yaml.Resolution

/-!
# Printing YAML

A JSON object is printed as a YAML document in block style: an entry or an item on a
line of its own, two columns further in than the collection around it.  Only the items
of a list under a key stand at the key's own column, and empty collections are written
`{}` and `[]`.

A text is printed plain where it reads back as the same text, else between single
quotes, and between double quotes where it has characters that need an escape.  Texts
are broken at a space once a line is longer than `lineWidth`, unless they are keys.

Every function is told the column that the line has reached, so no state is needed.
-/

namespace LanguageClient.Yaml.Printer

/-- Lines are broken at the first opportunity behind this column. -/
def lineWidth : Nat := 80

/-- The columns by which a collection is indented. -/
def indentStep : Nat := 2

def spaces (n : Nat) : List Char := List.replicate n ' '

/-- A new line that starts at a column. -/
def newLine (indent : Nat) : List Char := '\n' :: spaces indent

/-! ## What a text needs -/

/-- The code point ends a line. -/
def isBreak (c : CodePoint) : Bool :=
  c.val = 0x0A || c.val = 0x85 || c.val = 0x2028 || c.val = 0x2029

def isSpace (c : CodePoint) : Bool := c.val = 0x20

def isGap (c : CodePoint) : Bool := isSpace c || c.val = 0x09 || isBreak c

/-- The code point can only be written as an escape. -/
def isSpecial (c : CodePoint) : Bool :=
  let n := c.val
  !(n = 0x0A || (0x20 ≤ n && n ≤ 0x7E) || n = 0x85 || (0xA0 ≤ n && n ≤ 0xD7FF) ||
    (0xE000 ≤ n && n ≤ 0xFFFD && n ≠ 0xFEFF) || (0x10000 ≤ n && n < 0x10FFFF))

/-- Two neighbours of a list have the properties `p` and `q`. -/
def hasNeighbours (p q : CodePoint → Bool) : Text → Bool
  | a :: b :: rest => (p a && q b) || hasNeighbours p q (b :: rest)
  | _ => false

def followedByGap (rest : Text) : Bool :=
  match rest with
  | [] => true
  | c :: _ => isGap c

/-- The characters that cannot start a plain text. -/
def isIndicator (c : CodePoint) : Bool :=
  (Text.ofString "#,[]\x7b\x7d&*!|>'\"%@\x60").contains c

/-- The text starts like something else than a text. -/
def startsOtherwise : Text → Bool
  | [] => false
  | c :: rest =>
    isIndicator c ||
      ((c.val = 0x3F || c.val = 0x3A || c.val = 0x2D) && followedByGap rest) ||
      [Text.ofString "---", Text.ofString "..."].contains ((c :: rest).take 3)

/-- A colon that ends a key, or a mark that starts a comment, stands behind the first character. -/
def hasMark : Text → Bool
  | a :: b :: rest =>
    (b.val = 0x3A && followedByGap rest) || (b.val = 0x23 && isGap a) || hasMark (b :: rest)
  | _ => false

/-- The first or the last character is a space or a break. -/
def hasLooseEdge (t : Text) : Bool :=
  let loose (c : CodePoint) : Bool := isSpace c || isBreak c
  t.head?.any loose || t.getLast?.any loose

/-- Single quotes are enough: nothing needs an escape, and no break stands next to a space. -/
def fitsSingleQuotes (t : Text) : Bool :=
  !t.any isSpecial && !hasNeighbours isBreak isSpace t && !hasNeighbours isSpace isBreak t

/-- The text can stand without quotes in a block. -/
def fitsPlain (t : Text) : Bool :=
  fitsSingleQuotes t && !hasLooseEdge t && !t.any isBreak && !startsOtherwise t && !hasMark t

inductive Style where
  | plain
  | singleQuoted
  | doubleQuoted
deriving DecidableEq

def Style.of (t : Text) : Style :=
  if Kind.ofPlain t = .str && fitsPlain t then plain
  else if fitsSingleQuotes t then singleQuoted
  else doubleQuoted

/-! ## Texts -/

/-- The characters of a text without escapes.  A lone space behind the line's width becomes a new
line at `indent`; a run of breaks that starts with a line feed gets one more, and is followed by the
indentation.  Inside quotes a quote is written twice. -/
def wrapped (inQuotes mayFold : Bool) (indent : Nat) :
    (before : Option CodePoint) → (column : Nat) → Text → List Char
  | _, _, [] => []
  | before, column, c :: rest =>
    if isSpace c then
      let isLone := before.any (!isSpace ·) && rest.head?.any (!isSpace ·)
      if isLone && mayFold && lineWidth < column then
        newLine indent ++ wrapped inQuotes mayFold indent (some c) indent rest
      else ' ' :: wrapped inQuotes mayFold indent (some c) (column + 1) rest
    else if isBreak c then
      let extra := if c.val = 0x0A && !before.any isBreak then ['\n'] else []
      let after := if rest.head?.any isBreak then [] else spaces indent
      extra ++ c.toChar :: after ++ wrapped inQuotes mayFold indent (some c) indent rest
    else if inQuotes && c.val = 0x27 then
      '\'' :: '\'' :: wrapped inQuotes mayFold indent (some c) (column + 2) rest
    else c.toChar :: wrapped inQuotes mayFold indent (some c) (column + 1) rest

/-- The letter of a short escape. -/
def shortEscape? (n : Nat) : Option Char :=
  match n with
  | 0x00 => some '0'
  | 0x07 => some 'a'
  | 0x08 => some 'b'
  | 0x09 => some 't'
  | 0x0A => some 'n'
  | 0x0B => some 'v'
  | 0x0C => some 'f'
  | 0x0D => some 'r'
  | 0x1B => some 'e'
  | 0x22 => some '"'
  | 0x5C => some '\\'
  | 0x85 => some 'N'
  | 0x2028 => some 'L'
  | 0x2029 => some 'P'
  | _ => none

/-- The hexadecimal digits of a number in capitals, filled with zeros up to `width`. -/
def capitalHex (width n : Nat) : List Char :=
  let digits := (Nat.toDigits 16 n).map Char.toUpper
  List.replicate (width - digits.length) '0' ++ digits

/-- The escape of a code point. -/
def escape (c : CodePoint) : List Char :=
  match shortEscape? c.val with
  | some letter => ['\\', letter]
  | none =>
    if c.val < 0x100 then '\\' :: 'x' :: capitalHex 2 c.val
    else if c.val < 0x10000 then '\\' :: 'u' :: capitalHex 4 c.val
    else '\\' :: 'U' :: capitalHex 8 c.val

/-- Inside double quotes the code point is written as an escape. -/
def isEscaped (c : CodePoint) : Bool :=
  let n := c.val
  n = 0x22 || n = 0x5C || isBreak c || n = 0xFEFF ||
    !((0x20 ≤ n && n ≤ 0x7E) || (0xA0 ≤ n && n ≤ 0xD7FF) || (0xE000 ≤ n && n ≤ 0xFFFD))

/-- A broken line inside double quotes; a space at the start of the next one is marked. -/
def brokenLine (indent : Nat) (next : Option CodePoint) : List Char :=
  '\\' :: newLine indent ++ (if next.any isSpace then ['\\'] else [])

/-- The column behind `brokenLine`. -/
def columnAfterBreak (indent : Nat) (next : Option CodePoint) : Nat :=
  if next.any isSpace then indent + 1 else indent

/-- The characters of a text between double quotes.  A line behind its width is broken before a
space, or next to an escape; neither the first nor the last character gets a line of its own.
`afterEscape` tells that nothing but an escape or a break stands before. -/
def escaped (mayFold : Bool) (indent : Nat) :
    (isFirst afterEscape : Bool) → (column : Nat) → Text → List Char
  | _, _, _, [] => []
  | isFirst, afterEscape, column, c :: rest =>
    let mayBreak := mayFold && !isFirst && !rest.isEmpty
    if isEscaped c then
      let written := escape c
      let column := column + written.length
      if mayBreak && lineWidth + 1 < column then
        written ++ brokenLine indent rest.head? ++
          escaped mayFold indent false true (columnAfterBreak indent rest.head?) rest
      else written ++ escaped mayFold indent false true column rest
    else if mayBreak && (isSpace c || afterEscape) && lineWidth < column then
      brokenLine indent (some c) ++ c.toChar ::
        escaped mayFold indent false false (columnAfterBreak indent (some c) + 1) rest
    else c.toChar :: escaped mayFold indent false false (column + 1) rest

/-- A text that starts at a column; further lines start at `indent`. -/
def text (mayFold : Bool) (indent column : Nat) (t : Text) : List Char :=
  match Style.of t with
  | .plain => wrapped false mayFold indent none column t
  | .singleQuoted => '\'' :: wrapped true mayFold indent none (column + 1) t ++ ['\'']
  | .doubleQuoted => '"' :: escaped mayFold indent true false (column + 1) t ++ ['"']

/-! ## Numbers -/

def int : Int → List Char
  | .ofNat n => Nat.toDigits 10 n
  | .negSucc n => '-' :: Nat.toDigits 10 (n + 1)

/-- A double always has a point. -/
def float : Binary64 → List Char
  | .nan => ".nan".toList
  | .infinite negative => (if negative then "-.inf" else ".inf").toList
  | x =>
    let digits := x.render
    if digits.contains '.' || !digits.contains 'e' then digits
    else digits.takeWhile (· ≠ 'e') ++ '.' :: '0' :: digits.dropWhile (· ≠ 'e')

/-! ## Collections -/

/-- A key of this length or more is not followed by its value on one line. -/
def keyLimit : Nat := 123

/-- The key and its value can stand on one line. -/
def isSimpleKey (key : Text) : Bool := !key.isEmpty && !key.any isBreak && key.length < keyLimit

/-- The start of an entry or item at `indent`: on the line at hand where only marks stand before, as
`isOpen` tells, else on a new one. -/
def lead (isOpen : Bool) (indent column : Nat) : List Char :=
  if isOpen then spaces (indent - column) else newLine indent

/-- The mark of a key, and the column behind it. -/
def key (indent : Nat) (name : Text) : List Char × Nat :=
  if isSimpleKey name then
    let written := text false (indent + indentStep) indent name
    (written ++ [':'], indent + written.length + 1)
  else
    ('?' :: ' ' :: text true (indent + indentStep) (indent + 2) name ++ newLine indent ++ [':'],
      indent + 1)

mutual

/-- A value behind a mark.  `indent` is the column of the collection around it and `column` the
one that the line has reached; `isOpen` tells whether only marks stand on the line. -/
def value (indent column : Nat) (isOpen : Bool) : Json → List Char
  | .null => " null".toList
  | .bool true => " true".toList
  | .bool false => " false".toList
  | .int n => ' ' :: int n
  | .float x => ' ' :: float x
  | .str t => ' ' :: text true (indent + indentStep) (column + 1) t
  | .arr [] => " []".toList
  | .arr (item :: rest) =>
    items (if isOpen then indent + indentStep else indent) column isOpen (item :: rest)
  | .obj [] => " \x7b\x7d".toList
  | .obj (member :: rest) => entries (indent + indentStep) column isOpen (member :: rest)

/-- The items of a list at `indent`. -/
def items (indent column : Nat) (isOpen : Bool) : List Json → List Char
  | [] => []
  | item :: rest =>
    lead isOpen indent column ++ '-' :: value indent (indent + 1) true item ++
      items indent column false rest

/-- The entries of a mapping at `indent`. -/
def entries (indent column : Nat) (isOpen : Bool) : Members → List Char
  | [] => []
  | (name, v) :: rest =>
    let mark := key indent name
    lead isOpen indent column ++ mark.1 ++
      value indent mark.2 (!isSimpleKey name) v ++ entries indent column false rest

end

/-- A document that holds an object with at least one member. -/
def document (members : Members) : List Char :=
  "---".toList ++ entries 0 3 false members ++ ['\n']

end LanguageClient.Yaml.Printer
