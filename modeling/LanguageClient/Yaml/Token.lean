import LanguageClient.Yaml.Scalar

/-!
# Tokens

A YAML text is a list of tokens.  Some are written (`[`, `- `, a scalar), some are
made by the layout: a deeper column opens a collection, and a shallower one closes
it.

## Strategy

Whether something is a key is known only at the `: ` behind it.  So the place of
every possible key is kept, as a count of the tokens before it, and the tokens that
make it a key are inserted at that place afterwards.  A possible key is given up when
its line ends or when it is longer than `keyReach`; if it had to be one, the text is
refused.

The list of tokens ends with `streamEnd`, or with `broken` where the text cannot be
read on, so that what stands before a flaw is still known.
-/

namespace LanguageClient.Yaml

/-- What a line that starts with `%` says. -/
inductive Directive where
  /-- The major number of the version. -/
  | version (major : Nat)
  /-- The handle of tags and what it is short for. -/
  | handle (handle meaning : Text)
  /-- Something that is passed over. -/
  | other

/-- A tag as it is written: with a handle, or complete. -/
structure TagName where
  handle : Option Text
  rest : Text

inductive Token where
  | streamEnd
  | broken (error : Error)
  | directive (d : Directive)
  | documentStart
  | documentEnd
  | blockSequenceStart
  | blockMappingStart
  | blockEnd
  | flowSequenceStart
  | flowSequenceEnd
  | flowMappingStart
  | flowMappingEnd
  | blockEntry
  | flowEntry
  | key
  | value
  | reference (name : Text)
  | anchor (name : Text)
  | tag (name : TagName)
  | scalar (text : Text) (isPlain : Bool)

namespace Token

/-! ## Tags, anchors and directives -/

def isUriCharacter (c : Char) : Bool :=
  isWord c || ";/?:@&=+$,.!~*'()[]%".toList.contains c

/-- A gap that may stand behind a tag or a directive. -/
def isTagGap (c : Char) : Bool := c == ' ' || isBreak c

/-- Bytes written as `%` and two hexadecimal digits. -/
def uriBytes : (fuel : Nat) → (bytes : Bytes) → Cursor → Except Error (Bytes × Cursor)
  | 0, bytes, c => .ok (bytes, c)
  | fuel + 1, bytes, c =>
    if c.peek ≠ some '%' then .ok (bytes, c)
    else
      let digits := (c.rest.drop 1).take 2
      if digits.length < 2 || !digits.all isHexDigit then .error .malformed
      else uriBytes fuel (bytes ++ [UInt8.ofNat (Scalar.hexNumber digits)]) (c.advance 3)

/-- The characters of a tag, in which bytes of UTF-8 may be written by number. -/
def uri : (fuel : Nat) → (done : Text) → Cursor → Except Error (Text × Cursor)
  | 0, _, _ => .error .malformed
  | fuel + 1, done, c =>
    match c.peek with
    | some '%' => do
      let (bytes, c) ← uriBytes c.rest.length [] c
      match Utf8.decode bytes with
      | .ok chars => uri fuel (done ++ Text.ofChars chars) c
      | .error _ => throw .malformed
    | some ch =>
      if isUriCharacter ch then uri fuel (done ++ [CodePoint.ofChar ch]) c.step
      else if done.isEmpty then .error .malformed
      else .ok (done, c)
    | none => if done.isEmpty then .error .malformed else .ok (done, c)

def takeUri (c : Cursor) : Except Error (Text × Cursor) := uri (c.rest.length + 1) [] c

/-- A handle: `!`, or a word between two of them. -/
def tagHandle (c : Cursor) : Except Error (Text × Cursor) :=
  if c.peek ≠ some '!' then .error .malformed
  else if c.peekAt 1 == some ' ' then .ok ([CodePoint.ofChar '!'], c.step)
  else
    let word := (c.rest.drop 1).takeWhile isWord
    if c.peekAt (word.length + 1) == some '!' then
      .ok (Text.ofChars (c.rest.take (word.length + 2)), c.advance (word.length + 2))
    else .error .malformed

/-- A tag, from its first `!` on. -/
def tagName (c : Cursor) : Except Error (TagName × Cursor) := do
  let (name, c) ←
    if c.peekAt 1 == some '<' then do
      let (rest, c) ← takeUri (c.advance 2)
      if c.peek ≠ some '>' then throw .malformed
      pure (⟨none, rest⟩, c.step)
    else if endOr isGap (c.peekAt 1) then pure (⟨none, Text.ofString "!"⟩, c.step)
    else do
      let (handle, c) ←
        if ((c.rest.drop 1).takeWhile (!isTagGap ·)).contains '!' then tagHandle c
        else pure (Text.ofString "!", c.step)
      let (rest, c) ← takeUri c
      pure (⟨some handle, rest⟩, c)
  if endOr isTagGap c.peek then return (name, c) else throw .malformed

/-- The characters that may follow the name of an anchor. -/
def endsAnchor (c : Char) : Bool :=
  isGap c || c == '?' || c == ':' || c == ',' || c == ']' || c == '\x7d' || c == '%' || c == '@' ||
    c == '\x60'

/-- The name of an anchor, behind its mark. -/
def anchorName (c : Cursor) : Except Error (Text × Cursor) :=
  let (word, c) := c.step.span isWord
  if word.isEmpty || !endOr endsAnchor c.peek then .error .malformed
  else .ok (Text.ofChars word, c)

def versionNumber (c : Cursor) : Except Error (Nat × Cursor) :=
  let (digits, c) := c.span Char.isDigit
  if digits.isEmpty then .error .malformed
  else if Reading.digitLimit < digits.length then .error (.number (.tooManyDigits digits.length))
  else .ok (Reading.natOfDigits digits, c)

/-- The version that a directive names. -/
def versionDirective (c : Cursor) : Except Error (Directive × Cursor) := do
  let (major, c) ← versionNumber c.skipSpaces
  if c.peek ≠ some '.' then throw .malformed
  let (_, c) ← versionNumber c.step
  if endOr isTagGap c.peek then return (.version major, c) else throw .malformed

/-- The handle that a directive introduces. -/
def handleDirective (c : Cursor) : Except Error (Directive × Cursor) := do
  let (handle, c) ← tagHandle c.skipSpaces
  if c.peek ≠ some ' ' then throw .malformed
  let (meaning, c) ← takeUri c.skipSpaces
  if endOr isTagGap c.peek then return (.handle handle meaning, c) else throw .malformed

/-- A directive, from its `%` on. -/
def takeDirective (c : Cursor) : Except Error (Directive × Cursor) := do
  let (word, c) := c.step.span isWord
  if word.isEmpty || !endOr isTagGap c.peek then throw .malformed
  let (d, c) ←
    if word = "YAML".toList then versionDirective c
    else if word = "TAG".toList then handleDirective c
    else pure (.other, c.skip (!isBreak ·))
  return (d, ← c.endLine)

end Token

/-! ## The scanner -/

/-- A place where a key may have started. -/
structure PossibleKey where
  /-- The number of brackets around it. -/
  depth : Nat
  /-- The number of tokens before it. -/
  tokensBefore : Nat
  /-- It stands at the column of a mapping, so it must be a key. -/
  isRequired : Bool
  index : Nat
  line : Nat
  column : Nat

/-- What is known in the middle of a text. -/
structure Scanner where
  cursor : Cursor
  /-- The tokens so far, in reverse, and their number. -/
  tokens : List Token
  count : Nat
  /-- The number of brackets that are open. -/
  depth : Nat
  /-- The column of the innermost collection made by layout, `-1` outside of all. -/
  indent : Int
  /-- The columns of the collections around it, innermost first. -/
  outer : List Int
  /-- A key may start here. -/
  mayStartKey : Bool
  /-- At most one place for each depth. -/
  possible : List PossibleKey

namespace Scanner

/-- A key reaches over at most this many characters. -/
def keyReach : Nat := 1024

/-- The scanner at the start of a text. -/
def start (text : List Char) : Scanner := ⟨Cursor.ofText text, [], 0, 0, -1, [], true, []⟩

def push (s : Scanner) (t : Token) : Scanner :=
  { s with tokens := t :: s.tokens, count := s.count + 1 }

/-- Inserts a token behind the first `before` ones. -/
def insertAt (s : Scanner) (before : Nat) (t : Token) : Scanner :=
  let later := s.tokens.take (s.count - before)
  let earlier := s.tokens.drop (s.count - before)
  { s with tokens := later ++ t :: earlier, count := s.count + 1 }

/-! ### Possible keys -/

/-- The key has been left behind. -/
def isStale (c : Cursor) (k : PossibleKey) : Bool :=
  k.line ≠ c.line || k.index + keyReach < c.index

/-- Gives up the possible keys that have been left behind. -/
def dropStale (s : Scanner) : Except Error Scanner :=
  if s.possible.any fun k => isStale s.cursor k && k.isRequired then .error .malformed
  else .ok { s with possible := s.possible.filter fun k => !isStale s.cursor k }

/-- Gives up the possible key at the present depth. -/
def dropPossible (s : Scanner) : Except Error Scanner :=
  if s.possible.any fun k => k.depth == s.depth && k.isRequired then .error .malformed
  else .ok { s with possible := s.possible.filter (·.depth ≠ s.depth) }

/-- Keeps this place, if a key may start here. -/
def notePossible (s : Scanner) : Except Error Scanner :=
  if !s.mayStartKey then .ok s
  else do
    let s ← s.dropPossible
    let c := s.cursor
    let isRequired := s.depth == 0 && s.indent == c.column
    return { s with possible :=
      ⟨s.depth, s.count, isRequired, c.index, c.line, c.column⟩ :: s.possible }

/-! ### Layout -/

/-- Closes the collections that are indented by more than `column`. -/
def unwindFrom (column : Int) (s : Scanner) : (outer : List Int) → Scanner
  | [] => s
  | indent :: outer =>
    if s.indent ≤ column then s
    else unwindFrom column { s.push .blockEnd with indent := indent, outer := outer } outer

/-- Closes the collections that are indented by more than `column`; layout means nothing inside
brackets. -/
def unwind (column : Int) (s : Scanner) : Scanner :=
  if s.depth ≠ 0 then s else unwindFrom column s s.outer

/-- Opens a collection at a column, if it is a new one: `opened` says which. -/
def openAt (column : Nat) (s : Scanner) : Bool × Scanner :=
  if s.indent < column then (true, { s with indent := column, outer := s.indent :: s.outer })
  else (false, s)

/-- Opens a collection at the cursor, if its column is a new one. -/
def openHere (t : Token) (s : Scanner) : Scanner :=
  let (opened, s) := s.openAt s.cursor.column
  if opened then s.push t else s

/-- Passes `n` characters. -/
def pass (n : Nat) (s : Scanner) : Scanner := { s with cursor := s.cursor.advance n }

/-- Passes blank lines, spaces and comments. -/
def skipToToken : (fuel : Nat) → Scanner → Scanner
  | 0, s => s
  | fuel + 1, s =>
    let c := s.cursor.skipSpaces
    let c := if c.peek == some '#' then c.skip (!isBreak ·) else c
    match c.takeBreak? with
    | none => { s with cursor := c }
    | some (_, c) => skipToToken fuel { s with
        cursor := c
        mayStartKey := s.mayStartKey || s.depth == 0 }

/-- Passes what stands before the next token; at the start of the text also a byte order mark. -/
def toNextToken (s : Scanner) : Scanner :=
  let c := s.cursor
  let c := if c.index = 0 && c.peek == some '\uFEFF' then c.step else c
  skipToToken (c.rest.length + 1) { s with cursor := c }

/-! ### One token -/

/-- A token that stands outside of all collections. -/
def atTop (s : Scanner) : Except Error Scanner := do
  let s ← (s.unwind (-1)).dropPossible
  return { s with mayStartKey := false }

def fetchStreamEnd (s : Scanner) : Except Error Scanner := do
  return { (← s.atTop).push .streamEnd with possible := [] }

def fetchDirective (s : Scanner) : Except Error Scanner := do
  let s ← s.atTop
  let (d, c) ← Token.takeDirective s.cursor
  return { s.push (.directive d) with cursor := c }

def fetchSeparator (t : Token) (s : Scanner) : Except Error Scanner := do
  return ((← s.atTop).pass 3).push t

def fetchOpening (t : Token) (s : Scanner) : Except Error Scanner := do
  let s ← s.notePossible
  return { (s.pass 1).push t with depth := s.depth + 1, mayStartKey := true }

def fetchClosing (t : Token) (s : Scanner) : Except Error Scanner := do
  let s ← s.dropPossible
  return { (s.pass 1).push t with depth := s.depth - 1, mayStartKey := false }

def fetchFlowEntry (s : Scanner) : Except Error Scanner := do
  let s ← s.dropPossible
  return { (s.pass 1).push .flowEntry with mayStartKey := true }

def fetchBlockEntry (s : Scanner) : Except Error Scanner := do
  if s.depth = 0 && !s.mayStartKey then throw .malformed
  let s := if s.depth = 0 then s.openHere .blockSequenceStart else s
  let s ← s.dropPossible
  return { (s.pass 1).push .blockEntry with mayStartKey := true }

def fetchKey (s : Scanner) : Except Error Scanner := do
  if s.depth = 0 && !s.mayStartKey then throw .malformed
  let s := if s.depth = 0 then s.openHere .blockMappingStart else s
  let s ← s.dropPossible
  return { (s.pass 1).push .key with mayStartKey := s.depth == 0 }

/-- Makes the place `k` a key. -/
def makeKey (k : PossibleKey) (s : Scanner) : Scanner :=
  let s := { s with possible := s.possible.filter (·.depth ≠ s.depth), mayStartKey := false }
  let s := s.insertAt k.tokensBefore .key
  if s.depth ≠ 0 then s
  else
    let (opened, s) := s.openAt k.column
    if opened then s.insertAt k.tokensBefore .blockMappingStart else s

def fetchValue (s : Scanner) : Except Error Scanner := do
  match s.possible.find? (·.depth == s.depth) with
  | some k => return ((s.makeKey k).pass 1).push .value
  | none =>
    if s.depth = 0 && !s.mayStartKey then throw .malformed
    let s := if s.depth = 0 then s.openHere .blockMappingStart else s
    let s ← { s with mayStartKey := s.depth == 0 }.dropPossible
    return (s.pass 1).push .value

/-- A token that may be the start of a key, or a key by itself. -/
def fetchInline (s : Scanner) (take : Cursor → Except Error (Token × Cursor)) :
    Except Error Scanner := do
  let s ← s.notePossible
  let (t, c) ← take s.cursor
  return { s.push t with cursor := c, mayStartKey := false }

def fetchBlock (fold : Bool) (s : Scanner) : Except Error Scanner := do
  let s ← { s with mayStartKey := true }.dropPossible
  let (text, c) ← Scalar.block fold s.indent s.cursor
  return { s.push (.scalar text false) with cursor := c }

def fetchPlain (s : Scanner) : Except Error Scanner := do
  let s ← s.notePossible
  let p := Scalar.plain (s.depth ≠ 0) (s.indent + 1) s.cursor
  return { s.push (.scalar p.text true) with cursor := p.cursor, mayStartKey := p.atNewLine }

/-- A character that a plain scalar does not start with. -/
def isIndicator (c : Char) : Bool := "-?:,[]\x7b\x7d#&*!|>'\"%@\x60".toList.contains c

def startsPlain (inFlow : Bool) (ch : Char) (next : Option Char) : Bool :=
  (!isGap ch && !isIndicator ch) ||
    (!endOr isGap next && (ch == '-' || (!inFlow && (ch == '?' || ch == ':'))))

/-- The token that starts with `ch`. -/
def fetchAt (ch : Char) (s : Scanner) : Except Error Scanner :=
  let c := s.cursor
  let inFlow := s.depth ≠ 0
  let gapNext := endOr isGap (c.peekAt 1)
  if ch == '%' && c.column == 0 then s.fetchDirective
  else if ch == '-' && c.column == 0 && c.atMarker '-' then s.fetchSeparator .documentStart
  else if ch == '.' && c.column == 0 && c.atMarker '.' then s.fetchSeparator .documentEnd
  else if ch == '[' then s.fetchOpening .flowSequenceStart
  else if ch == '\x7b' then s.fetchOpening .flowMappingStart
  else if ch == ']' then s.fetchClosing .flowSequenceEnd
  else if ch == '\x7d' then s.fetchClosing .flowMappingEnd
  else if ch == ',' then s.fetchFlowEntry
  else if ch == '-' && gapNext then s.fetchBlockEntry
  else if ch == '?' && (inFlow || gapNext) then s.fetchKey
  else if ch == ':' && (inFlow || gapNext) then s.fetchValue
  else if ch == '*' then s.fetchInline fun c => do
    let (name, c) ← Token.anchorName c
    return (.reference name, c)
  else if ch == '&' then s.fetchInline fun c => do
    let (name, c) ← Token.anchorName c
    return (.anchor name, c)
  else if ch == '!' then s.fetchInline fun c => do
    let (name, c) ← Token.tagName c
    return (.tag name, c)
  else if ch == '|' && !inFlow then s.fetchBlock false
  else if ch == '>' && !inFlow then s.fetchBlock true
  else if ch == '\'' || ch == '"' then s.fetchInline fun c => do
    let (text, c) ← Scalar.quoted ch c
    return (.scalar text false, c)
  else if startsPlain inFlow ch (c.peekAt 1) then s.fetchPlain
  else .error .malformed

/-- Reads one token, and those that layout makes before it. -/
def fetch (s : Scanner) : Except Error Scanner := do
  let s ← s.toNextToken.dropStale
  let s := s.unwind s.cursor.column
  match s.cursor.peek with
  | none => s.fetchStreamEnd
  | some ch => s.fetchAt ch

/-- Reads tokens to the end of the text, or to what cannot be read. -/
def run : (fuel : Nat) → Scanner → List Token
  | 0, s => s.tokens.reverse
  | fuel + 1, s =>
    match s.fetch with
    | .error e => (Token.broken e :: s.tokens).reverse
    | .ok s =>
      match s.tokens with
      | .streamEnd :: _ => s.tokens.reverse
      | _ => run fuel s

end Scanner

def Token.ofText (text : List Char) : List Token :=
  if text.all isAllowed then Scanner.run (text.length + 1) (Scanner.start text)
  else [.broken .malformed]

end LanguageClient.Yaml
