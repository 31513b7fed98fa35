import LanguageClient.Yaml.Cursor

/-!
# Scalars as they are written

A scalar is written plain, between quotes, or as a block of lines behind `|` or `>`.
In the first two forms a single line break stands for a space, and `n + 1` of them
for `n` line feeds; U+2028 and U+2029 always stand for themselves.

Each function takes the cursor to the place behind the scalar.  The loops have fuel;
every round passes a character, so the length of what is left is enough.
-/

namespace LanguageClient.Yaml.Scalar

/-- What a line break `first` stands for, followed by the breaks of empty lines. -/
def folded (first : CodePoint) (breaks : Text) : Text :=
  if first ≠ CodePoint.ofChar '\n' then first :: breaks
  else if breaks.isEmpty then [CodePoint.ofChar ' ']
  else breaks

/-! ## Between quotes -/

/-- Passes empty lines inside quotes; a line that separates documents may not come. -/
def quotedBreaks : (fuel : Nat) → (breaks : Text) → Cursor → Except Error (Text × Cursor)
  | 0, _, _ => .error .malformed
  | fuel + 1, breaks, c =>
    if c.atSeparator then .error .malformed
    else
      let c := c.skip isBlank
      match c.takeBreak? with
      | some (b, c) => quotedBreaks fuel (breaks ++ [b]) c
      | none => .ok (breaks, c)

def quotedGap (c : Cursor) : Except Error (Text × Cursor) :=
  let (blanks, c) := c.span isBlank
  match c.peek, c.takeBreak? with
  | none, _ => .error .malformed
  | some _, none => .ok (Text.ofChars blanks, c)
  | some _, some (first, c) => do
    let (breaks, c) ← quotedBreaks (c.rest.length + 1) [] c
    return (folded first breaks, c)

/-- What a letter behind a backslash stands for. -/
def escape? (letter : Char) : Option Char :=
  match letter with
  | '0' => some '\x00'
  | 'a' => some '\x07'
  | 'b' => some '\x08'
  | 't' => some '\t'
  | '\t' => some '\t'
  | 'n' => some '\n'
  | 'v' => some '\x0B'
  | 'f' => some '\x0C'
  | 'r' => some '\r'
  | 'e' => some '\x1B'
  | ' ' => some ' '
  | '"' => some '"'
  | '\\' => some '\\'
  | '/' => some '/'
  | 'N' => some '\u0085'
  | '_' => some '\u00A0'
  | 'L' => some '\u2028'
  | 'P' => some '\u2029'
  | _ => none

/-- The number of hexadecimal digits behind a letter that announces a code. -/
def codeLength? (letter : Char) : Option Nat :=
  match letter with
  | 'x' => some 2
  | 'u' => some 4
  | 'U' => some 8
  | _ => none

/-- The value of a hexadecimal digit. -/
def hexValue (c : Char) : Nat :=
  if c.isDigit then c.toNat - 0x30 else (c.toNat - 0x41) % 0x20 + 10

def hexNumber (digits : List Char) : Nat := digits.foldl (fun n c => n * 16 + hexValue c) 0

/-- The character of a code of `length` digits. -/
def codeEscape (length : Nat) (c : Cursor) : Except Error (CodePoint × Cursor) :=
  let digits := c.rest.take length
  if digits.length < length || !digits.all isHexDigit then .error .malformed
  else
    let code := hexNumber digits
    if h : code < 0x110000 then .ok (⟨code, h⟩, c.advance length) else .error (.noCharacter code)

def escape (c : Cursor) : Except Error (Text × Cursor) :=
  match c.peek with
  | none => .error .malformed
  | some letter =>
    match escape? letter, codeLength? letter with
    | some ch, _ => .ok ([CodePoint.ofChar ch], c.step)
    | none, some length => do
      let (code, c) ← codeEscape length c.step
      return ([code], c)
    | none, none =>
      if isBreak letter then quotedBreaks (c.rest.length + 1) [] c.step else .error .malformed

/-- The rest of a scalar between double quotes; `done` is in reverse. -/
def doubleQuoted : (fuel : Nat) → (done : Text) → Cursor → Except Error (Text × Cursor)
  | 0, _, _ => .error .malformed
  | fuel + 1, done, c =>
    match c.peek with
    | none => .error .malformed
    | some ch =>
      if ch == '"' then .ok (done.reverse, c.step)
      else if ch == '\\' then do
        let (text, c) ← escape c.step
        doubleQuoted fuel (text.reverse ++ done) c
      else if isGap ch then do
        let (text, c) ← quotedGap c
        doubleQuoted fuel (text.reverse ++ done) c
      else doubleQuoted fuel (CodePoint.ofChar ch :: done) c.step

/-- The rest of a scalar between single quotes, in which a quote is written twice. -/
def singleQuoted : (fuel : Nat) → (done : Text) → Cursor → Except Error (Text × Cursor)
  | 0, _, _ => .error .malformed
  | fuel + 1, done, c =>
    match c.peek with
    | none => .error .malformed
    | some ch =>
      if ch == '\'' then
        if c.peekAt 1 == some '\'' then singleQuoted fuel (CodePoint.ofChar ch :: done) (c.advance 2)
        else .ok (done.reverse, c.step)
      else if isGap ch then do
        let (text, c) ← quotedGap c
        singleQuoted fuel (text.reverse ++ done) c
      else singleQuoted fuel (CodePoint.ofChar ch :: done) c.step

/-- A scalar between quotes, from its first quote on. -/
def quoted (quote : Char) (c : Cursor) : Except Error (Text × Cursor) :=
  let c := c.step
  if quote == '"' then doubleQuoted (c.rest.length + 1) [] c
  else singleQuoted (c.rest.length + 1) [] c

/-! ## Plain -/

/-- A plain scalar inside brackets ends at these. -/
def isFlowMark (c : Char) : Bool := c == ',' || c == '[' || c == ']' || c == '\x7b' || c == '\x7d'

/-- The characters of a plain scalar up to a gap, a colon that ends a key or a mark of the
brackets around it. -/
def plainRun (inFlow : Bool) : List Char → List Char
  | [] => []
  | ch :: rest =>
    let ends := isGap ch ||
      (ch == ':' && endOr (fun next => isGap next || (inFlow && isFlowMark next)) rest.head?) ||
      (inFlow && (isFlowMark ch || ch == '?'))
    if ends then [] else ch :: plainRun inFlow rest

/-- Passes the empty lines behind the first line break inside a plain scalar.  A line that
separates documents gives nothing. -/
def plainBreaks : (fuel : Nat) → (breaks : Text) → Cursor → Option Text × Cursor
  | 0, breaks, c => (some breaks, c)
  | fuel + 1, breaks, c =>
    if c.atSeparator then (none, c)
    else
      let c := c.skipSpaces
      match c.takeBreak? with
      | some (b, c) => plainBreaks fuel (breaks ++ [b]) c
      | none => (some breaks, c)

/-- What stands between two runs of a plain scalar. -/
structure PlainGap where
  /-- What it contributes when the scalar goes on; nothing ends the scalar. -/
  text : Text
  /-- It goes over the end of a line. -/
  breaksLine : Bool
  cursor : Cursor

def plainGap (c : Cursor) : PlainGap :=
  let (spaces, c) := c.span (· == ' ')
  match c.takeBreak? with
  | none => ⟨Text.ofChars spaces, false, c⟩
  | some (first, c) =>
    match plainBreaks (c.rest.length + 1) [] c with
    | (some breaks, c) => ⟨folded first breaks, true, c⟩
    | (none, c) => ⟨[], true, c⟩

/-- A plain scalar that has been read. -/
structure Plain where
  text : Text
  /-- The cursor stands behind a line break, not behind the scalar's last character. -/
  atNewLine : Bool
  cursor : Cursor

/-- The rest of a plain scalar.  `gap` is what stands before the next run; further lines must be
indented by at least `indent`, unless brackets are around. -/
def plainFrom (inFlow : Bool) (indent : Int) :
    (fuel : Nat) → (done gap : Text) → (atNewLine : Bool) → Cursor → Plain
  | 0, done, _, atNewLine, c => ⟨done, atNewLine, c⟩
  | fuel + 1, done, gap, atNewLine, c =>
    let run := if c.peek == some '#' then [] else plainRun inFlow c.rest
    if run.isEmpty then ⟨done, atNewLine, c⟩
    else
      let done := done ++ gap ++ Text.ofChars run
      let next := plainGap (c.advance run.length)
      if next.text.isEmpty || next.cursor.peek == some '#' ||
          (!inFlow && (next.cursor.column : Int) < indent) then
        ⟨done, next.breaksLine, next.cursor⟩
      else plainFrom inFlow indent fuel done next.text next.breaksLine next.cursor

/-- The plain scalar that starts here. -/
def plain (inFlow : Bool) (indent : Int) (c : Cursor) : Plain :=
  plainFrom inFlow indent (c.rest.length + 1) [] [] false c

/-! ## Blocks -/

/-- What becomes of the breaks behind the last line of a block. -/
inductive Chomping where
  /-- The first of them is kept. -/
  | clip
  /-- None of them is. -/
  | strip
  /-- All of them are. -/
  | keep
deriving DecidableEq

/-- The chomping that a character announces. -/
def chomping? (c : Option Char) : Option Chomping :=
  if c == some '+' then some .keep else if c == some '-' then some .strip else none

/-- The indentation that a digit announces; zero is refused. -/
def increment (c : Cursor) : Except Error (Option Nat × Cursor) :=
  match c.peek with
  | some d =>
    if !d.isDigit then .ok (none, c)
    else if d == '0' then .error .malformed
    else .ok (some (d.toNat - 0x30), c.step)
  | none => .ok (none, c)

/-- Chomping and indentation behind the mark of a block, in either order. -/
def blockHeader (c : Cursor) : Except Error (Chomping × Option Nat × Cursor) := do
  let (chomping, digit, c) ← match chomping? c.peek with
    | some chomping => do
      let (digit, c) ← increment c.step
      pure (chomping, digit, c)
    | none => do
      let (digit, c) ← increment c
      match digit, chomping? c.peek with
      | some _, some chomping => pure (chomping, digit, c.step)
      | _, _ => pure (.clip, digit, c)
  if endOr (fun ch => ch == ' ' || isBreak ch) c.peek then
    return (chomping, digit, ← c.endLine)
  else throw .malformed

/-- Passes at most so many spaces that the column `indent` is reached. -/
def indentTo (indent : Nat) (c : Cursor) : Cursor :=
  c.advance (min (indent - c.column) (c.rest.takeWhile (· == ' ')).length)

/-- Passes empty lines and the indentation of the line behind them. -/
def blockBreaks (indent : Nat) : (fuel : Nat) → (breaks : Text) → Cursor → Text × Cursor
  | 0, breaks, c => (breaks, c)
  | fuel + 1, breaks, c =>
    let c := indentTo indent c
    match c.takeBreak? with
    | some (b, c) => blockBreaks indent fuel (breaks ++ [b]) c
    | none => (breaks, c)

/-- Passes the empty lines at the start of a block and finds the greatest column reached. -/
def blockStart : (fuel : Nat) → (breaks : Text) → (deepest : Nat) → Cursor → Text × Nat × Cursor
  | 0, breaks, deepest, c => (breaks, deepest, c)
  | fuel + 1, breaks, deepest, c =>
    let (spaces, c) := c.span (· == ' ')
    let deepest := if spaces.isEmpty then deepest else max deepest c.column
    match c.takeBreak? with
    | some (b, c) => blockStart fuel (breaks ++ [b]) deepest c
    | none => (breaks, deepest, c)

/-- The lines of a block that have been read, the break behind the last one and the breaks of the
empty lines after it. -/
structure BlockLines where
  text : Text
  lastBreak : Text
  breaks : Text
  cursor : Cursor

/-- The rest of a block.  In a folded block a single break between two lines that start without a
blank becomes a space. -/
def blockLines (fold : Bool) (indent : Nat) :
    (fuel : Nat) → (done breaks : Text) → Cursor → BlockLines
  | 0, done, breaks, c => ⟨done, [], breaks, c⟩
  | fuel + 1, done, breaks, c =>
    if c.column ≠ indent || c.rest.isEmpty then ⟨done, [], breaks, c⟩
    else
      let startsFull := !here isBlank c.peek
      let (line, c) := c.span (!isBreak ·)
      let done := done ++ breaks ++ Text.ofChars line
      let (lastBreak, c) := match c.takeBreak? with
        | some (b, c) => ([b], c)
        | none => ([], c)
      let (breaks, c) := blockBreaks indent (c.rest.length + 1) [] c
      if c.column = indent && !c.rest.isEmpty then
        let between : Text :=
          if fold && lastBreak = [CodePoint.ofChar '\n'] && startsFull && !here isBlank c.peek then
            if breaks.isEmpty then [CodePoint.ofChar ' '] else []
          else lastBreak
        blockLines fold indent fuel (done ++ between) breaks c
      else ⟨done, lastBreak, breaks, c⟩

/-- A block, from its mark on, inside a collection that is indented by `outer`. -/
def block (fold : Bool) (outer : Int) (c : Cursor) : Except Error (Text × Cursor) := do
  let (chomping, digit, c) ← blockHeader c.step
  let least := (max 1 (outer + 1)).toNat
  let (breaks, indent, c) := match digit with
    | some digit =>
      let indent := least + digit - 1
      let (breaks, c) := blockBreaks indent (c.rest.length + 1) [] c
      (breaks, indent, c)
    | none =>
      let (breaks, deepest, c) := blockStart (c.rest.length + 1) [] 0 c
      (breaks, max least deepest, c)
  let lines := blockLines fold indent (c.rest.length + 1) [] breaks c
  let ending := match chomping with
    | .strip => []
    | .clip => lines.lastBreak
    | .keep => lines.lastBreak ++ lines.breaks
  return (lines.text ++ ending, lines.cursor)

end LanguageClient.Yaml.Scalar
