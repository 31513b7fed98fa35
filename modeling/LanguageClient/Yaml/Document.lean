import LanguageClient.Yaml.Node
import LanguageClient.Yaml.Value

/-!
# What a document says

The nodes of a document become a value.  An alias has the value of its anchor; the
entries that a mapping merges come before its own, and its own prevail.

A document can have several flaws.  The one that is reported is the first one on the
level nearest to the root, since a value is filled in level by level.
-/

namespace LanguageClient.Yaml

/-- A value, or the flaw that counts, with its level. -/
inductive Built (α : Type) where
  | ok (a : α)
  | flawed (level : Nat) (error : Error)

namespace Built

variable {α β : Type}

/-- Both values, or the flaw nearer to the root; of two on one level the first one. -/
def both : Built α → Built β → Built (α × β)
  | ok a, ok b => ok (a, b)
  | flawed m e, ok _ => flawed m e
  | ok _, flawed n e => flawed n e
  | flawed m e, flawed n f => if n < m then flawed n f else flawed m e

/-- Applies a function that may find a flaw on a level. -/
def andThen (level : Nat) (f : α → Except Error β) : Built α → Built β
  | ok a =>
    match f a with
    | .ok b => ok b
    | .error e => flawed level e
  | flawed n e => flawed n e

def map (f : α → β) : Built α → Built β
  | ok a => ok (f a)
  | flawed n e => flawed n e

end Built

/-! ## Scalars -/

namespace Scalar

def withoutUnderscores (t : Text) : Text := t.filter (·.val ≠ 0x5F)

/-- The value of a digit in bases up to sixteen. -/
def digitValue? (c : Char) : Option Nat := if isHexDigit c then some (hexValue c) else none

/-- The digits behind the mark of a base, if the mark is there. -/
def unmarked (base : Nat) (cs : List Char) : List Char :=
  match cs with
  | '0' :: m :: rest =>
    let m := m.toLower
    if (base = 2 && m == 'b') || (base = 8 && m == 'o') || (base = 16 && m == 'x') then rest
    else cs
  | _ => cs

/-- The integer that a text spells in a base other than ten: blanks around it, a sign, perhaps the
mark of the base, and digits. -/
def intInBase (base : Nat) (t : Text) : Except Error Int :=
  let (negative, cs) := Reading.sign (Reading.trimmed t)
  let digits := (unmarked base cs).map digitValue?
  if digits.isEmpty || digits.any (fun d => d.all (base ≤ ·)) then .error (.notAnInteger base t)
  else
    let n : Int := digits.foldl (fun n d => n * base + d.getD 0) 0
    .ok (if negative then -n else n)

/-- The integer that a text spells in base ten. -/
def intInTen (t : Text) : Except Error Int :=
  match Reading.int t with
  | .ok n => .ok n
  | .error e => .error (.number e)

/-- The sign of a number, `true` for minus, and what stands behind it. -/
def takeSign (t : Text) : Except Error (Bool × Text) :=
  match t with
  | [] => .error .emptyNumber
  | c :: rest =>
    if c.val = 0x2D then .ok (true, rest)
    else if c.val = 0x2B then .ok (false, rest)
    else .ok (false, t)

/-- An integer: in base two behind `0b`, sixteen behind `0x`, eight behind `0`, sixty with colons,
else ten. -/
def int (t : Text) : Except Error Int := do
  let (negative, body) ← takeSign (withoutUnderscores t)
  let magnitude ←
    match body with
    | [] => throw .emptyNumber
    | first :: _ =>
      if body = Text.ofString "0" then pure 0
      else if let some bits := Cut.after? (Text.ofString "0b") body then intInBase 2 bits
      else if let some digits := Cut.after? (Text.ofString "0x") body then intInBase 16 digits
      else if first.val = 0x30 then intInBase 8 body
      else if body.any (·.val == 0x3A) then do
        let places ← (Cut.pieces (CodePoint.ofChar ':') body).mapM intInTen
        pure (places.foldl (fun n place => n * 60 + place) 0)
      else intInTen body
  return if negative then -magnitude else magnitude

/-- The double that a text spells. -/
def decimal (t : Text) : Except Error Binary64 :=
  match Reading.float t with
  | .ok x => .ok x
  | .error e => .error (.number e)

/-- The sum of the places of a number in base sixty, the last place first. -/
def sixtieths (sum : Binary64) (base : Nat) : List Binary64 → Except Error Binary64
  | [] => .ok sum
  | place :: rest =>
    match Binary64.ofInt base with
    | .infinite _ => .error .tooManyPlaces
    | weight => sixtieths (sum.add (place.mul weight)) (base * 60) rest

/-- A number with a point, in base ten or sixty, or one of the numbers that are no numbers. -/
def float (t : Text) : Except Error Binary64 := do
  let lowered := (withoutUnderscores t).map CodePoint.asciiLower
  let (negative, body) ← takeSign lowered
  if body = Text.ofString ".nan" then return .nan
  let magnitude ←
    if body = Text.ofString ".inf" then pure (.infinite false)
    else if body.any (·.val == 0x3A) then do
      let places ← (Cut.pieces (CodePoint.ofChar ':') body).mapM decimal
      sixtieths Binary64.zero 1 places.reverse
    else decimal body
  return if negative then magnitude.neg else magnitude

def bool (t : Text) : Except Error Bool :=
  let word := t.map CodePoint.asciiLower
  if ["yes", "true", "on"].any (Text.ofString · = word) then .ok true
  else if ["no", "false", "off"].any (Text.ofString · = word) then .ok false
  else .error (.notATruthValue word)

def timestamp (t : Text) : Except Error Value :=
  let cs := Text.toChars t
  let cs := match cs.reverse with
    | '\n' :: before => before.reverse
    | _ => cs
  match Stamp.read? cs with
  | none => .error .notADate
  | some stamp =>
    match stamp.resolve with
    | .ok (.inl d) => .ok (.date d)
    | .ok (.inr m) => .ok (.moment m)
    | .error e => .error (.noSuchTime e)

/-- The value of a character of base 64. -/
def sixBits? (c : CodePoint) : Option Nat :=
  let n := c.val
  if 0x41 ≤ n && n ≤ 0x5A then some (n - 0x41)
  else if 0x61 ≤ n && n ≤ 0x7A then some (n - 0x61 + 26)
  else if 0x30 ≤ n && n ≤ 0x39 then some (n - 0x30 + 52)
  else if n = 0x2B then some 62
  else if n = 0x2F then some 63
  else none

/-- The bytes of a text in base 64.  `bits` holds the `filled` characters of a group of four that
have been read, `pads` counts the `=` behind them; other characters do not count. -/
def base64From (done : Bytes) (filled bits pads : Nat) : Text → Option Bytes
  | [] => if filled = 0 then some done.reverse else none
  | c :: rest =>
    if c.val = 0x3D then
      if 2 ≤ filled && 4 ≤ filled + (pads + 1) then some done.reverse
      else base64From done filled bits (if 2 ≤ filled then pads + 1 else pads) rest
    else
      match sixBits? c with
      | none => base64From done filled bits pads rest
      | some v =>
        if filled = 0 then base64From done 1 v 0 rest
        else if filled = 1 then base64From (UInt8.ofNat (bits * 4 + v / 16) :: done) 2 (v % 16) 0 rest
        else if filled = 2 then base64From (UInt8.ofNat (bits * 16 + v / 4) :: done) 3 (v % 4) 0 rest
        else base64From (UInt8.ofNat (bits * 64 + v) :: done) 0 0 0 rest

/-- The bytes of a text in base 64, which must be ASCII. -/
def binary (t : Text) : Except Error Bytes :=
  if t.any (128 ≤ ·.val) then .error .malformed
  else match base64From [] 0 0 0 t with
    | some bytes => .ok bytes
    | none => .error .malformed

/-- The value of a scalar of a kind. -/
def build (kind : Kind) (t : Text) : Except Error Value :=
  match kind with
  | .null => .ok .null
  | .bool => (bool t).map .bool
  | .int => (int t).map .int
  | .float => (float t).map .float
  | .binary => (binary t).map .bytes
  | .timestamp => timestamp t
  | .str => .ok (.str t)
  | _ => .error .malformed

def isScalarKind : Kind → Bool
  | .null | .bool | .int | .float | .binary | .timestamp | .str => true
  | _ => false

/-- The kinds whose values are filled in with their contents, not at once. -/
def isFilledLater : Kind → Bool
  | .seq | .map | .set | .omap | .pairs => true
  | _ => false

end Scalar

/-! ## Collections -/

namespace Node

/-- The kind of a scalar node; other nodes have none. -/
def scalarKind? : Node → Option Kind
  | scalar _ kind _ => some kind
  | _ => none

def isMergeKey (n : Node) : Bool := n.scalarKind? == some .merge

/-- The key of a mapping's own value. -/
def isValueKey (n : Node) : Bool := n.scalarKind? == some .value

/-- The entries that a value to be merged brings. -/
def mergedEntries : Value → Except Error (List (Value × Value))
  | .map entries => .ok entries
  | .enclosing true => .ok []
  | .set items => .ok (items.map (·, .null))
  | .list items => do
    let each ← items.mapM fun item => match item with
      | .map entries => .ok entries
      | .enclosing true => .ok []
      | .set items => .ok (items.map (·, .null))
      | _ => .error .malformed
    return each.reverse.flatten
  | _ => .error .malformed

/-- An entry that has been read: the entries that a merge brings, or one of the mapping's own. -/
inductive Entry where
  | merged (entries : List (Value × Value))
  | own (key value : Value)

/-- The mapping of a list of entries. -/
def assemble (entries : List Entry) : List (Value × Value) :=
  let merged := entries.flatMap fun e => match e with
    | .merged entries => entries
    | .own _ _ => []
  let own := entries.filterMap fun e => match e with
    | .merged _ => none
    | .own key value => some (key, value)
  (merged ++ own).foldl (fun all e => Value.insert all e.1 e.2) []

/-- The values of the anchors, the latest first. -/
abbrev Anchors := List (Text × Value)

/-- Takes notice of the value of an anchor. -/
def bind (anchor : Option Text) (v : Value) (anchors : Anchors) : Anchors :=
  match anchor with
  | some name => (name, v) :: anchors
  | none => anchors

/-- The value that stands for a flawed node. -/
def valueOf : Built Value → Value
  | .ok v => v
  | .flawed _ _ => .null

/-- The lone entry of a mapping that a list of pairs consists of. -/
def loneEntry? : Value → Option (Value × Value)
  | .map [entry] => some entry
  | _ => none

/-- A value as a key.  A collection is none, whatever is wrong inside it. -/
def asKey (level : Nat) : Built Value → Built Value
  | .ok v => if v.isKey then .ok v else .flawed level .malformed
  | .flawed n e => .flawed level (if level < n then .malformed else e)

def consItem (item : Built Value) (rest : Built (List Value)) : Built (List Value) :=
  (item.both rest).map fun (item, items) => item :: items

/-- What a collection of a kind is made of its contents; most kinds want the other form. -/
def ofItems (kind : Kind) (items : List Value) : Except Error Value :=
  match kind with
  | .seq => .ok (.list items)
  | _ => .error .malformed

def ofEntries (kind : Kind) (entries : List Entry) : Except Error Value :=
  match kind with
  | .map => .ok (.map (assemble entries))
  | .set => .ok (.set ((assemble entries).map (·.1)))
  | _ => .error .malformed

mutual

/-- The value of a node on a level, with the anchors before it and after it. -/
def build (level : Nat) (anchors : Anchors) : Node → Built Value × Anchors
  | reference name => (.ok (((anchors.find? (·.1 = name)).map (·.2)).getD .null), anchors)
  | scalar anchor kind text =>
    let value : Built Value := match Scalar.build kind text with
      | .ok v => .ok v
      | .error e => .flawed (if Scalar.isFilledLater kind then level + 1 else level) e
    (value, bind anchor (valueOf value) anchors)
  | sequence anchor kind items =>
    if kind = .omap || kind = .pairs then
      let (entries, anchors) := buildPairs (level + 1) (bind anchor (.enclosing false) anchors) items
      let value := entries.map .pairs
      (value, bind anchor (valueOf value) anchors)
    else if kind ≠ .seq then
      (.flawed (if Scalar.isFilledLater kind then level + 1 else level) .malformed, anchors)
    else
      let (items, anchors) := buildItems (level + 1) (bind anchor (.enclosing false) anchors) items
      let value := items.map .list
      (value, bind anchor (valueOf value) anchors)
  | mapping anchor kind entries =>
    if Scalar.isScalarKind kind then
      let value := buildOwnValue level kind entries
      (value, bind anchor (valueOf value) anchors)
    else if kind ≠ .map && kind ≠ .set then
      (.flawed (if Scalar.isFilledLater kind then level + 1 else level) .malformed, anchors)
    else
      let (entries, anchors) :=
        buildEntries (level + 1) (bind anchor (.enclosing true) anchors) entries
      let value := entries.andThen (level + 1) (ofEntries kind)
      (value, bind anchor (valueOf value) anchors)

/-- A mapping that is tagged as a scalar has the value of its key `=`. -/
def buildOwnValue (level : Nat) (kind : Kind) : List (Node × Node) → Built Value
  | [] => .flawed level .malformed
  | (key, value) :: rest =>
    if key.isValueKey then
      match value with
      | scalar _ _ text =>
        match Scalar.build kind text with
        | .ok v => .ok v
        | .error e => .flawed level e
      | mapping _ _ entries => buildOwnValue level kind entries
      | _ => .flawed level .malformed
    else buildOwnValue level kind rest

def buildItems (level : Nat) (anchors : Anchors) : List Node → Built (List Value) × Anchors
  | [] => (.ok [], anchors)
  | node :: rest =>
    let (item, anchors) := build level anchors node
    let (items, anchors) := buildItems level anchors rest
    (consItem item items, anchors)

/-- The pairs of a list of mappings with one entry each. -/
def buildPairs (level : Nat) (anchors : Anchors) :
    List Node → Built (List (Value × Value)) × Anchors
  | [] => (.ok [], anchors)
  | node :: rest =>
    let (pair, anchors) : Built (Value × Value) × Anchors :=
      match node with
      | mapping _ _ [(key, value)] =>
        let (key, anchors) := build level anchors key
        let (value, anchors) := build level anchors value
        (key.both value, anchors)
      | reference name =>
        match ((anchors.find? (·.1 = name)).map (·.2)).bind loneEntry? with
        | some entry => (.ok entry, anchors)
        | none => (.flawed level .malformed, anchors)
      | _ => (.flawed level .malformed, anchors)
    let (pairs, anchors) := buildPairs level anchors rest
    ((pair.both pairs).map fun (pair, pairs) => pair :: pairs, anchors)

/-- The entries of a mapping.  What is merged has to be there before anything else. -/
def buildEntries (level : Nat) (anchors : Anchors) :
    List (Node × Node) → Built (List Entry) × Anchors
  | [] => (.ok [], anchors)
  | (key, value) :: rest =>
    let (entry, anchors) : Built Entry × Anchors :=
      if key.isMergeKey then
        let (value, anchors) := build (level - 1) anchors value
        ((value.andThen level mergedEntries).map .merged, anchors)
      else
        let (key, anchors) :=
          if key.isValueKey then (.ok (.str (Text.ofString "=")), anchors)
          else build level anchors key
        let key := asKey level key
        let (value, anchors) := build level anchors value
        ((key.both value).map fun (key, value) => .own key value, anchors)
    let (entries, anchors) := buildEntries level anchors rest
    ((entry.both entries).map fun (entry, entries) => entry :: entries, anchors)

end

def value (root : Node) : Except Error Value :=
  match (build 0 [] root).1 with
  | .ok v => .ok v
  | .flawed _ e => .error e

end Node

/-! ## Texts -/

/-- The value of the only document of a text; an empty text has `null`. -/
def read (text : List Char) : Except Error Value := do
  match ← Node.only (Token.ofText text) with
  | none => return .null
  | some root => root.value

/-- The values of the documents behind another one. -/
def readFurther : (fuel : Nat) → List Token → Except Error (List Value)
  | 0, _ => .ok []
  | fuel + 1, tokens => do
    match ← Node.further tokens with
    | none => return []
    | some (root, tokens) =>
      let v ← root.value
      return v :: (← readFurther fuel tokens)

/-- The values of all documents of a text. -/
def readAll (text : List Char) : Except Error (List Value) := do
  let tokens := Token.ofText text
  match ← Node.first tokens with
  | none => return []
  | some (root, rest) =>
    let v ← root.value
    return v :: (← readFurther tokens.length rest)

end LanguageClient.Yaml
