import LanguageClient.Yaml.Resolution
import LanguageClient.Yaml.Token

/-!
# Nodes

The tokens of a document are a tree of nodes: scalars, sequences and mappings, each
with the kind that its tag or its form gives it.  An alias stays an alias here, but it
names an anchor that stands before it.

A stream holds any number of documents.  The first one may start without a marker;
directives hold for the document behind them only.
-/

namespace LanguageClient.Yaml

inductive Node where
  | reference (name : Text)
  | scalar (anchor : Option Text) (kind : Kind) (text : Text)
  | sequence (anchor : Option Text) (kind : Kind) (items : List Node)
  | mapping (anchor : Option Text) (kind : Kind) (entries : List (Node × Node))

/-- What is known in the middle of a document. -/
structure Outline where
  /-- What has not been read; it ends with `streamEnd` or `broken`. -/
  tokens : List Token
  anchors : List Text
  /-- The handles of tags and what they are short for. -/
  handles : List (Text × Text)

/-- A step of reading a document. -/
abbrev Reads (α : Type) := StateT Outline (Except Error) α

namespace Node

/-- The node that stands where nothing is written. -/
def nothing : Node := scalar none .null []

/-! ## Tokens -/

def peek : Reads Token := do return (← get).tokens.headD .streamEnd

def pass : Reads Unit := modify fun o => { o with tokens := o.tokens.drop 1 }

/-- Refuses a token; where the text could not be read on, that is the reason. -/
def refuse {α : Type} : Token → Reads α
  | .broken e => throw e
  | _ => throw .malformed

/-! ## Properties -/

/-- The complete form of a tag. -/
def completeTag (name : TagName) : Reads Text := do
  match name.handle with
  | none => return name.rest
  | some handle =>
    match (← get).handles.find? (·.1 = handle) with
    | some (_, meaning) => return meaning ++ name.rest
    | none => throw .malformed

/-- An anchor and a tag, in either order. -/
def properties : Reads (Option Text × Option Text) := do
  match ← peek with
  | .anchor name =>
    pass
    match ← peek with
    | .tag t =>
      pass
      return (some name, some (← completeTag t))
    | _ => return (some name, none)
  | .tag t =>
    pass
    match ← peek with
    | .anchor name =>
      pass
      return (some name, some (← completeTag t))
    | _ => return (none, some (← completeTag t))
  | _ => return (none, none)

/-- Takes notice of an anchor; an anchor may not be set twice. -/
def noteAnchor (anchor : Option Text) : Reads Unit := do
  if let some name := anchor then
    if (← get).anchors.contains name then throw .malformed
    modify fun o => { o with anchors := name :: o.anchors }

def isVague (tag : Option Text) : Bool := tag.all (· = Text.ofString "!")

def scalarKind (tag : Option Text) (text : Text) (isPlain : Bool) : Kind :=
  match tag with
  | none => if isPlain then Kind.ofPlain text else .str
  | some name => if name = Text.ofString "!" then Kind.ofPlain text else Kind.ofTag name

def collectionKind (tag : Option Text) (standard : Kind) : Kind :=
  if isVague tag then standard else Kind.ofTag (tag.getD [])

/-! ## Collections

`next` tells what ends an entry of which nothing is written.
-/

def endsBlockItem : Token → Bool
  | .blockEntry | .blockEnd => true
  | _ => false

def endsBlockPart : Token → Bool
  | .key | .value | .blockEnd => true
  | _ => false

def endsIndentlessItem : Token → Bool
  | .blockEntry | .key | .value | .blockEnd => true
  | _ => false

def endsFlowValue (isClosing : Token → Bool) : Token → Bool
  | .flowEntry => true
  | t => isClosing t

def endsFlowKey (isClosing : Token → Bool) : Token → Bool
  | .value => true
  | t => endsFlowValue isClosing t

def closesSequence : Token → Bool
  | .flowSequenceEnd => true
  | _ => false

def closesMapping : Token → Bool
  | .flowMappingEnd => true
  | _ => false

/-- The comma before every entry of a bracket but the first. -/
def passComma (isFirst : Bool) : Reads Unit := do
  if !isFirst then
    match ← peek with
    | .flowEntry => pass
    | t => refuse t

mutual

/-- A node.  `inBlock` tells whether layout may open a collection here, `mayBeFlush` whether the
entries of a sequence may stand at the column of the mapping around it. -/
def read (inBlock mayBeFlush : Bool) : (fuel : Nat) → Reads Node
  | 0 => throw .malformed
  | fuel + 1 => do
    if let .reference name ← peek then
      pass
      if !(← get).anchors.contains name then throw .malformed
      return .reference name
    let (anchor, tag) ← properties
    noteAnchor anchor
    match ← peek, inBlock, mayBeFlush with
    | .scalar text isPlain, _, _ =>
      pass
      return .scalar anchor (scalarKind tag text isPlain) text
    | .flowSequenceStart, _, _ =>
      pass
      return .sequence anchor (collectionKind tag .seq) (← flowItems true fuel)
    | .flowMappingStart, _, _ =>
      pass
      return .mapping anchor (collectionKind tag .map) (← flowEntries true fuel)
    | .blockSequenceStart, true, _ =>
      pass
      return .sequence anchor (collectionKind tag .seq) (← blockItems fuel)
    | .blockMappingStart, true, _ =>
      pass
      return .mapping anchor (collectionKind tag .map) (← blockEntries fuel)
    | .blockEntry, _, true =>
      return .sequence anchor (collectionKind tag .seq) (← flushItems fuel)
    | t, _, _ =>
      if anchor.isSome || tag.isSome then return .scalar anchor (scalarKind tag [] true) []
      else refuse t

/-- A node, unless the next token ends the place where it would stand. -/
def readUnless (ends : Token → Bool) (inBlock mayBeFlush : Bool) : (fuel : Nat) → Reads Node
  | 0 => throw .malformed
  | fuel + 1 => do
    if ends (← peek) then return nothing
    read inBlock mayBeFlush fuel

/-- A node behind the mark of a value; nothing where there is no such mark. -/
def readValue (ends : Token → Bool) (inBlock : Bool) : (fuel : Nat) → Reads Node
  | 0 => throw .malformed
  | fuel + 1 => do
    match ← peek with
    | .value =>
      pass
      readUnless ends inBlock inBlock fuel
    | _ => return nothing

/-- The items of a sequence with a column of its own. -/
def blockItems : (fuel : Nat) → Reads (List Node)
  | 0 => throw .malformed
  | fuel + 1 => do
    match ← peek with
    | .blockEntry =>
      pass
      let item ← readUnless endsBlockItem true false fuel
      return item :: (← blockItems fuel)
    | .blockEnd =>
      pass
      return []
    | t => refuse t

/-- The items of a sequence at the column of the mapping around it. -/
def flushItems : (fuel : Nat) → Reads (List Node)
  | 0 => throw .malformed
  | fuel + 1 => do
    match ← peek with
    | .blockEntry =>
      pass
      let item ← readUnless endsIndentlessItem true false fuel
      return item :: (← flushItems fuel)
    | _ => return []

/-- The entries of a mapping with a column of its own. -/
def blockEntries : (fuel : Nat) → Reads (List (Node × Node))
  | 0 => throw .malformed
  | fuel + 1 => do
    match ← peek with
    | .key =>
      pass
      let key ← readUnless endsBlockPart true true fuel
      let value ← readValue endsBlockPart true fuel
      return (key, value) :: (← blockEntries fuel)
    | .blockEnd =>
      pass
      return []
    | t => refuse t

/-- The items between brackets.  A key among them is a mapping of one entry. -/
def flowItems (isFirst : Bool) : (fuel : Nat) → Reads (List Node)
  | 0 => throw .malformed
  | fuel + 1 => do
    if closesSequence (← peek) then
      pass
      return []
    passComma isFirst
    match ← peek with
    | .flowSequenceEnd =>
      pass
      return []
    | .key =>
      pass
      let key ← readUnless (endsFlowKey closesSequence) false false fuel
      let value ← readValue (endsFlowValue closesSequence) false fuel
      return .mapping none .map [(key, value)] :: (← flowItems false fuel)
    | _ =>
      let item ← read false false fuel
      return item :: (← flowItems false fuel)

/-- The entries between braces.  A node without a mark is a key without a value. -/
def flowEntries (isFirst : Bool) : (fuel : Nat) → Reads (List (Node × Node))
  | 0 => throw .malformed
  | fuel + 1 => do
    if closesMapping (← peek) then
      pass
      return []
    passComma isFirst
    match ← peek with
    | .flowMappingEnd =>
      pass
      return []
    | .key =>
      pass
      let key ← readUnless (endsFlowKey closesMapping) false false fuel
      let value ← readValue (endsFlowValue closesMapping) false fuel
      return (key, value) :: (← flowEntries false fuel)
    | _ =>
      let key ← read false false fuel
      return (key, nothing) :: (← flowEntries false fuel)

end

/-! ## Documents -/

/-- The handles that need no directive. -/
def standardHandles : List (Text × Text) :=
  [(Text.ofString "!", Text.ofString "!"), (Text.ofString "!!", Text.ofString "tag:yaml.org,2002:")]

/-- Passes the directives before a document. -/
def directives : (fuel : Nat) → (hasVersion : Bool) → (handles : List (Text × Text)) →
    List Token → Except Error (List (Text × Text) × List Token)
  | 0, _, _, _ => .error .malformed
  | fuel + 1, hasVersion, handles, tokens =>
    match tokens with
    | .directive (.version major) :: tokens =>
      if hasVersion || major ≠ 1 then .error .malformed
      else directives fuel true handles tokens
    | .directive (.handle handle meaning) :: tokens =>
      if handles.any (·.1 = handle) then .error .malformed
      else directives fuel hasVersion ((handle, meaning) :: handles) tokens
    | .directive .other :: tokens => directives fuel hasVersion handles tokens
    | tokens => .ok (handles ++ standardHandles, tokens)

/-- Every node takes at least half a token. -/
def fuelFor (tokens : List Token) : Nat := 4 * tokens.length + 8

/-- The root of a document whose tokens start here, and what follows it. -/
def root (handles : List (Text × Text)) (tokens : List Token) :
    Except Error (Node × List Token) := do
  let (node, rest) ← (read true false (fuelFor tokens)).run ⟨tokens, [], handles⟩
  match rest.tokens with
  | .documentEnd :: tokens => return (node, tokens)
  | tokens => return (node, tokens)

/-- The token follows a marker behind which no node is written. -/
def endsDocument : Token → Bool
  | .directive _ | .documentStart | .documentEnd | .streamEnd => true
  | _ => false

/-- The next document, unless the stream ends. -/
def marked (tokens : List Token) : Except Error (Option (Node × List Token)) := do
  match tokens with
  | .streamEnd :: _ => return none
  | _ =>
    let (handles, tokens) ← directives (tokens.length + 1) false [] tokens
    match tokens with
    | .documentStart :: tokens =>
      if endsDocument (tokens.headD .streamEnd) then
        match tokens with
        | .documentEnd :: tokens => return some (nothing, tokens)
        | tokens => return some (nothing, tokens)
      else return some (← root handles tokens)
    | .broken e :: _ => throw e
    | _ => throw .malformed

def further (tokens : List Token) : Except Error (Option (Node × List Token)) :=
  marked (tokens.dropWhile fun t => match t with
    | .documentEnd => true
    | _ => false)

/-- The first document of a stream. -/
def first (tokens : List Token) : Except Error (Option (Node × List Token)) :=
  match tokens with
  | .directive _ :: _ | .documentStart :: _ | .streamEnd :: _ => marked tokens
  | _ => do return some (← root standardHandles tokens)

/-- The only document of a stream, if there is one. -/
def only (tokens : List Token) : Except Error (Option Node) := do
  match ← first tokens with
  | none => return none
  | some (node, tokens) =>
    match tokens.dropWhile (fun t => match t with
      | .documentEnd => true
      | _ => false) with
    | [] | .streamEnd :: _ => return some node
    | .broken e :: _ => throw e
    | _ => throw .malformed

end Node

end LanguageClient.Yaml
