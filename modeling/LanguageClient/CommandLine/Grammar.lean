import LanguageClient.Text.Digit
import LanguageClient.Text.Quoted

/-!
# Command lines

A grammar says what a command line may hold: flags, which start with a dash and may
take a value, and operands, which stand in an order of their own between the flags.
The last operand may take everything that is left.

## Strategy

Every argument is first given a role, without regard to its place: a long flag may be
cut short as long as it stays unique, a short one may be followed by its value at once,
a number is no flag, and behind `--` there are no flags.  The roles are then taken from
left to right.  Operands are taken as many at a time as stand together; a flag takes the
argument behind it.  What nothing wants is left over, and it is for the caller to say
whether that is an error.

From the arguments of an operand one `--` is dropped, whatever its role.  So an operand that
gets a second `--` alone has no value.
-/

namespace LanguageClient

/-- What is wrong with a command line. -/
inductive UsageFlaw where
  | missing (operands : List Text)
  | noValue (argument : Text)
  /-- A flag was given a value that it does not take. -/
  | needlessValue (argument value : Text)
  | badValue (argument kind value : Text)
  | badChoice (argument value : Text) (choices : List Text)
  | ambiguous (argument : Text) (flags : List Text)
  | leftOver (arguments : List Text)
deriving DecidableEq

def UsageFlaw.message : UsageFlaw → Text
  | missing operands =>
    "the following arguments are required: " ++ Text.join (Text.ofString ", ") operands
  | noValue argument => "argument " ++ argument ++ Text.ofString ": expected one argument"
  | needlessValue argument value =>
    "argument " ++ argument ++ Text.ofString ": ignored explicit argument " ++ Quoted.text value
  | badValue argument kind value =>
    "argument " ++ argument ++ Text.ofString ": invalid " ++ kind ++ Text.ofString " value: " ++
      Quoted.text value
  | badChoice argument value choices =>
    "argument " ++ argument ++ Text.ofString ": invalid choice: " ++ Quoted.text value ++
      Text.ofString " (choose from " ++
      Text.join (Text.ofString ", ") (choices.map Quoted.text) ++ Text.ofString ")"
  | ambiguous argument flags =>
    "ambiguous option: " ++ argument ++ Text.ofString " could match " ++
      Text.join (Text.ofString ", ") flags
  | leftOver arguments => "unrecognized arguments: " ++ Text.join (Text.ofString " ") arguments

/-- A flaw, and the program or part of it that found it. -/
structure UsageError where
  program : Text
  flaw : UsageFlaw
deriving DecidableEq

/-- The line that tells the user of an error. -/
def UsageError.message (e : UsageError) : Text :=
  e.program ++ Text.ofString ": error: " ++ e.flaw.message

/-- Why a command line leads to nothing that could be run. -/
inductive UsageStop where
  /-- The user has asked for help. -/
  | help
  | refused (error : UsageError)
deriving DecidableEq

/-- A flag.  `set` puts its value into the settings, or names the kind of value that is wanted; without
`set` the flag takes no value and asks for help. -/
structure Flag (α : Type) where
  names : List Text
  set : Option (Text → α → Except Text α)

inductive Operand (α : Type) where
  /-- Takes one argument.  `void` makes the settings of an operand without a value. -/
  | one (name : Text) (set : Text → α → Except Text α) (void : α → α)
  /-- Takes all arguments that are left, and gives back those that it has no use for. -/
  | rest (name : Text) (take : List Text → α → Except UsageStop (α × List Text))

/-- What a command line may hold, for settings of type `α`. -/
structure Grammar (α : Type) where
  program : Text
  flags : List (Flag α)
  operands : List (Operand α)

/-- How a flag is referred to. -/
def Flag.title {α : Type} (flag : Flag α) : Text := Text.join (Text.ofString "/") flag.names

def Operand.name {α : Type} : Operand α → Text
  | one name _ _ => name
  | rest name _ => name

/-- What an argument is taken for. -/
inductive Role (α : Type) where
  | plain
  | delimiter
  /-- A flag that the grammar does not have. -/
  | unknown
  /-- A flag by one of its names.  A value that stands in the same argument may be joined to it by an
  equals sign. -/
  | flag (flag : Flag α) (name : Text) (value : Option Text) (joined : Bool)

/-- The argument starts with a dash and is meant as a flag. -/
def Role.isFlag {α : Type} : Role α → Bool
  | unknown | flag _ _ _ _ => true
  | plain | delimiter => false

namespace Grammar

variable {α : Type}

def dash : CodePoint := CodePoint.ofChar '-'

def equals : CodePoint := CodePoint.ofChar '='

/-! ## Roles -/

/-- The names of the flags, with the flags. -/
def named (g : Grammar α) : List (Text × Flag α) :=
  g.flags.flatMap fun flag => flag.names.map fun name => (name, flag)

def flag? (g : Grammar α) (name : Text) : Option (Flag α) :=
  (g.named.find? (·.1 = name)).map (·.2)

/-- The parts before and after the first equals sign. -/
def cutValue (argument : Text) : Text × Option Text :=
  match Cut.at? equals argument with
  | some (name, value) => (name, some value)
  | none => (argument, none)

/-- The flags that an argument may stand for: by the start of a long name, or by a short name with the
value behind it. -/
def candidates (g : Grammar α) (argument : Text) : List (Text × Role α) :=
  match argument with
  | _ :: second :: value =>
    if second = dash then
      let (start, value) := cutValue argument
      g.named.filterMap fun (name, flag) =>
        (Cut.after? start name).map fun _ => (name, .flag flag name value value.isSome)
    else
      g.named.filterMap fun (name, flag) =>
        if name = [dash, second] then some (name, .flag flag name (some value) false)
        else (Cut.after? argument name).map fun _ => (name, .flag flag name none false)
  | _ => []

def isDigit (c : CodePoint) : Bool := (Digit.value? c).isSome

/-- The argument is a negative number, perhaps with a line break behind it. -/
def isNegativeNumber (argument : Text) : Bool :=
  match argument with
  | [] => false
  | _ :: body =>
    let body := if body.getLast? = some (CodePoint.ofChar '\n') then body.dropLast else body
    match body.dropWhile isDigit with
    | [] => !body.isEmpty
    | c :: fraction => c = CodePoint.ofChar '.' && !fraction.isEmpty && fraction.all isDigit

/-- The role of an argument that no `--` stands before. -/
def roleOf (g : Grammar α) (argument : Text) : Except UsageFlaw (Role α) :=
  if argument.head? ≠ some dash then .ok .plain
  else match g.flag? argument with
    | some flag => .ok (.flag flag argument none false)
    | none =>
      if argument.length = 1 then .ok .plain
      else
        match (cutValue argument).2, g.flag? (cutValue argument).1 with
        | some value, some flag => .ok (.flag flag (cutValue argument).1 (some value) true)
        | _, _ =>
          match g.candidates argument with
          | [(_, role)] => .ok role
          | [] =>
            if isNegativeNumber argument || argument.contains (CodePoint.ofChar ' ') then .ok .plain
            else .ok .unknown
          | several => .error (.ambiguous argument (several.map (·.1)))

def roles (g : Grammar α) : List Text → Except UsageFlaw (List (Text × Role α))
  | [] => .ok []
  | argument :: rest =>
    if argument = [dash, dash] then
      .ok ((argument, .delimiter) :: rest.map fun later => (later, .plain))
    else do
      let role ← g.roleOf argument
      return (argument, role) :: (← g.roles rest)

/-! ## Taking the arguments -/

/-- How far a command line has been taken. -/
structure Progress (α : Type) where
  settings : α
  operands : List (Operand α)
  items : List (Text × Role α)
  leftOver : List Text
  /-- What the last operand had no use for. -/
  leftOverLater : List Text

def refuse {β : Type} (g : Grammar α) (flaw : UsageFlaw) : Except UsageStop β :=
  .error (.refused ⟨g.program, flaw⟩)

/-- Puts a value into the settings. -/
def put (g : Grammar α) (argument : Text) (set : Text → α → Except Text α) (value : Text)
    (settings : α) : Except UsageStop α :=
  match set value settings with
  | .ok settings => .ok settings
  | .error kind => g.refuse (.badValue argument kind value)

/-- The argument is `--`. -/
def isDelimiter (item : Text × Role α) : Bool :=
  match item.2 with
  | .delimiter => true
  | _ => false

/-- The next plain argument, unless a flag comes first, and what follows it. -/
def nextPlain? (items : List (Text × Role α)) : Option (Text × List (Text × Role α)) :=
  match items.dropWhile isDelimiter with
  | (argument, .plain) :: rest => some (argument, rest.dropWhile isDelimiter)
  | _ => none

/-- The plain argument is a `--`, and there is no other before it that could be dropped in its place. -/
def isVoid (items : List (Text × Role α)) (argument : Text) : Bool :=
  argument == [dash, dash] && !(items.head?.map isDelimiter).getD false

/-- Takes as many operands as there are plain arguments for. -/
def takeOperands (g : Grammar α) : List (Operand α) → Progress α → Except UsageStop (Progress α)
  | [], p => .ok { p with operands := [] }
  | operand :: operands, p =>
    match nextPlain? p.items with
    | none => .ok { p with operands := operand :: operands }
    | some (argument, items) =>
      match operand with
      | .one name set void => do
        let settings ←
          if isVoid p.items argument then .ok (void p.settings)
          else g.put name set argument p.settings
        g.takeOperands operands { p with settings := settings, items := items }
      | .rest _ take => do
        let (settings, later) ← take (p.items.map (·.1)) p.settings
        g.takeOperands operands
          { p with settings := settings, items := [], leftOverLater := p.leftOverLater ++ later }

/-- Whether a request for help may be followed by more short flags in the same argument; `value` is
what follows it there. -/
def checkHelp (g : Grammar α) (title : Text) (items : List (Text × Role α)) :
    (value : Text) → (joined : Bool) → Except UsageFlaw Unit
  | [], _ => .error (.needlessValue title [])
  | c :: rest, joined =>
    if joined || c = dash then .error (.needlessValue title (c :: rest))
    else match g.flag? [dash, c] with
      | none => .ok ()
      | some flag =>
        match flag.set, rest with
        | some _, [] => if (nextPlainHere items) then .ok () else .error (.noValue flag.title)
        | some _, _ :: _ => .ok ()
        | none, [] => .ok ()
        | none, next :: after =>
          if next = equals then .error (.needlessValue flag.title after)
          else g.checkHelp flag.title items rest false
where
  /-- The next argument is plain. -/
  nextPlainHere : List (Text × Role α) → Bool
    | (_, .plain) :: _ => true
    | _ => false

/-- Takes the flag that comes next. -/
def takeFlag (g : Grammar α) (p : Progress α) : Except UsageStop (Progress α) :=
  match p.items with
  | (_, .flag flag name value joined) :: items =>
    match flag.set with
    | some set =>
      match value, items with
      | some value, items => do
        return { p with settings := ← g.put flag.title set value p.settings, items := items }
      | none, (value, .plain) :: items => do
        return { p with settings := ← g.put flag.title set value p.settings, items := items }
      | none, _ => g.refuse (.noValue flag.title)
    | none =>
      match value with
      | none => .error .help
      | some value =>
        let isLong := (name.drop 1).head? = some dash
        match (if isLong then .error (.needlessValue flag.title value)
          else g.checkHelp flag.title items value joined) with
        | .ok () => .error .help
        | .error flaw => g.refuse flaw
  | (argument, _) :: items => .ok { p with leftOver := p.leftOver ++ [argument], items := items }
  | [] => .ok p

/-- Takes what is left when there are no more flags. -/
def finish (g : Grammar α) (p : Progress α) : Except UsageStop (Progress α) := do
  let p ← g.takeOperands p.operands p
  if !p.operands.isEmpty then g.refuse (.missing (p.operands.map (·.name)))
  else return { p with leftOver := p.leftOver ++ p.items.map (·.1), items := [] }

/-- Takes arguments until there are no more flags.  Every round takes at least one of them, so as many
rounds as there are arguments are enough. -/
def takeAll (g : Grammar α) : (rounds : Nat) → Progress α → Except UsageStop (Progress α)
  | 0, p => g.finish p
  | rounds + 1, p =>
    if !p.items.any (·.2.isFlag) then g.finish p
    else if (p.items.head?.map (·.2.isFlag)).getD false then do g.takeAll rounds (← g.takeFlag p)
    else do
      let after ← g.takeOperands p.operands p
      if after.items.length < p.items.length then g.takeAll rounds after
      else
        let passed := p.items.takeWhile fun item => !item.2.isFlag
        let items := p.items.dropWhile fun item => !item.2.isFlag
        g.takeAll rounds (← g.takeFlag
          { p with leftOver := p.leftOver ++ passed.map (·.1), items := items })

/-- The settings that a command line makes of the initial ones, and what it leaves over. -/
def read (g : Grammar α) (settings : α) (arguments : List Text) :
    Except UsageStop (α × List Text) := do
  match g.roles arguments with
  | .error flaw => g.refuse flaw
  | .ok items =>
    let p ← g.takeAll items.length ⟨settings, g.operands, items, [], []⟩
    return (p.settings, p.leftOver ++ p.leftOverLater)

end Grammar

end LanguageClient
