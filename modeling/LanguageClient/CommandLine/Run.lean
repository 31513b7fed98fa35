import LanguageClient.CommandLine.Invocation
import LanguageClient.Config.Load
import LanguageClient.Console.Report
import LanguageClient.Fleet

/-!
# Running the program

A run loads the configuration, starts the server of the file's language, opens the
file, asks what the user wants to know, shows the answer, and closes the file.  However
that ends, the servers are shut down afterwards.

A run ends with code 0 when all went well or the user interrupted it, and with code 1
after an error that it has shown.  What else cuts it short is a fault of the run.

## Strategy

The clock is read once before a wait for diagnostics and once before every poll, so the
readings are a sequence of their own.  A wait makes at most as many polls as it is told;
the limit of the program is so large that the clock runs out before.
-/

namespace LanguageClient

inductive RunError where
  | config (error : ConfigError)
  | disabled
  | noLanguage (path : Text)
  | fleet (error : FleetError)
  | system (error : SystemError)

def RunError.message : RunError → Text
  | config e => e.message
  | disabled => "LSP is disabled; set \x60enable: true\x60 in the config or pass --command"
  | noLanguage path => "No language configured for " ++ path
  | fleet e => e.message
  | system e => e.message

inductive Ending where
  | exit (code : Nat)
  | faulted (fault : Fault)

/-- What a run works on: the servers, what has been shown, and how often the clock has been read. -/
structure Workbench (η σ : Type) where
  fleet : Fleet η σ
  shown : List Block
  readings : Nat

abbrev Task (η σ α : Type) := Attempt RunError (Workbench η σ) α

namespace Workbench

variable {η σ : Type}

/-- A run before it has done anything. -/
def ofSite (site : Site η σ) : Workbench η σ := ⟨.ofConfig (.standard Text) [] site, [], 0⟩

def display (block : Block) (w : Workbench η σ) : Workbench η σ := { w with shown := w.shown ++ [block] }

def remark (level : Level) (text : Text) (w : Workbench η σ) : Workbench η σ :=
  { w with fleet := w.fleet.remark level text }

def withFleet {α : Type} (action : Attempt FleetError (Fleet η σ) α) : Task η σ α :=
  Attempt.onPart Workbench.fleet (fun fleet w => { w with fleet := fleet }) (action.mapError .fleet)

def readClock (clock : Nat → Binary64) : Task η σ Binary64 := do
  let w ← get
  set { w with readings := w.readings + 1 }
  return clock w.readings

/-! ## Before the query -/

def given? : Option Text → Option Text
  | some [] | none => none
  | some t => some t

/-- The configuration in which a language is served by a command, whatever it said before. -/
def override (config : Config Text) (language command file : Text) : Config Text :=
  let extension := Path.extension file
  let server : LanguageServer := ⟨command, if extension.isEmpty then [] else [extension]⟩
  let known := config.languages.any (·.1 = language)
  { config with
    enable := true
    languages :=
      if known then config.languages.map fun l => if l.1 = language then (language, server) else l
      else config.languages ++ [(language, server)] }

/-- The end of the loading of a configuration as that of a run. -/
def planStop : Stop ConfigError → Stop RunError
  | .failed e => .failed (.config e)
  | .faulted f => .faulted f

/-- The configuration of a run, and the language if it is settled already. -/
def configure (s : Surroundings) (files : Files) (i : Invocation) :
    Except (Stop RunError) (Config Text × Option Text) := do
  let config ← (Config.load s files i.choices.config).mapError planStop
  match given? i.choices.command with
  | none =>
    if !config.enable then .error (.failed .disabled)
    else return (config, given? i.choices.language)
  | some command =>
    let named := (given? i.choices.language).or (given? (some (Path.extension i.request.file)))
    let language := named.getD "text"
    return (override config language command i.request.file, some language)

/-- The configuration of a run, and the language of its file. -/
def plan (s : Surroundings) (files : Files) (i : Invocation) :
    Except (Stop RunError) (Config Text × Text) := do
  let (config, settled) ← configure s files i
  let path := s.absolute i.request.file
  match settled.or (config.languageFor? path) with
  | some language => return (config, language)
  | none => .error (.failed (.noLanguage path))

/-- Gives the servers of a run their configuration and their workspace. -/
def equip (config : Config Text) (workspace : Text) (w : Workbench η σ) : Workbench η σ :=
  { w with fleet := { w.fleet with config := config, workspace := workspace } }

variable [Peer σ]

/-! ## Queries -/

/-- The place in a buffer of a line and column that are counted from one. -/
def placeOf (line column : Int) : BufferPosition :=
  ⟨.int (max 0 (line - 1)), .int (max 0 (column - 1))⟩

/-- Asks for a hover and shows it. -/
def hover (s : Surroundings) (language path : Text) (line column : Int) : Task η σ Unit := do
  match ← withFleet (Fleet.perform s language (Client.hover path (placeOf line column))) with
  | none => modify (display (.plain "No hover information available at this position"))
  | some h => modify (display (.ofHover (HoverText.ofHover h)))

/-- Polls until there are diagnostics for the file, or the deadline has passed.  Messages of the server
are shown as they come; errors are remarked upon as long as the server runs. -/
def awaitDiagnostics (s : Surroundings) (clock : Nat → Binary64) (language path : Text)
    (deadline : Binary64) : (polls : Nat) → Task η σ (Option (Option Diagnostics))
  | 0 => return none
  | polls + 1 => do
    if !(← readClock clock).lt deadline then return none
    match ← (withFleet (Fleet.perform s language Client.poll)).outcome with
    | .error e =>
      modify (remark .warning ("Ignoring server message: " ++ e.message))
      if !(← get).fleet.running.contains language then Attempt.fail e
      awaitDiagnostics s clock language path deadline polls
    | .ok none => awaitDiagnostics s clock language path deadline polls
    | .ok (some event) =>
      match event.value with
      | .message m =>
        modify (display (.ofServerMessage s language m))
        awaitDiagnostics s clock language path deadline polls
      | .diagnostics d =>
        if event.path = some path then return some d
        awaitDiagnostics s clock language path deadline polls
      | .other _ => awaitDiagnostics s clock language path deadline polls

/-- Waits for the diagnostics of the file and shows them. -/
def diagnostics (s : Surroundings) (clock : Nat → Binary64) (limit : Nat) (language path : Text)
    (wait : Binary64) : Task η σ Unit := do
  let deadline := (← readClock clock).add wait
  match ← awaitDiagnostics s clock language path deadline limit with
  | none =>
    modify (display (.plain ("No diagnostics received within " ++ Text.ofChars wait.renderTenths ++
      Text.ofString "s")))
  | some d =>
    let block ← Attempt.ofExcept .faulted (Block.ofDiagnostics d path)
    modify (display block)

/-! ## The whole run -/

/-- Opens the file with a server that is ready, asks what the user wants to know, and closes it. -/
def examine (s : Surroundings) (clock : Nat → Binary64) (limit : Nat) (i : Invocation)
    (language : Text) : Task η σ Unit := do
  let path := s.absolute i.request.file
  let files := (← get).fleet.site.files
  let text ← Attempt.ofExcept .faulted (files.text s.workingDirectory path)
  withFleet (Fleet.perform s language (Client.openDocument path (.text language) (.text text)))
  match i.request.query with
  | .hover (some line) (some column) => hover s language path line column
  | .hover _ _ => Attempt.fault .wrongKind
  | .diagnostics wait => diagnostics s clock limit language path wait
  withFleet (Fleet.perform s language (Client.closeDocument path))

def answer [Host η σ] (s : Surroundings) (clock : Nat → Binary64) (limit : Nat) (i : Invocation) :
    Task η σ Unit := do
  let files := (← get).fleet.site.files
  let (config, language) ← Attempt.ofExcept id (plan s files i)
  modify (equip config i.choices.workspace)
  let _ ← withFleet (Fleet.sessionFor s language)
  examine s clock limit i language

/-- Shows an error and remarks upon it. -/
def complain (i : Invocation) (e : RunError) (w : Workbench η σ) : Workbench η σ :=
  (w.remark .error (i.request.query.name ++ Text.ofString " failed: " ++ e.message)).display
    (.ofError e.message)

/-- How a run ends, before the servers are shut down. -/
def conclude (i : Invocation) (result : Except (Stop RunError) Unit) (w : Workbench η σ) :
    Ending × Workbench η σ :=
  match result with
  | .ok () => (.exit 0, w)
  | .error (.failed e) => (.exit 1, w.complain i e)
  | .error (.faulted (.system e)) => (.exit 1, w.complain i (.system e))
  | .error (.faulted .interrupted) => (.exit 0, w.display (.plain "\nExiting..."))
  | .error (.faulted f) => (.faulted f, w)

/-- A run whose waits make at most `limit` polls. -/
def runWithin [Host η σ] (s : Surroundings) (clock : Nat → Binary64) (limit : Nat) (i : Invocation)
    (w : Workbench η σ) : Ending × Workbench η σ :=
  let (result, w) := answer s clock limit i w
  let (ending, w) := conclude i result w
  match withFleet (Fleet.closeAll s) w with
  | (.error (.faulted f), w) => (.faulted f, w)
  | (_, w) => (ending, w)

/-- The largest number of polls in one wait. -/
def pollLimit : Nat := 10000000

def run [Host η σ] (s : Surroundings) (clock : Nat → Binary64) (i : Invocation)
    (w : Workbench η σ) : Ending × Workbench η σ :=
  runWithin s clock pollLimit i w

end Workbench

end LanguageClient
