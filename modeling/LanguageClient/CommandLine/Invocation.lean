import LanguageClient.CommandLine.Grammar
import LanguageClient.Number.Reading
import LanguageClient.Surroundings

/-!
# Invocations

The program answers one of two queries about a file: what there is to say about a place
in it, and what problems the server sees.  Flags in front of the query choose the
configuration, the workspace, the language, and the command of the server.
-/

namespace LanguageClient

structure Choices where
  config : Option Text
  workspace : Text
  language : Option Text
  command : Option Text
deriving DecidableEq

/-- What is asked about a file. -/
inductive Query where
  /-- What is there at a place; line and column are counted from one.  They may be without a value. -/
  | hover (line column : Option Int)
  /-- What problems are reported within so many seconds. -/
  | diagnostics (wait : Binary64)
deriving DecidableEq

namespace Query

/-- The word for a query on the command line. -/
def name : Query → Text
  | hover _ _ => "hover"
  | diagnostics _ => "diagnostics"

end Query

structure Request where
  file : Text
  query : Query
deriving DecidableEq

structure Invocation where
  choices : Choices
  request : Request
deriving DecidableEq

namespace Invocation

def program : Text := "editor-lsp"

/-- The part of the program that answers a query. -/
def part (query : String) : Text := program ++ Text.ofString " " ++ Text.ofString query

/-- An integer, for a setting that wants one. -/
def integer (value : Text) : Except Text Int := (Reading.int value).mapError fun _ => "int"

/-- A double, for a setting that wants one. -/
def double (value : Text) : Except Text Binary64 := (Reading.float value).mapError fun _ => "float"

def help {α : Type} : Flag α := ⟨["-h", "--help"], none⟩

/-- A flag whose value is taken as it is. -/
def textFlag (names : List Text) (set : Text → Choices → Choices) : Flag (Choices × Option Request) :=
  ⟨names, some fun value settings => .ok (set value settings.1, settings.2)⟩

/-! ## Queries -/

/-- File, line and column. -/
def hoverGrammar : Grammar (Text × Option Int × Option Int) where
  program := part "hover"
  flags := [help]
  operands := [
    .one "file" (fun value s => .ok (value, s.2)) id,
    .one "line" (fun value s => do return (s.1, some (← integer value), s.2.2))
      fun s => (s.1, none, s.2.2),
    .one "column" (fun value s => do return (s.1, s.2.1, some (← integer value)))
      fun s => (s.1, s.2.1, none)]

/-- File, and how long to wait. -/
def diagnosticsGrammar : Grammar (Text × Binary64) where
  program := part "diagnostics"
  flags := [help, ⟨["--wait"], some fun value s => do return (s.1, ← double value)⟩]
  operands := [.one "file" (fun value s => .ok (value, s.2)) id]

def queries : List Text := ["hover", "diagnostics"]

/-- How long is waited for diagnostics when nothing is said. -/
def standardWait : Binary64 := .ofInt 5

/-- The request that a word and the arguments behind it make. -/
def readRequest (name : Text) (arguments : List Text) : Except UsageStop (Request × List Text) :=
  if name = Text.ofString "hover" then do
    let ((file, line, column), leftOver) ← hoverGrammar.read ([], none, none) arguments
    return (⟨file, .hover line column⟩, leftOver)
  else if name = Text.ofString "diagnostics" then do
    let ((file, wait), leftOver) ← diagnosticsGrammar.read ([], standardWait) arguments
    return (⟨file, .diagnostics wait⟩, leftOver)
  else .error (.refused ⟨program, .badChoice "subcommand" name queries⟩)

/-! ## The whole command line -/

/-- Flags, and then a query. -/
def grammar : Grammar (Choices × Option Request) where
  program := program
  flags := [
    help,
    textFlag ["--config", "-c"] fun value c => { c with config := some value },
    textFlag ["--workspace", "-w"] fun value c => { c with workspace := value },
    textFlag ["--language", "-l"] fun value c => { c with language := some value },
    textFlag ["--command"] fun value c => { c with command := some value }]
  operands := [.rest "subcommand" fun arguments settings => do
    let (request, leftOver) ← readRequest (arguments.headD []) (arguments.drop 1)
    return ((settings.1, some request), leftOver)]

/-- The invocation that a command line is. -/
def read (s : Surroundings) (arguments : List Text) : Except UsageStop Invocation := do
  let initial : Choices := ⟨none, s.workingDirectory, none, none⟩
  let ((choices, request), leftOver) ← grammar.read (initial, none) arguments
  if !leftOver.isEmpty then .error (.refused ⟨program, .leftOver leftOver⟩)
  else match request with
    | some request => return ⟨choices, request⟩
    | none => .error (.refused ⟨program, .missing ["subcommand"]⟩)

end Invocation

end LanguageClient
