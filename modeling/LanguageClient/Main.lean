import LanguageClient.CommandLine.Run
import LanguageClient.Console.Plain
import LanguageClient.Logging
import LanguageClient.Script.Host

/-!
# The program

Reads the command line, the environment and the files that a run needs, runs it, and
prints what it shows.  Nothing is decided here.

The host of this program has no servers: a run that gets as far as starting one ends
with the refusal.
-/

namespace LanguageClient

/-- The text of a string that the system gives. -/
def textOfSystem (s : String) : Text := Text.ofString s

/-- The string of a text. -/
def stringOf (t : Text) : String := String.ofList (Text.toChars t)

/-- The names of the variables that a run looks at. -/
def variableNames : List String :=
  ["EDITOR_LSP_CONFIG", "EDITOR_LSP_POLL_TIMEOUT", "EDITOR_LSP_POLL_CYCLES", "EDITOR_LSP_TRACE",
    "LOG_LEVEL", "LOG_TO_CONSOLE"]

/-- What the run finds around it. -/
def findSurroundings : IO Surroundings := do
  let here ← IO.currentDir
  let user := (← IO.getEnv "HOME").getD ""
  let home := (← IO.getEnv "EDITOR_LSP_HOME").getD (user ++ "/.editor_lsp")
  let environment ← variableNames.filterMapM fun name => do
    return (← IO.getEnv name).map fun value => (textOfSystem name, textOfSystem value)
  return {
    workingDirectory := textOfSystem here.toString
    home := textOfSystem home
    processId := 0
    date := []
    timeOfDay := []
    environment := environment }

/-- Adds a file of the system to a tree, if it can be read. -/
def addFile (s : Surroundings) (files : Files) (path : Text) : IO Files := do
  let path := s.absolute path
  try
    let bytes ← IO.FS.readBinFile (stringOf path)
    return files.seed path (.file bytes.toList)
  catch _ => return files

/-- The remarks of a journal, as they go to the console. -/
def printRemarks (journal : Journal) : IO Unit :=
  journal.forM fun entry => match entry with
    | .remark level text => IO.eprintln (stringOf (level.name ++ Text.ofString " " ++ text))
    | .traffic _ _ => return

/-- Runs an invocation on the files that it names. -/
def runInvocation (s : Surroundings) (log : Log) (i : Invocation) : IO UInt32 := do
  let files ← [Config.pathOf s i.choices.config, i.request.file].foldlM (addFile s)
    (Files.empty.seed s.workingDirectory .directory)
  let site : Site ScriptedHost ScriptedServer := ⟨⟨[], files, s.workingDirectory, 1⟩, files, [], []⟩
  let clock (reading : Nat) : Binary64 := .ofRatio false reading 8
  let (ending, w) := Workbench.run s clock i (Workbench.ofSite site)
  w.shown.forM fun block => block.lines.forM fun line => IO.println (stringOf line)
  if log.outlets.any (·.destination = .console) then printRemarks w.fleet.site.journal
  match ending with
  | .exit code => return code.toUInt32
  | .faulted f =>
    IO.eprintln (stringOf f.message)
    return 1

end LanguageClient

open LanguageClient in
/-- Answers the query of the command line. -/
def main (arguments : List String) : IO UInt32 := do
  let s ← findSurroundings
  match Log.setUp s ⟨.level Log.alarming, []⟩ with
  | (.error e, _) =>
    IO.eprintln (stringOf e.message)
    return 1
  | (.ok (), log) =>
    match Invocation.read s (arguments.map textOfSystem) with
    | .error .help => return 0
    | .error (.refused e) =>
      IO.eprintln (stringOf e.message)
      return 2
    | .ok i => runInvocation s log i
