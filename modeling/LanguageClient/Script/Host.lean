import LanguageClient.Host
import LanguageClient.Script.Server

/-!
# Hosts for scripted servers

A scripted host runs a script for every command that it knows.  For other commands it
answers as a system does on which there is no such program: a path that leads to a
file or directory may not be executed, and a name is not found.
-/

namespace LanguageClient

/-- A host that knows some commands. -/
structure ScriptedHost where
  scripts : List (Text × Script)
  /-- Paths of programs are looked up here. -/
  files : Files
  workingDirectory : Text
  nextProcessId : Nat

namespace ScriptedHost

/-- Runs the script of a command. -/
def start (command : Text) (h : ScriptedHost) : StartOutcome ScriptedServer × ScriptedHost :=
  match h.scripts.find? (·.1 = command) with
  | some (_, script) =>
    (.started h.nextProcessId (ScriptedServer.start script),
      { h with nextProcessId := h.nextProcessId + 1 })
  | none =>
    if command.any (·.val == 0) then (.impossible .embeddedNul, h)
    else (.ofMissing h.files h.workingDirectory (command.words.headD []), h)

instance : Host ScriptedHost ScriptedServer := ⟨start⟩

end ScriptedHost

end LanguageClient
