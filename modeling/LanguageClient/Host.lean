import LanguageClient.Fault
import LanguageClient.Peer

/-!
# Hosts

A host starts programs.  A command is a program and its arguments between blanks;
there is no quoting.  What becomes of a command depends on the host, which may change
with every start.

A program without a directory in its name is looked for in the places that the system
keeps programs in.  A program that is not there, or that is a file which may not be
executed, is refused with the error of the system.
-/

namespace LanguageClient

/-- What comes of asking a host to start a program. -/
inductive StartOutcome (σ : Type) where
  | started (processId : Nat) (peer : σ)
  /-- The program runs, but its output cannot be made to return at once. -/
  | unusable (processId : Nat) (peer : σ) (error : SystemError)
  | refused (error : SystemError)
  /-- The command cannot be handed to the system at all. -/
  | impossible (fault : Fault)

/-- A host whose programs are peers of type `σ`. -/
class Host (η : Type) (σ : outParam Type) where
  /-- Starts the program of a command with at least one word. -/
  start : (command : Text) → η → StartOutcome σ × η

/-- How a program is refused that a host does not know; `files` is where paths lead. -/
def StartOutcome.ofMissing {σ : Type} (files : Files) (cwd program : Text) : StartOutcome σ :=
  let refused (code : SystemCode) : StartOutcome σ := .refused ⟨code, some program⟩
  if program.contains Path.slash then
    match files.locate cwd program with
    | .ok (.found _ _) => refused .permissionDenied
    | .ok (.free _) => refused .noEntry
    | .error (.system code) => refused code
    | .error e => .impossible (.ofFile program e)
  else if program.all (· == Path.dot) && program.length ≤ 2 then refused .permissionDenied
  else match files.locate cwd program with
    | .error (.system .nameTooLong) => refused .nameTooLong
    | .error .embeddedNul => .impossible .embeddedNul
    | .error (.notEncodable e) => .impossible (.notEncodable e)
    | _ => refused .noEntry

/-- Why a server could not be started. -/
inductive LaunchError where
  | emptyCommand
  | refused (error : SystemError)
  /-- The server's output could not be made to return at once. -/
  | blocking (error : SystemError)
deriving DecidableEq

def LaunchError.message : LaunchError → Text
  | emptyCommand => "lsp: server start failed: empty command"
  | refused e => "lsp: server start failed: " ++ e.message
  | blocking e => "lsp: setNonBlockingOutput failed: " ++ e.message

end LanguageClient
