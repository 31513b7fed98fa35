import LanguageClient.Peer

/-!
# Child processes

A child process is known by what the system lets its parent do: write to its input and
read its output, close these pipes, ask for its exit code, send it signals, and let
time pass.
-/

namespace LanguageClient

/-- A child process as its parent sees it. -/
class Child (κ : Type) where
  /-- Writes to the open input. -/
  write : Bytes → κ → WriteOutcome × κ
  /-- Reads at most so many bytes of the open output. -/
  read : (limit : Nat) → κ → ReadOutcome × κ
  /-- Output, or the end of it, is there to be read. -/
  hasOutput : κ → Bool
  /-- Closes the input; `false` means that the system reports an error and the pipe stays open. -/
  closeInput : κ → Bool × κ
  /-- Closes the output, in the same way. -/
  closeOutput : κ → Bool × κ
  /-- The exit code, once the process has ended. -/
  poll : κ → Option Int × κ
  /-- Asks the process to end. -/
  terminate : κ → κ
  /-- Ends the process. -/
  kill : κ → κ
  /-- Lets a tenth of a second pass. -/
  pause : κ → κ
  /-- Waits a second for the end; `false` means that it has not come. -/
  reap : κ → Bool × κ

end LanguageClient
