import LanguageClient.Number.Binary64
import LanguageClient.SystemError

/-!
# Servers as peers

All that a client knows of a server is what its pipes and its process answer.  A
peer is anything that answers in that way; nothing is assumed about when it is
ready, what it writes, or how long it runs.
-/

namespace LanguageClient

/-- What becomes of bytes written to a server. -/
inductive WriteOutcome where
  | accepted
  /-- Nobody reads at the other end. -/
  | broken
  | failed (error : SystemError)
  /-- The client has closed the pipe itself. -/
  | closed

/-- What a wait for output ends with. -/
inductive Readiness where
  | ready
  | quiet
  /-- The user interrupted the wait. -/
  | interrupted
  /-- The client has stopped watching the pipe itself. -/
  | closed
deriving DecidableEq

inductive ReadOutcome where
  | data (bytes : Bytes)
  /-- There is nothing to read at the moment. -/
  | wouldBlock
  /-- There is nothing more to come. -/
  | ended
  | failed (error : SystemError)
  /-- The client has closed the pipe itself. -/
  | closed

/-- A server process with its pipes. -/
class Peer (σ : Type) where
  /-- Writes to the server's input. -/
  write : Bytes → σ → WriteOutcome × σ
  /-- Waits for output, at most so many seconds. -/
  await : Binary64 → σ → Readiness × σ
  /-- Reads at most so many bytes of output. -/
  read : (limit : Nat) → σ → ReadOutcome × σ
  /-- The process has not ended. -/
  isRunning : σ → Bool
  /-- Closes the pipes and stops the process. -/
  terminate : σ → σ

end LanguageClient
