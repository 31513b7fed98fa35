import LanguageClient.Journal
import LanguageClient.Process.Child

/-!
# Supervision

A supervised process is a child with its two pipes and a watch on its output.  Stopping
it closes the pipes, asks the process to end, gives it half a second, and ends it by
force if it is still there.

Stopping can be repeated.  A pipe that the system would not close is closed again; a
process that has ended is left alone.
-/

namespace LanguageClient

/-- The parent's end of a pipe. -/
inductive PipeState where
  | absent
  | opened
  | closed
deriving DecidableEq

structure Supervised (κ : Type) where
  child : κ
  /-- The program and its arguments. -/
  command : List Text
  input : PipeState
  output : PipeState
  /-- The watch on the output has not been closed. -/
  isWatched : Bool
  journal : Journal

namespace Supervised

variable {κ : Type}

/-- Takes a child that has just been started under supervision. -/
def attach (child : κ) (command : List Text) : Supervised κ :=
  ⟨child, command, .opened, .opened, true, []⟩

variable [Child κ]

/-! ## Pipes -/

def write (bytes : Bytes) (s : Supervised κ) : WriteOutcome × Supervised κ :=
  if s.input ≠ .opened then (.closed, s)
  else
    let (outcome, child) := Child.write bytes s.child
    (outcome, { s with child := child })

/-- How much is read at once. -/
def readLimit : Nat := 65536

def read (limit : Nat) (s : Supervised κ) : ReadOutcome × Supervised κ :=
  if s.output ≠ .opened then (.closed, s)
  else
    let (outcome, child) := Child.read limit s.child
    (outcome, { s with child := child })

/-- Reads until there is nothing to read, at most so many times; nothing if the output is closed. -/
def readAll (s : Supervised κ) : (reads : Nat) → Option Bytes × Supervised κ
  | 0 => (some [], s)
  | reads + 1 =>
    match s.read readLimit with
    | (.data bytes, s) =>
      let (more, s) := s.readAll reads
      (more.map (bytes ++ ·), s)
    | (.closed, s) => (none, s)
    | (_, s) => (some [], s)

/-- Waits for output, or the end of it. -/
def await (s : Supervised κ) : Readiness :=
  if s.output ≠ .opened then .quiet
  else if !s.isWatched then .closed
  else if Child.hasOutput s.child then .ready
  else .quiet

/-- Closes the input if it is open. -/
def closeInput (s : Supervised κ) : Supervised κ :=
  if s.input ≠ .opened then s
  else
    let (done, child) := Child.closeInput s.child
    { s with child := child, input := if done then .closed else .opened }

/-- Closes the output if it is open. -/
def closeOutput (s : Supervised κ) : Supervised κ :=
  if s.output ≠ .opened then s
  else
    let (done, child) := Child.closeOutput s.child
    { s with child := child, output := if done then .closed else .opened }

/-! ## The process -/

def poll : StateM (Supervised κ) (Option Int) := fun s =>
  let (code, child) := Child.poll s.child
  (code, { s with child := child })

def act (f : κ → κ) : StateM (Supervised κ) Unit := modify fun s => { s with child := f s.child }

def remark (level : Level) (text : Text) : StateM (Supervised κ) Unit :=
  modify fun s => { s with journal := s.journal ++ [.remark level text] }

/-- Waits for the end of the process, looking at it at most `looks` times. -/
def awaitEnd : (looks : Nat) → StateM (Supervised κ) Unit
  | 0 => return
  | looks + 1 => do
    if (← poll).isSome then return
    act Child.pause
    awaitEnd looks

/-- How often the process is looked at between the request to end and the use of force. -/
def patience : Nat := 5

/-- Ends the process if it has not ended: first by asking, then by force. -/
def endProcess : StateM (Supervised κ) Unit := do
  if (← poll).isSome then return
  act Child.terminate
  awaitEnd patience
  if (← poll).isSome then return
  remark .warning "Language server did not terminate gracefully, forcing kill"
  act Child.kill
  let (done, child) := Child.reap (← get).child
  modify fun s => { s with child := child }
  if !done then remark .error "Language server failed to terminate even after kill signal"

/-- Closes the pipes and ends the process. -/
def stop (s : Supervised κ) : Supervised κ :=
  (endProcess { s with isWatched := false }.closeInput.closeOutput).2

instance : Peer (Supervised κ) where
  write := write
  await _ s := (s.await, s)
  read := read
  isRunning s := (poll s).1.isNone
  terminate := stop

end Supervised

end LanguageClient
