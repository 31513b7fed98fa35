import LanguageClient.Process.Child

/-!
# Scripted children

A scripted child does nothing but give the answers that were written down for it, and
keeps a list of what its parent has done.
-/

namespace LanguageClient

/-- What a parent does to a child. -/
inductive ChildCall where
  | closeInput
  | closeOutput
  | poll
  | terminate
  | pause
  | kill
  | reap
deriving DecidableEq

namespace ChildCall

def name : ChildCall → Text
  | closeInput => "close stdin"
  | closeOutput => "close stdout"
  | poll => "poll"
  | terminate => "terminate"
  | pause => "sleep 0.1"
  | kill => "kill"
  | reap => "wait 1"

end ChildCall

structure ScriptedChild where
  /-- What the parent sees when it asks for the exit code; the last one is repeated. -/
  polls : List (Option Int)
  inputFails : Bool
  outputFails : Bool
  /-- The child does not end within the last wait. -/
  waitTimesOut : Bool
  /-- A byte of output has arrived. -/
  isFed : Bool
  /-- What the parent has done, in order. -/
  calls : List ChildCall

namespace ScriptedChild

def note (call : ChildCall) (c : ScriptedChild) : ScriptedChild :=
  { c with calls := c.calls ++ [call] }

/-- The next answer about the exit code. -/
def poll (c : ScriptedChild) : Option Int × ScriptedChild :=
  match c.polls with
  | [] => (none, c.note .poll)
  | [last] => (last, c.note .poll)
  | code :: rest => (code, { c with polls := rest }.note .poll)

instance : Child ScriptedChild where
  write _ c := (.accepted, c)
  read _ c := (if c.isFed then .data [0] else .wouldBlock, { c with isFed := false })
  hasOutput c := c.isFed
  closeInput c := (!c.inputFails, c.note .closeInput)
  closeOutput c := (!c.outputFails, c.note .closeOutput)
  poll := poll
  terminate := note .terminate
  kill := note .kill
  pause := note .pause
  reap c := (!c.waitTimesOut, c.note .reap)

end ScriptedChild

end LanguageClient
