import LanguageClient.Peer

/-!
# A server that is watched

What a client does with its server is what it asks of the server's pipes and process.  A `Watched`
server behaves as the server that it wraps, and keeps a list of all that was asked of it and of what
it answered (`Contact`).  The client cannot see the list (`Client.run_unwatched`), so what is proved
of the list is proved of what any server would have seen.
-/

namespace LanguageClient

/-- Something that was asked of a server, and what it answered. -/
inductive Contact where
  | wrote (bytes : Bytes) (outcome : WriteOutcome)
  | awaited (readiness : Readiness)
  | read (outcome : ReadOutcome)
  | terminated

def WriteOutcome.isAccepted : WriteOutcome → Bool
  | accepted => true
  | _ => false

namespace Contact

/-- An attempt to write, and what became of it. -/
def written? : Contact → Option (Bytes × WriteOutcome)
  | wrote bytes outcome => some (bytes, outcome)
  | _ => none

/-- Bytes that reached the server. -/
def accepted? : Contact → Option Bytes
  | wrote bytes .accepted => some bytes
  | _ => none

/-- A read of the output. -/
def read? : Contact → Option ReadOutcome
  | read outcome => some outcome
  | _ => none

/-- The output that was read. -/
def output : Contact → Bytes
  | read (.data bytes) => bytes
  | _ => []

/-- The contact concerns the server's output only. -/
def isListening : Contact → Bool
  | awaited _ | read _ => true
  | _ => false

end Contact

/-- A server, and all that has been asked of it. -/
structure Watched (σ : Type) where
  peer : σ
  contacts : List Contact

namespace Watched

variable {σ : Type}

/-- A server of which nothing has been asked yet. -/
def of (peer : σ) : Watched σ := ⟨peer, []⟩

/-- The server after it has done something of its own accord. -/
def map (f : σ → σ) (w : Watched σ) : Watched σ := { w with peer := f w.peer }

/-- Notes what was asked, and the server after it. -/
def note {α : Type} (contact : α → Contact) (w : Watched σ) (answer : α × σ) : α × Watched σ :=
  (answer.1, ⟨answer.2, w.contacts ++ [contact answer.1]⟩)

variable [Peer σ]

instance : Peer (Watched σ) where
  write bytes w := w.note (.wrote bytes) (Peer.write bytes w.peer)
  await timeout w := w.note .awaited (Peer.await timeout w.peer)
  read limit w := w.note .read (Peer.read limit w.peer)
  isRunning w := Peer.isRunning w.peer
  terminate w := ⟨Peer.terminate w.peer, w.contacts ++ [.terminated]⟩

end Watched

end LanguageClient
