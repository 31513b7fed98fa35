import LanguageClient.Proofs.Client.Custody
import LanguageClient.Proofs.Client.Image
import LanguageClient.Proofs.Fleet.Start

/-!
# Servers with their numbers

Process ids may come back, so a server is known by the number of its launch.  A `Counting` host
launches what the host that it wraps launches, numbers the servers from zero, and has each of them
watched, which does not show (`Fleet.act_unwatched`).  No call changes the number of a server
(`Client.number_perform`).
-/

namespace LanguageClient

/-! ## Numbered servers -/

/-- A server that has its number. -/
structure Launched (σ : Type) where
  number : Nat
  server : σ

namespace Launched

variable {σ : Type}

/-- The answer of a server, with its number on what is left of it. -/
def keep {α : Type} (s : Launched σ) (answer : α × σ) : α × Launched σ :=
  (answer.1, ⟨s.number, answer.2⟩)

/-- The server after it has done something of its own accord, which may depend on its number. -/
def map (f : Nat → σ → σ) (s : Launched σ) : Launched σ := ⟨s.number, f s.number s.server⟩

variable [Peer σ]

instance : Peer (Launched σ) where
  write bytes s := s.keep (Peer.write bytes s.server)
  await timeout s := s.keep (Peer.await timeout s.server)
  read limit s := s.keep (Peer.read limit s.server)
  isRunning s := Peer.isRunning s.server
  terminate s := ⟨s.number, Peer.terminate s.server⟩

/-- Having a number does not show in the answers. -/
theorem alike (n : Nat) : Peer.Alike (Launched.mk (σ := σ) n) :=
  ⟨fun _ _ => rfl, fun _ _ => rfl, fun _ _ => rfl, fun _ => rfl, fun _ => rfl⟩

end Launched

/-- A server that is numbered and watched. -/
abbrev Tracked (σ : Type) : Type := Watched (Launched σ)

namespace Tracked

variable {σ : Type}

/-- A watched server under a number. -/
def under (n : Nat) (w : Watched σ) : Tracked σ := ⟨⟨n, w.peer⟩, w.contacts⟩

/-- A watched server without its number. -/
def server (w : Tracked σ) : Watched σ := ⟨w.peer.server, w.contacts⟩

def number (w : Tracked σ) : Nat := w.peer.number

/-- The server after it has done something of its own accord. -/
def served (servers : Nat → σ → σ) (w : Tracked σ) : Tracked σ := w.map (.map servers)

variable [Peer σ]

theorem alike_under (n : Nat) : Peer.Alike (under (σ := σ) n) :=
  ⟨fun _ _ => rfl, fun _ _ => rfl, fun _ _ => rfl, fun _ => rfl, fun _ => rfl⟩

end Tracked

namespace Client

variable {σ : Type}

/-- The number of the server. -/
def number (c : Client (Tracked σ)) : Nat := c.connection.peer.peer.number

theorem image_under (c : Client (Tracked σ)) :
    (c.image Tracked.server).image (Tracked.under c.number) = c := rfl

variable [Peer σ]

/-- A call does not change the number of the server. -/
theorem number_perform (c : Client (Tracked σ)) (call : Call) :
    (c.perform call).2.number = c.number := by
  have himage := perform_image (Tracked.alike_under c.number) (c.image Tracked.server) call
  rw [c.image_under] at himage
  rw [himage]
  rfl

omit [Peer σ] in
/-- What does not depend on the number of the server does not change it. -/
theorem number_of_mirrors {α : Type} {action : Operation (Tracked σ) α}
    {unnumbered : Operation (Watched σ) α}
    (h : ∀ n, Attempt.Mirrors (image (Tracked.under n)) unnumbered action) (c : Client (Tracked σ)) :
    (action c).2.number = c.number := by
  have himage := h c.number (c.image Tracked.server)
  rw [c.image_under] at himage
  rw [himage]
  rfl

theorem number_close (c : Client (Tracked σ)) : c.close.number = c.number := by
  rcases c.close_eq with h | h <;> rw [number, h] <;> rfl

end Client

/-! ## Counting launches -/

/-- A host, and how many servers it has launched. -/
structure Counting (η : Type) where
  host : η
  launches : Nat

namespace Counting

variable {η σ : Type}

/-- Notes a launch, if there is one, and has the server watched. -/
def note (h : Counting η) : StartOutcome σ × η → StartOutcome (Tracked σ) × Counting η
  | (.started processId peer, host) =>
    (.started processId (.of ⟨h.launches, peer⟩), ⟨host, h.launches + 1⟩)
  | (.unusable processId peer e, host) =>
    (.unusable processId (.of ⟨h.launches, peer⟩) e, ⟨host, h.launches + 1⟩)
  | (.refused e, host) => (.refused e, ⟨host, h.launches⟩)
  | (.impossible f, host) => (.impossible f, ⟨host, h.launches⟩)

instance [Host η σ] : Host (Counting η) (Tracked σ) where
  start command h := h.note (Host.start command h.host)

end Counting

namespace StartOutcome

variable {σ : Type}

/-- The server that was launched, whether or not it can be used. -/
def launched? : StartOutcome σ → Option σ
  | started _ peer | unusable _ peer _ => some peer
  | _ => none

end StartOutcome

namespace Site

variable {η σ : Type} [Host η σ]

/-- **A launch is counted, and the server has the number that was next.** -/
theorem hostAfter_launches (command : Text) (site : Site (Counting η) (Tracked σ)) :
    ((site.answer? command).bind StartOutcome.launched? = none ∧
        (site.hostAfter command).launches = site.host.launches) ∨
      ∃ peer, (site.answer? command).bind StartOutcome.launched? =
          some (Watched.of ⟨site.host.launches, peer⟩) ∧
        (site.hostAfter command).launches = site.host.launches + 1 := by
  by_cases hwords : command.words = []
  · exact Or.inl ⟨by rw [answer?, if_pos hwords]; rfl, by rw [hostAfter, if_pos hwords]⟩
  · rw [answer?, hostAfter, if_neg hwords, if_neg hwords]
    rcases hstart : Host.start command site.host.host with ⟨outcome, host⟩
    have hnoted : Host.start command site.host = site.host.note (outcome, host) := by
      rw [← hstart]
      rfl
    rw [hnoted]
    cases outcome with
    | started processId peer | unusable processId peer => exact Or.inr ⟨peer, rfl, rfl⟩
    | refused | impossible => exact Or.inl ⟨rfl, rfl⟩

end Site

end LanguageClient
