import LanguageClient.Proofs.Client.Image
import LanguageClient.Proofs.Rpc.Turns

/-!
# The last words of a server

Asking the client of an ended server for events hands on what the server had written, one frame at a
time; but whenever the turn of something comes that is no event, the end of the server is reported,
although events may still be waiting behind it.  Main statement: `polls_of_ended`.

```text
whose turn it is                                       what asking for an event gives
a notification or a request of the server              what it is taken for
a response, a bad header, a bad body                   the end of the server
nothing complete                                       the end of the server
```

## Strategy

What is made of a message does not depend on the state of the client (`lastAnswer_eq`), and the end of
the server is never said of a message (`interpret_ne_crashed`).  So the answers can be read off what is
taken; the run is an induction over the number of polls.
-/

namespace LanguageClient

namespace Client

open LanguageClient.Connection

variable {σ : Type} {d : Delivery}

/-- The event that a message is, if it is one. -/
def eventIn (c : Client σ) (m : Members) : Option ServerEvent := (interpret m c).1.toOption

/-- What asking for an event gives when the server has ended, by what is taken. -/
def lastAnswer (c : Client σ) : Except Fault (Option Members) → Except (Stop ClientError) Answer
  | .ok (some m) => (interpret m c).1.map fun e => .event (some e)
  | .ok none => .error (.failed .crashed)
  | .error f => .error (.faulted f)

/-- The event that was asked for and came. -/
def delivered : Except (Stop ClientError) Answer → Option ServerEvent
  | .ok (.event found) => found
  | _ => none

/-! ## What is made of a message -/

theorem interpret_eq (m : Members) (c c' : Client σ) : (interpret m c).1 = (interpret m c').1 := by
  obtain ⟨result, hresult⟩ := interpret_apply (σ := σ) m
  obtain ⟨d, -, h⟩ := hresult c
  obtain ⟨d', -, h'⟩ := hresult c'
  rw [h, h']

theorem lastAnswer_eq (c c' : Client σ) : c.lastAnswer = c'.lastAnswer := by
  funext taken
  rcases taken with f | (_ | m)
  · rfl
  · rfl
  · rw [lastAnswer, lastAnswer, interpret_eq m c c']

theorem delivered_lastAnswer (c : Client σ) (taken : Except Fault (Option Members)) :
    delivered (c.lastAnswer taken) = taken.toOption.join.bind c.eventIn := by
  rcases taken with f | (_ | m)
  · rfl
  · rfl
  · show delivered ((interpret m c).1.map fun e => .event (some e)) = (interpret m c).1.toOption
    cases (interpret m c).1 <;> rfl

theorem event_ne_crashed (method : Method) (m : Members) (c : Client σ) :
    (event method m c).1 ≠ .error (.failed .crashed) := by
  cases method with
  | showMessage =>
      unfold event
      cases Message.serverMessage m with
      | error e => exact fun h => nomatch h
      | ok message => exact fun h => nomatch h
  | logMessage =>
      unfold event
      cases Message.serverMessage m with
      | error e => exact fun h => nomatch h
      | ok message => exact fun h => nomatch h
  | publishDiagnostics =>
      unfold event
      rcases Message.diagnostics m with flaw | (e | diagnostics)
      · exact fun h => nomatch h
      · exact fun h => nomatch h
      · rcases subjectOf m with flaw | path
        · exact fun h => nomatch h
        · exact fun h => nomatch h
  | _ => exact fun h => nomatch h

/-- That the server has ended is never said of a message. -/
theorem interpret_ne_crashed (m : Members) (c : Client σ) :
    (interpret m c).1 ≠ .error (.failed .crashed) := by
  unfold interpret
  rcases Message.classify (.obj m) with e | kind
  · exact fun h => nomatch h
  · rcases Message.method (.obj m) with e | method
    · exact fun h => nomatch h
    · cases kind with
      | request => exact fun h => nomatch h
      | _ => exact event_ne_crashed method m c

theorem lastAnswer_eq_crashed {c : Client σ} {taken : Except Fault (Option Members)} :
    c.lastAnswer taken = .error (.failed .crashed) ↔ taken = .ok none := by
  constructor
  · intro h
    rcases taken with f | (_ | m)
    · cases h
    · rfl
    · rw [lastAnswer] at h
      refine absurd ?_ (interpret_ne_crashed m c)
      generalize (interpret m c).1 = result at h
      cases result with
      | error stop => cases h; rfl
      | ok found => cases h
  · rintro rfl
    rfl

/-! ## Polls -/

variable [Peer σ]

/-- One poll when the server has ended. -/
theorem poll_of_ended {c : Client σ} (hphase : c.phase ≠ .closed)
    (h : Peer.Ended c.connection.peer d) :
    ∃ taken d', (c.perform .poll).1 = c.lastAnswer taken ∧
      (c.perform .poll).2.phase ≠ .closed ∧ Peer.Ended (c.perform .poll).2.connection.peer d' ∧
      ∀ n, c.connection.takings d (n + 1) =
        taken :: (c.perform .poll).2.connection.takings d' n := by
  obtain ⟨taken, d', hgives, hended, htakings⟩ := next_of_ended h
  have hexchange := exchange_apply (Connection.next (σ := σ)) c
  refine ⟨taken, d', ?_⟩
  have hperform : c.perform .poll = outcomeOf .event (poll c) := rfl
  rw [hperform]
  unfold poll
  rw [Attempt.bind_of_ok (Attempt.get_apply c)]
  simp only [hphase, if_false]
  rcases hnext : Connection.next c.connection with ⟨result, k⟩
  rw [hnext] at hgives hended htakings hexchange
  have hrunning : ({ c with connection := k } : Client σ).isRunning = false := hended.stopped []
  cases hgives with
  | message m =>
      obtain ⟨result, hinterpret⟩ := interpret_apply (σ := σ) m
      obtain ⟨k', hremarked, hrun⟩ := hinterpret { c with connection := k }
      obtain ⟨_, -, hrun'⟩ := hinterpret c
      rw [Attempt.bind_of_ok hexchange, lastAnswer, hrun']
      simp only [outcomeOf, Attempt.bind_apply, hrun]
      cases hremarked <;> cases result <;> exact ⟨rfl, hphase, hended, htakings⟩
  | nothing =>
      rw [Attempt.bind_of_ok hexchange]
      simp only [Attempt.bind_apply, Attempt.get_apply, hrunning]
      exact ⟨rfl, hphase, hended, htakings⟩
  | failure e =>
      rw [Attempt.bind_of_ok hexchange]
      simp only [Attempt.bind_apply, Attempt.get_apply, hrunning]
      exact ⟨rfl, hphase, hended, htakings⟩
  | fault f =>
      rw [Attempt.bind_of_error hexchange]
      exact ⟨rfl, hphase, hended, htakings⟩

/-- What repeated polls give is what is taken, read as an answer. -/
theorem results_polls {c : Client σ} (hphase : c.phase ≠ .closed)
    (h : Peer.Ended c.connection.peer d) (n : Nat) :
    (c.results (List.replicate n (.call .poll))).1 =
      (c.connection.takings d n).map c.lastAnswer := by
  induction n generalizing c d with
  | zero => simp [takings, Frame.turns, results]
  | succ n ih =>
      obtain ⟨taken, d', hresult, hphase', hended, htakings⟩ := poll_of_ended hphase h
      rw [List.replicate_succ, results, htakings, List.map_cons, hresult, ih hphase' hended,
        lastAnswer_eq (c.perform .poll).2 c]

/-- **The last words of a server.**  A client whose server has ended, by whatever schedule its output
still comes, is asked for events again and again.  The answers are those of what is taken, in its
order; with enough calls every notification of the inbox and of the stream is handed on, none twice
and none out of turn.  But the end of the server is reported before an event if and only if something
that is no message, or nothing complete, has its turn before the event. -/
theorem polls_of_ended {c : Client σ} (hphase : c.phase ≠ .closed)
    (h : Peer.Ended c.connection.peer d) (n : Nat) :
    let results := (c.results (List.replicate n (.call .poll))).1
    let takings := c.connection.takings d n
    let stream := (Frame.parts (c.connection.buffer ++ d.bytes)).1
    results = takings.map c.lastAnswer ∧
      (c.connection.inbox.length + (d.arrivals.length + stream.length) ≤ n →
        results.filterMap delivered =
          (c.connection.inbox ++ stream.filterMap Frame.Part.passed?).filterMap c.eventIn) ∧
      (results.Pairwise (fun earlier later =>
          earlier = .error (.failed .crashed) → delivered later = none) ↔
        takings.Pairwise fun earlier later =>
          earlier = .ok none → later.toOption.join.bind c.eventIn = none) := by
  intro results takings stream
  have hresults : results = takings.map c.lastAnswer := results_polls hphase h n
  refine ⟨hresults, fun hn => ?_, ?_⟩
  · rw [← filterMap_takings hn, hresults, List.filterMap_map, List.filterMap_filterMap]
    exact List.filterMap_congr fun taken _ => delivered_lastAnswer c taken
  · rw [hresults, List.pairwise_map]
    simp only [lastAnswer_eq_crashed, delivered_lastAnswer]

/-- A server answers a request nobody waits for, says goodbye, and is gone. -/
def farewell : List Arrival :=
  [.chunk (Frame.encode (.object [("id", .int 7), ("result", .null)])) (by decide +kernel)
      (by decide +kernel),
    .chunk (Frame.encode (.object [("method", .ofString "window/showMessage"),
      ("params", .object [("type", .int 3), ("message", .ofString "bye")])])) (by decide +kernel)
      (by decide +kernel)]

/-- The end of the server is reported, and then it says goodbye. -/
theorem polls_of_ended_farewell :
    let c : Client ScriptedServer := attach (.leaving farewell) 1 "/" .zero 1
    ∃ late bye, (c.results [.call .poll, .call .poll]).1 = [late, bye] ∧
      late = .error (.failed .crashed) ∧ (delivered bye).isSome = true := by
  intro c
  obtain ⟨hresults, -, -⟩ := polls_of_ended (c := c) (d := ⟨farewell, .closed⟩) (by decide)
    (ScriptedServer.ended_leaving farewell) 2
  -- of what is taken only this is computed: whether it is a message, and whether it is an event
  have hkinds : (c.connection.takings ⟨farewell, .closed⟩ 2).map (fun taken =>
      (taken.toOption.map Option.isSome, (taken.toOption.join.bind c.eventIn).isSome)) =
        [(some false, false), (some true, true)] := by
    decide +kernel
  obtain ⟨first, rest, htaken, hfirst, hrest⟩ := List.map_eq_cons_iff.mp hkinds
  obtain ⟨second, nothing, rfl, hsecond, hnil⟩ := List.map_eq_cons_iff.mp hrest
  obtain rfl := List.map_eq_nil_iff.mp hnil
  rw [htaken] at hresults
  refine ⟨_, _, hresults, ?_, ?_⟩
  · rcases first with f | (_ | m)
    · cases hfirst
    · rfl
    · cases hfirst
  · rw [delivered_lastAnswer]
    exact congrArg Prod.snd hsecond

end Client

end LanguageClient
