import LanguageClient.Proofs.Client.Operations
import LanguageClient.Proofs.Rpc.Cycles

/-!
# Requests whose answers are there already

A request is written once, and then its client makes so many poll cycles for the response.  If the
output of the server is there already when the request has been written, it is known which messages the
client will read, and in which cycle.  Main statement: `request_within`.

## Strategy

What follows the write is a wait for output that is there (`Connection.Offers`), whose cycles are
known from `Connection.Offers.wait_cycles` and `Connection.Offers.wait_ok_iff`.  What is left to say
is that the write is the only one, since a wait listens, and that a remark in the journal changes
nothing.
-/

namespace LanguageClient.Client

open LanguageClient.Connection LanguageClient.Frame

variable {σ : Type} [Peer σ]

/-- The bytes of the request that a client makes next. -/
def nextFrame (c : Client σ) (method : Method) (params : Json) : Bytes :=
  frameOf (outgoing (some (.int c.nextId)) method.wireName params)

theorem send_of_accepted {c : Connection σ} {message : Members}
    (h : (Peer.write (Frame.encode (.obj message)) c.peer).1 = .accepted) (method : Text) :
    send method message c =
      (.ok (), { c with
        peer := (Peer.write (Frame.encode (.obj message)) c.peer).2
        journal := c.journal ++ [.traffic .send message] }) := by
  unfold send
  simp only [Attempt.bind_apply, Attempt.get_apply, Attempt.set_apply, h]
  rfl

omit [Peer σ] in
/-- A remark says nothing of the server and of the messages. -/
theorem Remarked.same {d d' : Connection σ} (h : Remarked d d') :
    d'.peer = d.peer ∧ d'.inbox = d.inbox ∧ d'.received = d.received := by
  cases h with
  | not => exact ⟨rfl, rfl, rfl⟩
  | once => simp [received, Entry.received?]

/-- What goes out in a wait is nothing. -/
theorem written_wait (more : Nat) (id : Json) (c : Connection (Watched σ)) :
    (wait more id c).2.peer.contacts.filterMap Contact.written? =
      c.peer.contacts.filterMap Contact.written? := by
  obtain ⟨t, hhears⟩ := listens_wait more id c
  rw [hhears.carries.contacts_eq, List.filterMap_append,
    Contact.filterMap_written? hhears.listening, List.append_nil]

/-- **A request is answered if and only if its response comes in time.**  The request is written, and
some messages are there to be read, cut into arrivals in any way.  Let the first of them that answers the
request come behind `before`, and let some reads that are made until it is complete be in vain.  The
request is answered by it if and only if one cycle for each of these, and one more, are no more cycles
than the client makes; it is answered by no other message.

However it ends, the request is written exactly once; the wait is made up of at most as many cycles as
there are to be, of which all but the last have brought no answer; the messages that were read are the
first of those that were there, and the notifications and requests among them are kept in their order;
and a wait without an answer uses all cycles, and ends as the last one does. -/
theorem request_within {c : Client (Watched σ)} {d : Delivery} {frames : List Members}
    (method : Method) (params : Json) (hcycles : 0 < c.cycles)
    (hwrite : (Peer.write (c.nextFrame method params) c.connection.peer).1 = .accepted)
    (hholds : Peer.Holds (Peer.write (c.nextFrame method params) c.connection.peer).2 d)
    (hframes : (parts (c.connection.buffer ++ d.bytes)).1.map Part.result =
      frames.map Except.ok) :
    let id : Json := .int c.nextId
    let result := (request method params c).1
    let after := (request method params c).2.connection
    (∀ m, result = .ok (.ok m) ↔ ∃ before later, frames = before ++ m :: later ∧
      (∀ b ∈ before, ¬Answers id b) ∧ Answers id m ∧
      before.length + vain c.connection.buffer d.arrivals before.length + 1 ≤ c.cycles) ∧
    after.peer.contacts.filterMap Contact.written? =
      c.connection.peer.contacts.filterMap Contact.written? ++
        [(c.nextFrame method params, .accepted)] ∧
    (∃ sent n, Connection.request id method.wireName params c.connection = (.ok (), sent) ∧
      n < c.cycles ∧ result = settled (cycle id n sent).1 ∧ Remarked (cycle id n sent).2 after ∧
      (∀ i < n, Unanswered (cycle id i sent).1) ∧
      ((∃ m, result = .ok (.ok m)) ∨
        n + 1 = c.cycles ∧ ∃ e, result = .ok (.error e) ∧ Unanswered (.error (.failed e)))) ∧
    ∃ read, read <+: frames ∧
      after.inbox = c.connection.inbox ++ read.filter (·.has "method") ∧
      after.received = c.connection.received ++ read := by
  intro id result after
  obtain ⟨sent, hsent, hpeer, hbuffer, hinbox, hreceived⟩ :
      ∃ sent, Connection.request id method.wireName params c.connection = (.ok (), sent) ∧
        sent.peer = (Peer.write (c.nextFrame method params) c.connection.peer).2 ∧
        sent.buffer = c.connection.buffer ∧ sent.inbox = c.connection.inbox ∧
        sent.received = c.connection.received :=
    ⟨_, send_of_accepted hwrite _, rfl, rfl, rfl, by simp [received, Entry.received?]⟩
  have hoffers : Offers sent d frames := ⟨hpeer ▸ hholds, hbuffer ▸ hframes⟩
  obtain ⟨n, hn, hwait, hidle, hend⟩ := hoffers.wait_cycles id (c.cycles - 1)
  have hcalled : callRepeatedly c.cycles id method.wireName params c.connection = cycle id n sent :=
    (callRepeatedly_of_sent hsent).trans hwait
  obtain ⟨d', hremarked, hrequest⟩ := request_remarked method params c
  rw [hcalled] at hremarked hrequest
  have hresult : result = settled (cycle id n sent).1 := congrArg Prod.fst hrequest
  obtain rfl : after = d' := congrArg (·.2.connection) hrequest
  obtain ⟨hpeer', hinbox', hreceived'⟩ := hremarked.same
  refine ⟨fun m => ?_, ?_, ⟨sent, n, hsent, by omega, hresult, hremarked, hidle, ?_⟩, ?_⟩
  · have hok : result = .ok (.ok m) ↔ (wait (c.cycles - 1) id sent).1 = .ok m := by
      rw [hresult, hwait]
      rcases (cycle id n sent).1 with (e | f) | m' <;> simp [settled]
    rw [hok, hoffers.wait_ok_iff, hbuffer]
    simp only [Nat.le_sub_iff_add_le hcycles]
  · have hcontacts : (Peer.write (c.nextFrame method params) c.connection.peer).2.contacts =
        c.connection.peer.contacts ++ [.wrote (c.nextFrame method params) .accepted] :=
      congrArg (fun outcome => c.connection.peer.contacts ++ [Contact.wrote _ outcome]) hwrite
    rw [hpeer', ← hwait, written_wait, hpeer, hcontacts, List.filterMap_append]
    rfl
  · rw [hresult]
    rcases hend with ⟨m, hm⟩ | ⟨rfl, hlast⟩
    · exact Or.inl ⟨m, by rw [hm]; rfl⟩
    · obtain ⟨e, he, -⟩ := hlast.retryable
      exact Or.inr ⟨by omega, e, by rw [he]; rfl, he ▸ hlast⟩
  · obtain ⟨read, hprefix, hinboxes, hall⟩ := hoffers.taken id (n + 1)
    rw [cycles_succ] at hinboxes hall
    exact ⟨read, hprefix, by rw [hinbox', hinboxes, hinbox], by rw [hreceived', hall, hreceived]⟩

/-- A server makes a remark, and then answers the first request. -/
def remarkAndAnswer : List Members :=
  [[("method", .null)], [("id", .int 1), ("result", .null)]]

/-- Both come together, but for the first bytes of the remark. -/
def lateArrivals : List Arrival :=
  [.chunk ((remarkAndAnswer.flatMap frameOf).take 7) (by decide +kernel) (by decide +kernel),
    .chunk ((remarkAndAnswer.flatMap frameOf).drop 7) (by decide +kernel) (by decide +kernel)]

theorem fit_remarkAndAnswer : Fit remarkAndAnswer :=
  List.forall_mem_cons.mpr ⟨(by decide +kernel : Reading.IsShort (bodyOf _).length),
    List.forall_mem_cons.mpr ⟨(by decide +kernel : Reading.IsShort (bodyOf _).length),
      List.forall_mem_nil _⟩⟩

theorem plain_remarkAndAnswer : ∀ m ∈ remarkAndAnswer, (Json.obj m).Plain := by
  simp only [remarkAndAnswer, List.forall_mem_cons]
  refine ⟨.obj (by decide) (by decide +kernel) ?_, .obj (by decide) (by decide +kernel) ?_,
    List.forall_mem_nil _⟩
  · simpa using Json.Plain.null
  · simpa using ⟨Json.Plain.int (by decide), Json.Plain.null⟩

/-- The first arrival completes nothing, and the second one both. -/
theorem vain_lateArrivals : vain [] lateArrivals 1 = 1 := by
  have hfirst : complete ((remarkAndAnswer.flatMap frameOf).take 7) = 0 :=
    complete_of_none (take?_of_first?_none (by decide +kernel))
  have hboth : complete (remarkAndAnswer.flatMap frameOf) = 2 :=
    congrArg (·.1.length) (parts_frames fit_remarkAndAnswer)
  have hnone : complete [] = 0 := complete_of_none take?_nil
  simp only [lateArrivals, vain, Arrival.bytes, List.nil_append, List.take_append_drop, hfirst,
    hboth, hnone]
  rfl

/-- A client that makes so many cycles, with the server. -/
def patient (cycles : Nat) : Client (Watched ScriptedServer) :=
  attach (.of (.holding lateArrivals [])) 1 "/" .zero cycles

/-- One cycle is in vain, and one takes the remark; so three are enough, and two are not. -/
theorem request_within_late :
    (∃ m, (request .shutdown .null (patient 3)).1 = .ok (.ok m)) ∧
      ¬∃ m, (request .shutdown .null (patient 2)).1 = .ok (.ok m) := by
  have hbytes : Delivery.bytes ⟨lateArrivals, .quiet⟩ = remarkAndAnswer.flatMap frameOf := by
    simp [Delivery.bytes, lateArrivals, Arrival.bytes]
  have hframes : (parts ([] ++ Delivery.bytes ⟨lateArrivals, .quiet⟩)).1.map Part.result =
      remarkAndAnswer.map Except.ok := by
    rw [List.nil_append, hbytes, results_frames fit_remarkAndAnswer plain_remarkAndAnswer]
  have hanswered := fun n hcycles =>
    (request_within (c := patient n) (d := ⟨lateArrivals, .quiet⟩) .shutdown .null hcycles rfl
      (ScriptedServer.holds_written lateArrivals [] _ []) hframes).1
  have hremark : ¬Answers (.int 1) [("method", .null)] := fun h => absurd h.1 (by decide)
  have hanswer : Answers (.int 1) [("id", .int 1), ("result", .null)] :=
    ⟨by decide, by decide +kernel⟩
  constructor
  · exact ⟨_, (hanswered 3 (by decide) _).mpr
      ⟨[_], [], rfl, List.forall_mem_singleton.mpr hremark, hanswer, Nat.le_of_eq (by
        change 1 + vain [] lateArrivals 1 + 1 = 3
        rw [vain_lateArrivals])⟩⟩
  · rintro ⟨m, hm⟩
    obtain ⟨before, later, hsplit, -, hanswers, hcycles⟩ := (hanswered 2 (by decide) m).mp hm
    cases before with
    | nil =>
        -- the first message is the remark, which is no answer
        obtain rfl := (List.cons.inj hsplit).1
        exact hremark hanswers
    | cons b rest =>
        have hlength : 2 = (b :: rest).length + (m :: later).length :=
          (congrArg List.length hsplit).trans List.length_append
        obtain rfl : rest = [] := List.length_eq_zero_iff.mp (by
          simp only [List.length_cons] at hlength
          omega)
        change 1 + vain [] lateArrivals 1 + 1 ≤ 2 at hcycles
        rw [vain_lateArrivals] at hcycles
        exact absurd hcycles (by decide)

end LanguageClient.Client
