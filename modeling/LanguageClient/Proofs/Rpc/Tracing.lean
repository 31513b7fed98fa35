import LanguageClient.Proofs.Rpc.Image
import LanguageClient.Proofs.Rpc.Waiting
import LanguageClient.Proofs.Trace

/-!
# A connection with a trace

Whatever works with a server over a connection (`Connected`) can be given a trace: after each thing
that it does, it hands its journal over, and the trace records the messages in it (`Traced`).  What
is done gives what it gives without a trace, and leaves behind it what it leaves without one; and the
trace makes one attempt for each message that passed on the wire, in the order in which they passed.
Main statement: `Act.faithful`, of all that can be followed by a trace (`Act.Traceable`), and with it
`Connection.faithful`.

## Strategy

```text
blind      what is done does not depend on what is in the journal, which is added to at its end
in turn    what is done writes first and listens then, and its messages are those of the journal
```

By the first, a run with a trace can be seen from the run without one (`tracedBy`): hand over the
journal of the end, and record all of it at once.  This is so after each step, as recording goes on
where it stopped (`Trace.followWith_append`).  By the second, the messages in the journal are the
messages on the wire (`Shows.wire_eq`).
-/

namespace LanguageClient

/-! ## Messages on the wire -/

/-- The messages that passed, in order. -/
def Connection.wire {σ : Type} (c : Connection σ) : List (Direction × Members) :=
  c.journal.filterMap Entry.traffic?

/-- The messages that passed when there was writing first, and listening after it. -/
def Traffic.wire (t : Traffic) : List (Direction × Members) :=
  t.sent.map (Direction.send, ·) ++ t.read.map (Direction.receive, ·)

theorem Entry.traffic?_of_unread {entry : Entry} (h : entry.received? = none) :
    entry.traffic? = entry.sent?.map (Direction.send, ·) := by
  rcases entry with ⟨level, text⟩ | ⟨_ | _, message⟩
  · rfl
  · rfl
  · cases h

theorem Entry.traffic?_of_unsent {entry : Entry} (h : entry.sent? = none) :
    entry.traffic? = entry.received?.map (Direction.receive, ·) := by
  rcases entry with ⟨level, text⟩ | ⟨_ | _, message⟩
  · rfl
  · cases h
  · rfl

/-- Where nothing came in, the messages are those that went out. -/
theorem traffic_of_unread {entries : Journal} (h : entries.filterMap Entry.received? = []) :
    entries.filterMap Entry.traffic? =
      (entries.filterMap Entry.sent?).map (Direction.send, ·) := by
  rw [List.map_filterMap]
  exact List.filterMap_congr fun entry hmem =>
    Entry.traffic?_of_unread (List.filterMap_eq_nil_iff.mp h entry hmem)

/-- Where nothing went out, the messages are those that came in. -/
theorem traffic_of_unsent {entries : Journal} (h : entries.filterMap Entry.sent? = []) :
    entries.filterMap Entry.traffic? =
      (entries.filterMap Entry.received?).map (Direction.receive, ·) := by
  rw [List.map_filterMap]
  exact List.filterMap_congr fun entry hmem =>
    Entry.traffic?_of_unsent (List.filterMap_eq_nil_iff.mp h entry hmem)

namespace Connection

variable {σ : Type} {c c' : Connection (Watched σ)} {t : Traffic}

/-- What is noted of traffic are its messages. -/
theorem Carries.exists_entries (h : Carries c c' t) :
    ∃ entries, c'.journal = c.journal ++ entries ∧ entries.filterMap Entry.sent? = t.sent ∧
      entries.filterMap Entry.received? = t.read := by
  obtain ⟨entries, hentries⟩ := h.grows
  have hsent := h.sent_eq
  have hreceived := h.received_eq
  rw [sent, ← hentries, List.filterMap_append] at hsent
  rw [received, ← hentries, List.filterMap_append] at hreceived
  exact ⟨entries, hentries.symm, List.append_cancel_left hsent, List.append_cancel_left hreceived⟩

/-- **What is noted are the messages that passed, in their order.** -/
theorem InTurn.wire_eq (h : InTurn c c' t) : c'.wire = c.wire ++ t.wire := by
  obtain @⟨mid, written, heard, hwritten, -, hparts, hheard, hlistening⟩ := h
  have hunread : written.read = [] := by rw [Traffic.read, hparts]; rfl
  have hunsent : heard.sent = [] := hheard.sent_eq_nil hlistening
  obtain ⟨entries, hmid, hsent, hnone⟩ := hwritten.exists_entries
  obtain ⟨entries', hlast, hnone', hread⟩ := hheard.exists_entries
  rw [wire, hlast, hmid, List.filterMap_append, List.filterMap_append, List.append_assoc,
    traffic_of_unread (hnone.trans hunread), traffic_of_unsent (hnone'.trans hunsent), hsent, hread,
    Traffic.wire, Traffic.sent_append, Traffic.read_append, hunread, hunsent, List.append_nil]
  rfl

end Connection

/-! ## What works over a connection -/

/-- Something that works with a server over a connection. -/
class Connected (κ : Type) (σ : outParam Type) where
  connection : κ → Connection σ
  reconnect : Connection σ → κ → κ
  connection_reconnect : ∀ c k, connection (reconnect c k) = c
  reconnect_connection : ∀ k, reconnect (connection k) k = k
  reconnect_reconnect : ∀ c c' k, reconnect c (reconnect c' k) = reconnect c k

instance {σ : Type} : Connected (Connection σ) σ where
  connection c := c
  reconnect c _ := c
  connection_reconnect _ _ := rfl
  reconnect_connection _ := rfl
  reconnect_reconnect _ _ _ := rfl

namespace Connected

variable {κ σ : Type} [Connected κ σ]

def journal (k : κ) : Journal := (connection k).journal

/-- The same with nothing in the journal. -/
def cleared (k : κ) : κ := reconnect { connection k with journal := [] } k

/-- The same, when other things had been noted before. -/
def after (past : Journal) (k : κ) : κ :=
  reconnect { connection k with journal := past ++ journal k } k

theorem journal_after (past : Journal) (k : κ) : journal (after past k) = past ++ journal k := by
  rw [journal, after, connection_reconnect]

theorem cleared_after (past : Journal) (k : κ) : cleared (after past k) = cleared k := by
  rw [cleared, after, connection_reconnect, reconnect_reconnect]
  rfl

theorem after_cleared (k : κ) : after (journal k) (cleared k) = k := by
  rw [after, cleared, journal, connection_reconnect, reconnect_reconnect, journal,
    connection_reconnect, List.append_nil]
  exact reconnect_connection k

theorem journal_cleared (k : κ) : journal (cleared k) = [] := by
  rw [journal, cleared, connection_reconnect]

theorem cleared_of_nil {k : κ} (h : journal k = []) : cleared k = k := by
  have hsame : { connection k with journal := [] } = connection k := by
    rw [← h]
    rfl
  rw [cleared, hsame, reconnect_connection]

end Connected

open Connected

/-- Something that is done: it changes a state, and may give a result. -/
abbrev Act (κ ρ : Type) := κ → Option ρ × κ

namespace Act

variable {κ κ' ρ : Type}

/-- The results of a run, and the state after it. -/
def runs : List (Act κ ρ) → κ → List ρ × κ
  | [], k => ([], k)
  | act :: acts, k => ((act k).1.toList ++ (runs acts (act k).2).1, (runs acts (act k).2).2)

/-- Runs agree when all that is done agrees. -/
theorem runs_map {α : Type} {view : κ → κ'} {f : α → Act κ ρ} {g : α → Act κ' ρ} {deeds : List α}
    (h : ∀ a ∈ deeds, ∀ k, g a (view k) = ((f a k).1, view (f a k).2)) (k : κ) :
    runs (deeds.map g) (view k) =
      ((runs (deeds.map f) k).1, view (runs (deeds.map f) k).2) := by
  induction deeds generalizing k with
  | nil => rfl
  | cons a deeds ih =>
      rw [List.map_cons, runs, h a List.mem_cons_self,
        ih (fun a hmem => h a (List.mem_cons_of_mem _ hmem)), List.map_cons, runs]

end Act

/-! ## With a trace -/

/-- Something that works over a connection, and the trace of its traffic. -/
structure Traced (κ F : Type) where
  user : κ
  trace : Trace
  files : F
  /-- The journals that were handed over. -/
  log : Journal

section Traced

variable {κ σ ρ F : Type} [Connected κ σ] (record : Recorder F)

/-- Does something, hands the journal over, and records the traffic in it. -/
def Act.traced (act : Act κ ρ) : Act (Traced κ F) ρ := fun x =>
  let (result, user) := act x.user
  let (trace, files, journal) := x.trace.followWith record x.files (journal user)
  (result, ⟨cleared user, trace, files, x.log ++ journal⟩)

/-- What there would be if everything noted so far had been recorded. -/
def tracedBy (t : Trace) (files : F) (k : κ) : Traced κ F :=
  let (trace, files, log) := t.followWith record files (journal k)
  ⟨cleared k, trace, files, log⟩

theorem tracedBy_of_nil (t : Trace) (files : F) {k : κ} (h : journal k = []) :
    tracedBy record t files k = ⟨k, t, files, []⟩ := by
  rw [tracedBy, h, cleared_of_nil h]
  rfl

/-- The same without the watch on the attempts. -/
def Traced.unwatched (x : Traced κ (Recorded F)) : Traced κ F :=
  ⟨x.user, x.trace, x.files.files, x.log⟩

theorem tracedBy_unwatched (t : Trace) (r : Recorded F) (k : κ) :
    (tracedBy (Trace.watched record) t r k).unwatched = tracedBy record t r.files k := by
  rw [tracedBy, tracedBy, Trace.followWith_watched]
  rfl

/-- What is done does not depend on what has been noted before. -/
def Act.Blind (act : Act κ ρ) : Prop :=
  ∀ past k, act (after past k) = ((act k).1, after past (act k).2)

/-- **To record after each step what it has noted is to record, at any time, all that has been
noted.** -/
theorem Act.Blind.traced {act : Act κ ρ} (h : act.Blind) (t : Trace) (files : F) (k : κ) :
    act.traced record (tracedBy record t files k) =
      ((act k).1, tracedBy record t files (act k).2) := by
  -- without its journal, it does what it does with it
  have hact : act k = ((act (cleared k)).1, after (journal k) (act (cleared k)).2) := by
    rw [← h (journal k) (cleared k), after_cleared]
  rw [hact, tracedBy, tracedBy, journal_after, cleared_after, Trace.followWith_append]
  rfl

end Traced

/-! ## Runs with a trace -/

section Runs

variable {κ σ ρ F : Type} [Connected κ (Watched σ)]

/-- The traffic of a run, of one thing that is done after the other. -/
inductive Shows : List (Act κ ρ) → κ → List Traffic → Prop
  | nil {k : κ} : Shows [] k []
  | cons {act : Act κ ρ} {acts : List (Act κ ρ)} {k : κ} {t : Traffic} {ts : List Traffic}
      (hturn : Connection.InTurn (connection k) (connection (act k).2) t)
      (hrest : Shows acts (act k).2 ts) : Shows (act :: acts) k (t :: ts)

theorem Shows.wire_eq {acts : List (Act κ ρ)} {k : κ} {ts : List Traffic} (h : Shows acts k ts) :
    (connection (Act.runs acts k).2).wire = (connection k).wire ++ ts.flatMap Traffic.wire := by
  induction h with
  | nil => exact (List.append_nil _).symm
  | cons hturn _ ih => rw [Act.runs, ih, hturn.wire_eq, List.flatMap_cons, List.append_assoc]

/-- What a trace can follow. -/
structure Act.Traceable (act : Act κ ρ) : Prop where
  blind : act.Blind
  inTurn : ∀ k, ∃ t, Connection.InTurn (connection k) (connection (act k).2) t

theorem exists_shows {acts : List (Act κ ρ)} (h : ∀ act ∈ acts, act.Traceable) (k : κ) :
    ∃ ts, Shows acts k ts := by
  induction acts generalizing k with
  | nil => exact ⟨[], .nil⟩
  | cons act acts ih =>
      obtain ⟨t, ht⟩ := (h act List.mem_cons_self).inTurn k
      obtain ⟨ts, hts⟩ := ih (fun act hmem => h act (List.mem_cons_of_mem _ hmem)) (act k).2
      exact ⟨t :: ts, .cons ht hts⟩

/-- A run with a new trace of a file, in which all attempts to record are watched. -/
def tracedRun (record : Recorder F) (file : Text) (files : F) (acts : List (Act κ ρ)) (k : κ) :
    List ρ × Traced κ (Recorded F) :=
  Act.runs (acts.map (Act.traced (Trace.watched record))) ⟨k, ⟨file, 0⟩, ⟨files, []⟩, []⟩

/-- What a run with a trace is held to, beside the same run without one. -/
structure Faithful (record : Recorder F) (file : Text) (files : F) (acts : List (Act κ ρ)) (k : κ) :
    Prop where
  results_eq : (tracedRun record file files acts k).1 = (Act.runs acts k).1
  /-- Nothing is any different but that the journal has been handed over; so the server has been
  asked the same, and has answered the same. -/
  user_eq : (tracedRun record file files acts k).2.user = cleared (Act.runs acts k).2
  shows : ∃ ts, Shows acts k ts
  /-- There is one attempt for each message on the wire, in their order, and no other. -/
  recorded : ∀ ts, Shows acts k ts →
    (tracedRun record file files acts k).2.files.recordings.map (fun r => (r.direction, r.message)) =
      ts.flatMap Traffic.wire
  numbered :
    (tracedRun record file files acts k).2.files.recordings.map Recording.number =
      List.range (tracedRun record file files acts k).2.files.recordings.length
  /-- The log has a complaint for each attempt that was refused, and is the same otherwise. -/
  keeps : (journal (Act.runs acts k).2).Sublist (tracedRun record file files acts k).2.log
  complains : (tracedRun record file files acts k).2.log.Perm
    (journal (Act.runs acts k).2 ++
      (tracedRun record file files acts k).2.files.recordings.filterMap Recording.complaint?)

/-- With a trace there is what there would be if all that was noted were recorded at the end. -/
theorem tracedRun_eq (record : Recorder F) (file : Text) (files : F) {acts : List (Act κ ρ)}
    (h : ∀ act ∈ acts, act.Blind) {k : κ} (hk : journal k = []) :
    tracedRun record file files acts k =
      ((Act.runs acts k).1,
        tracedBy (Trace.watched record) ⟨file, 0⟩ ⟨files, []⟩ (Act.runs acts k).2) := by
  have hruns := Act.runs_map (f := id) (g := Act.traced (Trace.watched record))
    (fun act hmem k => (h act hmem).traced (Trace.watched record) ⟨file, 0⟩ ⟨files, []⟩ k) k
  rw [tracedRun, ← tracedBy_of_nil (Trace.watched record) _ _ hk, hruns, List.map_id]

/-- **A trace is faithful and does not interfere**, whatever becomes of the attempts to record. -/
theorem Act.faithful (record : Recorder F) (file : Text) (files : F) {acts : List (Act κ ρ)}
    (h : ∀ act ∈ acts, act.Traceable) {k : κ} (hk : journal k = []) :
    Faithful record file files acts k := by
  have hrun := tracedRun_eq record file files (fun act hmem => (h act hmem).blind) hk
  obtain ⟨made, hrecordings, hnumbers, htraffic, hsub, hperm⟩ :=
    Trace.exists_recordings record ⟨file, 0⟩ ⟨files, []⟩ (journal (Act.runs acts k).2)
  have hmade : (tracedRun record file files acts k).2.files.recordings = made := by
    rw [hrun]
    exact hrecordings
  have hlog : (tracedRun record file files acts k).2.log =
      ((⟨file, 0⟩ : Trace).followWith (Trace.watched record) ⟨files, []⟩
        (journal (Act.runs acts k).2)).2.2 := by
    rw [hrun]
    rfl
  exact {
    results_eq := by rw [hrun]
    user_eq := by rw [hrun]; rfl
    shows := exists_shows h k
    recorded := fun ts hts => by
      have hnone : (connection k).wire = [] := congrArg (List.filterMap Entry.traffic?) hk
      have hwire := hts.wire_eq
      rw [hnone, List.nil_append] at hwire
      rw [hmade, htraffic]
      exact hwire
    numbered := by rw [hmade, hnumbers, List.range_eq_range']
    keeps := by rw [hlog]; exact hsub
    complains := by rw [hlog, hmade]; exact hperm }

end Runs

/-! ## Connections -/

namespace Connection

variable {σ : Type}

/-- What may happen next: an operation, or something that the server does of its own accord. -/
inductive Occasion (σ : Type) where
  | operation (op : Operation)
  | server (change : σ → σ)

variable [Peer σ]

def Occasion.act : Occasion σ → Act (Connection (Watched σ)) Outcome
  | operation op => fun c => (some (c.perform op).1, (c.perform op).2)
  | server change => fun c => (none, { c with peer := c.peer.map change })

theorem perform_imageAfter {τ : Type} [Peer τ] {f : τ → σ} (h : Peer.Alike f) (past : Journal)
    (c : Connection τ) (op : Operation) :
    (c.imageAfter f past).perform op = ((c.perform op).1, (c.perform op).2.imageAfter f past) := by
  cases op with
  | call id method params => simp only [perform, mirrors_call h id method params c]
  | receive id => simp only [perform, mirrors_receive h id c]
  | next => simp only [perform, mirrors_next h c]
  | notify method params =>
      simp only [perform, notify, mirrors_send h method (outgoing none method params) c]

/-- A request is written before its response is waited for. -/
theorem perform_inTurn (c : Connection (Watched σ)) (op : Operation) :
    ∃ t, InTurn c (c.perform op).2 t := by
  have hlistens : ∀ {α : Type} {action : Exchange (Watched σ) α}, Listens action →
      ∃ t, InTurn c (action c).2 t := by
    intro α action h
    obtain ⟨t, ht⟩ := h c
    exact ⟨t, .of_listening ht.carries ht.listening⟩
  cases op with
  | call id method params =>
      obtain ⟨outcome, c₁, hcarries, -, ⟨-, hsend⟩ | ⟨-, cause, hsend⟩⟩ :=
        send_carries method (outgoing (some id) method params) c
      · obtain ⟨t, ht⟩ := listens_receive id c₁
        simp only [perform, call_of_sent hsend]
        exact ⟨_, .of_write hcarries ht.carries ht.listening⟩
      · simp only [perform, call_of_unsent hsend]
        exact ⟨_, .of_attempt hcarries⟩
  | receive id => exact hlistens (listens_receive id)
  | next => exact hlistens listens_next
  | notify method params =>
      obtain ⟨outcome, c₁, hcarries, -, ⟨-, hsend⟩ | ⟨-, cause, hsend⟩⟩ :=
        send_carries method (outgoing none method params) c
      all_goals
        simp only [perform, notify, hsend]
        exact ⟨_, .of_attempt hcarries⟩

theorem Occasion.traceable (o : Occasion σ) : o.act.Traceable := by
  cases o with
  | operation op =>
      refine ⟨fun past c => ?_, fun c => perform_inTurn c op⟩
      have h := perform_imageAfter (Peer.alike_id (σ := Watched σ)) past c op
      exact congrArg (fun x => (some x.1, x.2)) h
  | server change =>
      exact ⟨fun past c => rfl, fun c => ⟨.none, .of_none (.served c change)⟩⟩

/-- **Whatever is done on a connection, a trace of it is faithful and does not interfere.** -/
theorem faithful {F : Type} (record : Recorder F) (file : Text) (files : F) (peer : σ)
    (pollTimeout : Binary64) (occasions : List (Occasion σ)) :
    Faithful record file files (occasions.map Occasion.act) (attach (.of peer) pollTimeout) := by
  refine Act.faithful record file files (fun act hmem => ?_) rfl
  obtain ⟨o, -, rfl⟩ := List.mem_map.mp hmem
  exact o.traceable

end Connection

end LanguageClient
