import LanguageClient.Proofs.Client.Image
import LanguageClient.Proofs.Fleet.History

/-!
# Fleets of servers that answer alike

What a fleet does depends on its host and on its servers by their answers only.  So an action of a
fleet whose servers are numbered and watched gives what it gives without numbers and watches, and the
fleet ends as it would without them.  Main statement: `act_unwatched`.

## Strategy

Operations of a fleet may give a session, and so a server.  They agree with their images if what they
give agrees as well (`Attempt.Reflects`); the lemmas follow the definitions one by one, as those for
a client do.
-/

namespace LanguageClient

namespace Attempt

variable {ε S T α β γ δ : Type}

/-- On the image of a state the second attempt gives the image of what the first one gives on the
state, and ends in the image of where that one ends. -/
def Reflects (f : S → T) (g : α → β) (action : Attempt ε S α) (image : Attempt ε T β) : Prop :=
  ∀ s, image (f s) = ((action s).1.map g, f (action s).2)

variable {f : S → T} {g : α → β} {g' : γ → δ} {action : Attempt ε S α} {image : Attempt ε T β}

theorem Mirrors.reflects {image : Attempt ε T α} (h : Mirrors f action image) :
    Reflects f id action image := by
  intro s
  rw [h s]
  rcases action s with ⟨e | a, t⟩ <;> rfl

theorem Reflects.mirrors {image : Attempt ε T α} (h : Reflects f id action image) :
    Mirrors f action image := by
  intro s
  rw [h s]
  rcases action s with ⟨e | a, t⟩ <;> rfl

theorem reflects_pure (a : α) : Reflects f g (pure a : Attempt ε S α) (pure (g a)) := fun _ => rfl

theorem reflects_fail (e : ε) : Reflects f g (fail e : Attempt ε S α) (fail e) := fun _ => rfl

theorem reflects_fault (e : Fault) : Reflects f g (fault e : Attempt ε S α) (fault e) := fun _ => rfl

/-- **Agreement goes on through a sequence of steps.** -/
theorem Reflects.bind (h : Reflects f g action image) {next : α → Attempt ε S γ}
    {next' : β → Attempt ε T δ} (hnext : ∀ a, Reflects f g' (next a) (next' (g a))) :
    Reflects f g' (action >>= next) (image >>= next') := by
  intro s
  rw [bind_apply, bind_apply, h s]
  rcases action s with ⟨e | a, t⟩
  · rfl
  · exact hnext a t

theorem Reflects.get_bind {next : S → Attempt ε S α} {next' : T → Attempt ε T β}
    (hnext : ∀ s, Reflects f g (next s) (next' (f s))) :
    Reflects f g (get >>= next) (get >>= next') :=
  fun s => hnext s s

/-- A change of the state, and what follows it. -/
theorem Reflects.modify_bind {u : S → S} {u' : T → T} (h : ∀ s, u' (f s) = f (u s))
    {next : Unit → Attempt ε S α} {next' : Unit → Attempt ε T β}
    (hnext : ∀ done, Reflects f g (next done) (next' done)) :
    Reflects f g (modify u >>= next) (modify u' >>= next') :=
  (mirrors_modify h).reflects.bind hnext

theorem reflects_ite {p : Prop} [Decidable p] {action₁ : Attempt ε S α} {image₁ : Attempt ε T β}
    (h : Reflects f g action image) (h₁ : Reflects f g action₁ image₁) :
    Reflects f g (if p then action else action₁) (if p then image else image₁) := by
  by_cases hp : p
  · rw [if_pos hp, if_pos hp]
    exact h
  · rw [if_neg hp, if_neg hp]
    exact h₁

/-- What follows a failure does not matter. -/
theorem reflects_fail_bind (e : ε) (next : γ → Attempt ε S α) (next' : δ → Attempt ε T β) :
    Reflects f g (fail e >>= next) (fail e >>= next') := fun _ => rfl

theorem Reflects.outcome (h : Reflects f g action image) {ε' : Type} :
    Reflects f (Except.map g) (action.outcome : Attempt ε' S (Except ε α)) image.outcome := by
  intro s
  rw [Attempt.outcome, Attempt.outcome, h s]
  rcases action s with ⟨(e | e) | a, t⟩ <;> rfl

theorem Reflects.mapError (h : Reflects f g action image) {ε' : Type} (m : ε → ε') :
    Reflects f g (action.mapError m) (image.mapError m) := by
  intro s
  rw [Attempt.mapError, Attempt.mapError, h s]
  rcases action s with ⟨(e | e) | a, t⟩ <;> rfl

theorem Mirrors.caught {image : Attempt ε T α} (h : Mirrors f action image) :
    Mirrors f action.caught image.caught := by
  intro s
  rw [Attempt.caught, Attempt.caught, h s]
  rcases action s with ⟨(e | e) | a, t⟩ <;> rfl

end Attempt

open LanguageClient.Attempt

/-! ## Hosts -/

namespace StartOutcome

variable {τ σ : Type}

/-- The same outcome with the image of the server. -/
def image (f : τ → σ) : StartOutcome τ → StartOutcome σ
  | started processId peer => .started processId (f peer)
  | unusable processId peer e => .unusable processId (f peer) e
  | refused e => .refused e
  | impossible e => .impossible e

end StartOutcome

/-- A map of hosts that keeps all outcomes, up to a map of servers. -/
structure Host.Alike {η θ τ σ : Type} [Host η τ] [Host θ σ] (k : η → θ) (f : τ → σ) : Prop where
  start : ∀ command host, Host.start command (k host) =
    ((Host.start command host).1.image f, k (Host.start command host).2)

/-! ## Sites and sessions -/

namespace Session

variable {τ σ : Type} (f : τ → σ)

/-- The same session with the image of its server. -/
def image (session : Session τ) : Session σ := ⟨session.client.image f, session.trace⟩

@[simp] theorem image_client (session : Session τ) :
    (session.image f).client = session.client.image f := rfl

end Session

namespace Site

variable {η θ τ σ ι : Type} (k : η → θ) (f : τ → σ)

/-- The same site with the images of its host and of the servers that nobody owns. -/
def image (site : Site η τ) : Site θ σ :=
  ⟨k site.host, site.files, site.journal, site.abandoned.map fun s => (s.1, f s.2)⟩

@[simp] theorem image_host (site : Site η τ) : (site.image k f).host = k site.host := rfl

theorem remark_image (level : Level) (text : Text) (site : Site η τ) :
    (site.image k f).remark level text = (site.remark level text).image k f := rfl

theorem abandon_image (processId : Nat) (peer : τ) (site : Site η τ) :
    (site.image k f).abandon processId (f peer) = (site.abandon processId peer).image k f := by
  simp [image, abandon]

theorem mirrors_startTrace {ε : Type} (s : Surroundings) (config : Config ι) (name : Text) :
    Mirrors (image k f) (startTrace s config name : Attempt ε (Site η τ) Trace)
      (startTrace s config name) := by
  unfold startTrace
  cases config.resolvedTraceDirectory s with
  | str directory =>
      refine .get_bind fun site => ?_
      refine (mirrors_ofExcept _ _).bind fun started => ?_
      exact (mirrors_set { site with files := started.2 }).bind fun _ => mirrors_pure _
  | _ => exact mirrors_fault _

variable {k f} [Peer τ] [Peer σ] [Host η τ] [Host θ σ] (hpeer : Peer.Alike f)
  (hhost : Host.Alike k f)

include hpeer hhost

theorem reflects_launch (command : Text) :
    Reflects (image k f) (fun server => (server.1, f server.2)) (launch command)
      (launch command) := by
  unfold launch
  cases command.words with
  | nil => exact reflects_fail _
  | cons program arguments =>
      refine .get_bind fun site => ?_
      rw [image_host, hhost.start]
      rcases Host.start command site.host with ⟨outcome, host⟩
      refine (mirrors_set { site with host := host }).reflects.bind fun _ => ?_
      unfold StartOutcome.image
      cases outcome with
      | started processId peer => exact reflects_pure (processId, peer)
      | unusable processId peer e =>
          refine .modify_bind (remark_image k f _ _) fun _ => ?_
          rw [hpeer.terminate]
          exact .modify_bind (abandon_image k f _ _) fun _ => reflects_fail _
      | refused e => exact .modify_bind (remark_image k f _ _) fun _ => reflects_fail _
      | impossible e => exact reflects_fault _

theorem reflects_start (s : Surroundings) (config : Config ι) (name : Option Text) (command : Text) :
    Reflects (image k f) (Session.image f) (start s config name command)
      (start s config name command) := by
  refine (reflects_launch hpeer hhost command).bind fun server => ?_
  refine reflects_ite (reflects_pure _) ?_
  refine (mirrors_startTrace k f s config _).caught.reflects.bind fun trace => ?_
  rcases trace with e | trace
  · exact .modify_bind (abandon_image k f _ _) fun _ => reflects_fault _
  · exact reflects_pure _

end Site

namespace Session

variable {η θ τ σ α : Type} {k : η → θ} {f : τ → σ} {action : Operation τ α}
  {action' : Operation σ α}

/-- Working with a client gives the same whichever of two servers is there. -/
theorem run_image (h : Mirrors (Client.image f) action action') (s : Surroundings)
    (session : Session τ) (site : Site η τ) :
    (session.image f).run s action' (site.image k f) =
      ((session.run s action site).1, (session.run s action site).2.1.image f,
        (session.run s action site).2.2.image k f) := by
  unfold run settle
  rw [image_client, h session.client]
  rcases session with ⟨client, trace | trace⟩ <;> rfl

end Session

namespace Fleet

variable {η θ τ σ α : Type} (k : η → θ) (f : τ → σ)

/-- The same fleet with the images of its host and of all servers. -/
def image (fleet : Fleet η τ) : Fleet θ σ :=
  ⟨fleet.config, fleet.workspace, fleet.site.image k f,
    fleet.sessions.map fun s => (s.1, s.2.image f), fleet.failures,
    fleet.retired.map fun s => (s.1, s.2.image f)⟩

@[simp] theorem image_config (fleet : Fleet η τ) : (fleet.image k f).config = fleet.config := rfl

@[simp] theorem image_workspace (fleet : Fleet η τ) :
    (fleet.image k f).workspace = fleet.workspace := rfl

/-! ## Tables -/

theorem session?_image (language : Text) (fleet : Fleet η τ) :
    (fleet.image k f).session? language = (fleet.session? language).map (Session.image f) := by
  unfold session? image
  dsimp only
  rw [List.find?_map, Option.map_map, Option.map_map]
  rfl

@[simp] theorem failure?_image (language : Text) (fleet : Fleet η τ) :
    (fleet.image k f).failure? language = fleet.failure? language := rfl

@[simp] theorem server?_image (language : Text) (fleet : Fleet η τ) :
    (fleet.image k f).server? language = fleet.server? language := rfl

theorem remark_image (level : Level) (text : Text) (fleet : Fleet η τ) :
    (fleet.image k f).remark level text = (fleet.remark level text).image k f := rfl

theorem remember_image (language : Text) (e : FleetError) (fleet : Fleet η τ) :
    (fleet.image k f).remember language e = (fleet.remember language e).image k f := rfl

theorem adopt_image (language : Text) (session : Session τ) (fleet : Fleet η τ) :
    (fleet.image k f).adopt language (session.image f) =
      (fleet.adopt language session).image k f := by
  simp [image, adopt]

theorem update_image (language : Text) (session : Session τ) (fleet : Fleet η τ) :
    (fleet.image k f).update language (session.image f) =
      (fleet.update language session).image k f := by
  have hentry : ∀ s : Text × Session τ,
      (if s.1 = language then (language, session.image f) else (s.1, s.2.image f)) =
        ((if s.1 = language then (language, session) else s).1,
          (if s.1 = language then (language, session) else s).2.image f) := by
    intro s
    by_cases hs : s.1 = language
    · rw [if_pos hs, if_pos hs]
    · rw [if_neg hs, if_neg hs]
  simp [image, update, Function.comp_def, hentry]

theorem drop_image (language : Text) (fleet : Fleet η τ) :
    (fleet.image k f).drop language = (fleet.drop language).image k f := by
  simp [image, drop, List.filter_map, Function.comp_def]

theorem abandon_image (session : Session τ) (fleet : Fleet η τ) :
    (fleet.image k f).abandon (session.image f) = (fleet.abandon session).image k f := by
  unfold abandon Site.abandonSession
  exact congrArg (fun site => { fleet.image k f with site := site })
    (Site.abandon_image k f _ _ fleet.site)

theorem abandonAll_image (sessions : List (Session τ)) (fleet : Fleet η τ) :
    (sessions.map (Session.image f)).foldl (fun fleet s => fleet.abandon s) (fleet.image k f) =
      (sessions.foldl (fun fleet s => fleet.abandon s) fleet).image k f := by
  induction sessions generalizing fleet with
  | nil => rfl
  | cons session sessions ih =>
      rw [List.map_cons, List.foldl_cons, List.foldl_cons, abandon_image]
      exact ih (fleet.abandon session)

variable {k f}

theorem reflects_operate {action : Operation τ α} {action' : Operation σ α}
    (h : Mirrors (Client.image f) action action') (s : Surroundings) (session : Session τ) :
    Reflects (image k f) (fun answer => (answer.1, answer.2.image f))
      (operate s session action) (operate s (session.image f) action') := by
  intro fleet
  have hrun := session.run_image (k := k) h s fleet.site
  unfold operate
  rw [show (fleet.image k f).site = fleet.site.image k f from rfl, hrun]
  rfl

theorem mirrors_perform {action : Operation τ α} {action' : Operation σ α}
    (h : Mirrors (Client.image f) action action') (s : Surroundings) (language : Text) :
    Mirrors (image k f) (perform s language action) (perform s language action') := by
  refine .get_bind fun fleet => ?_
  rw [session?_image]
  cases fleet.session? language with
  | none => exact mirrors_fail _
  | some session =>
      refine Reflects.mirrors ((reflects_operate h s session).bind fun answer => ?_)
      exact .modify_bind (update_image k f language answer.2) fun _ =>
        (mirrors_ofExcept _ _).reflects

/-- The same answer with the image of the server. -/
def Answer.image (f : τ → σ) : Answer τ → Answer σ
  | .session found => .session (found.image f)
  | .polled outcomes => .polled outcomes
  | .closed => .closed

theorem outcomeOf_image {β : Type} {g : α → β} (answer : α → Answer τ) (answer' : β → Answer σ)
    (hanswer : ∀ a, answer' (g a) = (answer a).image f) {operation : Attempt FleetError (Fleet η τ) α}
    {operation' : Attempt FleetError (Fleet θ σ) β}
    (h : Reflects (image k f) g operation operation') (fleet : Fleet η τ) :
    outcomeOf answer' (operation' (fleet.image k f)) =
      ((outcomeOf answer (operation fleet)).1.map (Answer.image f),
        (outcomeOf answer (operation fleet)).2.image k f) := by
  rw [h fleet]
  unfold outcomeOf
  rcases operation fleet with ⟨e | a, fleet'⟩
  · rfl
  · exact congrArg (fun answer => (Except.ok answer, fleet'.image k f)) (hanswer a)

variable [Peer τ] [Peer σ] (hpeer : Peer.Alike f)

include hpeer

theorem session_isRunning_image (session : Session τ) :
    (session.image f).isRunning = session.isRunning :=
  Client.isRunning_image hpeer session.client

theorem session_close_image (session : Session τ) :
    (session.image f).close = session.close.image f :=
  congrArg (fun client => (⟨client, session.trace⟩ : Session σ))
    (Client.close_image hpeer session.client)

theorem retire_image (language : Text) (session : Session τ) (fleet : Fleet η τ) :
    (fleet.image k f).retire language (session.image f) =
      (fleet.retire language session).image k f := by
  simp [image, retire, session_close_image hpeer]

theorem retireEnded_image (language : Text) (fleet : Fleet η τ) :
    (fleet.image k f).retireEnded language = (fleet.retireEnded language).image k f := by
  unfold retireEnded
  rw [session?_image]
  cases fleet.session? language with
  | none => rfl
  | some session =>
      simp only [Option.map_some, session_isRunning_image hpeer]
      by_cases hrunning : session.isRunning = true
      · rw [if_pos hrunning, if_pos hrunning]
      · rw [if_neg hrunning, if_neg hrunning, ← retire_image hpeer, ← drop_image]
        rfl

/-! ## Operations -/

/-- A client introduces itself alike whatever its process id. -/
theorem mirrors_introduce (g : Nat → Nat) (past : Journal) (params : Payload)
    (obstacle : Option Fault) :
    Mirrors (Client.recastAfter f g past) (introduce params obstacle)
      (introduce params obstacle) := by
  cases obstacle with
  | none => exact (Client.mirrors_handshake hpeer params).bind fun _ => Client.mirrors_confirm hpeer
  | some e => exact (Client.mirrors_announce hpeer params).bind fun _ => mirrors_fault e

theorem reflects_openSession (s : Surroundings) (language : Text) (session : Session τ) :
    Reflects (image k f) (Session.image f) (openSession s language session)
      (openSession s language (session.image f)) := by
  refine .get_bind fun fleet => ?_
  rw [image_workspace, image_config]
  dsimp only
  cases hparams : fleet.introduction s with
  | error e =>
      unfold introduction at hparams
      rw [hparams]
      exact .modify_bind (abandon_image k f session) fun _ => reflects_fault _
  | ok params =>
      unfold introduction at hparams
      rw [hparams]
      -- both have the same trace, and so the same obstacle
      have hintroduce : Mirrors (Client.image f) (introduce params session.obstacle?)
          (introduce params session.obstacle?) :=
        Client.mirrors_image f (mirrors_introduce hpeer id [] params _)
      refine (reflects_operate hintroduce s session).bind fun answer => ?_
      rcases answer with ⟨(e | e) | done, session⟩
      · exact .modify_bind (retire_image hpeer language session) fun _ => reflects_fail _
      · exact .modify_bind (abandon_image k f session) fun _ => reflects_fault _
      · exact reflects_pure session

theorem mirrors_pollEach (s : Surroundings) (languages : List Text) :
    Mirrors (image k f) (pollEach s languages) (pollEach s languages) := by
  induction languages with
  | nil => exact mirrors_pure _
  | cons language languages ih =>
      refine (mirrors_perform (Client.mirrors_image f (Client.mirrors_poll hpeer)) s language).outcome.bind fun outcome => ?_
      refine ih.bind fun rest => ?_
      rcases outcome with e | (_ | event) <;> exact mirrors_pure _

theorem mirrors_closeEach (s : Surroundings) (hand : List (Text × Session τ)) :
    Mirrors (image k f) (closeEach s hand)
      (closeEach s (hand.map fun entry => (entry.1, entry.2.image f))) := by
  induction hand with
  | nil => exact mirrors_pure _
  | cons first rest ih =>
      obtain ⟨language, session⟩ := first
      unfold closeEach
      simp only [List.map_cons, session_isRunning_image hpeer]
      refine mirrors_ite ((mirrors_modify (retire_image hpeer language session)).bind fun _ => ih) ?_
      refine Reflects.mirrors ?_
      refine (reflects_operate (Client.mirrors_image f (Client.mirrors_shutdown hpeer)) s session).bind fun answer => ?_
      rcases answer with ⟨(e | e) | done, session⟩
      · refine .modify_bind (remark_image k f _ _) fun _ => ?_
        exact .modify_bind (retire_image hpeer language session) fun _ => ih.reflects
      · refine .modify_bind (fun fleet => ?_) fun _ => reflects_fault _
        have hall := abandonAll_image k f (session :: rest.map (·.2)) fleet
        simpa [Function.comp_def] using hall
      · exact .modify_bind (retire_image hpeer language session) fun _ => ih.reflects

theorem mirrors_pollAll (s : Surroundings) : Mirrors (image k f) (pollAll s) (pollAll s) := by
  refine .get_bind fun fleet => ?_
  have hlanguages : (fleet.image k f).sessions.map (·.1) = fleet.sessions.map (·.1) := by
    simp [image, Function.comp_def]
  rw [hlanguages]
  exact mirrors_pollEach hpeer s _

theorem mirrors_closeAll (s : Surroundings) : Mirrors (image k f) (closeAll s) (closeAll s) := by
  refine .get_bind fun fleet => ?_
  refine .bind (mirrors_modify fun fleet => ?_) fun _ => mirrors_closeEach hpeer s fleet.sessions
  rfl

variable [Host η τ] [Host θ σ] (hhost : Host.Alike k f)

include hhost

theorem reflects_start (s : Surroundings) (language command : Text) :
    Reflects (image k f) (Session.image f) (start s language command)
      (start s language command) := by
  refine .get_bind fun fleet => ?_
  have hstart := (Site.reflects_start hpeer hhost s fleet.config (some language) command).mapError
    FleetError.launch
  refine Reflects.bind (fun fleet' => ?_) fun session => reflects_openSession hpeer s language session
  exact congrArg (fun started => (started.1, { fleet'.image k f with site := started.2 }))
    (hstart fleet'.site)

theorem reflects_sessionFor (s : Surroundings) (language : Text) :
    Reflects (image k f) (Session.image f) (sessionFor s language) (sessionFor s language) := by
  refine .get_bind fun fleet => ?_
  rw [image_config]
  refine reflects_ite (reflects_fail_bind _ _ _) ?_
  refine .modify_bind (retireEnded_image hpeer language) fun _ => .get_bind fun fleet => ?_
  rw [session?_image, failure?_image, server?_image]
  cases fleet.session? language with
  | some session => exact reflects_pure session
  | none =>
      cases fleet.failure? language with
      | some e => exact reflects_fail _
      | none =>
          cases fleet.server? language with
          | none => exact reflects_fail _
          | some server =>
              refine (reflects_start hpeer hhost s language server.command).outcome.bind
                fun started => ?_
              rcases started with e | session
              · refine .modify_bind (remark_image k f _ _) fun _ => ?_
                exact .modify_bind (remember_image k f language e) fun _ => reflects_fail _
              · exact .modify_bind (adopt_image k f language session) fun _ => reflects_pure session

theorem reflects_sessionForPath (s : Surroundings) (path : Text) :
    Reflects (image k f) (Session.image f) (sessionForPath s path) (sessionForPath s path) := by
  refine .get_bind fun fleet => ?_
  rw [image_config]
  cases fleet.config.languageFor? path with
  | none => exact reflects_fail _
  | some language => exact reflects_sessionFor hpeer hhost s language

/-- **An action gives the same whichever of two hosts is there that launch servers which answer
alike.** -/
theorem act_image (s : Surroundings) (fleet : Fleet η τ) (action : Action) :
    (fleet.image k f).act s action =
      ((fleet.act s action).1.map (Answer.image f), (fleet.act s action).2.image k f) := by
  cases action with
  | sessionFor language =>
      exact outcomeOf_image .session .session (fun _ => rfl)
        (reflects_sessionFor hpeer hhost s language) fleet
  | sessionForPath path =>
      exact outcomeOf_image .session .session (fun _ => rfl)
        (reflects_sessionForPath hpeer hhost s path) fleet
  | pollAll =>
      exact outcomeOf_image .polled .polled (fun _ => rfl) (mirrors_pollAll hpeer s).reflects fleet
  | closeAll =>
      exact outcomeOf_image (fun _ => .closed) (fun _ => .closed) (fun _ => rfl)
        (mirrors_closeAll hpeer s).reflects fleet

end Fleet

/-! ## Numbers and watches -/

/-- The server itself, without its number and its watch. -/
def Tracked.bare {σ : Type} (w : Tracked σ) : σ := w.peer.server

variable {η σ : Type} [Peer σ]

theorem Tracked.alike_bare : Peer.Alike (Tracked.bare : Tracked σ → σ) :=
  ⟨fun _ _ => rfl, fun _ _ => rfl, fun _ _ => rfl, fun _ => rfl, fun _ => rfl⟩

variable [Host η σ]

omit [Peer σ] in
/-- Counting does not show in the outcomes. -/
theorem Counting.alike_host : Host.Alike (Counting.host : Counting η → η) (Tracked.bare : _ → σ) := by
  refine ⟨fun command h => ?_⟩
  have hnoted : Host.start command h = h.note (Host.start command h.host) := rfl
  rw [hnoted]
  rcases Host.start command h.host with ⟨outcome, host⟩
  cases outcome <;> rfl

/-- **An action gives what it gives without numbers and watches.** -/
theorem Fleet.act_unwatched (s : Surroundings) (fleet : TrackedFleet η σ) (action : Action) :
    (fleet.image Counting.host Tracked.bare).act s action =
      ((fleet.act s action).1.map (Answer.image Tracked.bare),
        (fleet.act s action).2.image Counting.host Tracked.bare) :=
  act_image Tracked.alike_bare Counting.alike_host s fleet action

end LanguageClient
