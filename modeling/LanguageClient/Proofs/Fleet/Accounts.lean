import LanguageClient.Proofs.Fleet.Ownership

/-!
# Every server is accounted for

Every server that a host has launched for a fleet is in one place.  It belongs to an open session and
has never been stopped; or it has been released, and was stopped once.  The exceptions are orphans,
which were released as they ran.  An action leaves orphans if and only if a fault breaks it off while
it has servers in hand, and then the workspace cannot be named, the trace cannot be started, nothing
can be recorded in it, or one of the orphans is to blame.  Main statement: `run_accounts`.

## Strategy

Between two actions nobody is in hand.  An action keeps order and accounts for its orphans
(`Event.orderly`), and so does the world (`orderly_stable`); the orphans of a run are those of its
actions, one after the other (`history_orphans`).
-/

namespace LanguageClient

namespace Fleet

variable {η σ : Type} [Peer σ]

/-! ## Events -/

namespace Event

/-- The orphans that the action left. -/
def orphans (e : Event η σ) : List (Tracked σ) := e.after.orphans.drop e.before.orphans.length

omit [Peer σ] in
theorem orphans_of_append {e : Event η σ} {lost : List (Tracked σ)}
    (h : e.after.orphans = e.before.orphans ++ lost) : e.orphans = lost := by
  rw [orphans, h, List.drop_left]

/-- Why the action left orphans: the workspace cannot be named, the trace cannot be started, nothing
can be recorded in it, or one of them is to blame. -/
inductive Blames (e : Event η σ) (f : Fault) : Prop
  | workspace {flaw : Utf8.EncodeError} (hname : e.before.introduction e.surroundings = .error flaw)
      (hfault : f = .notEncodable flaw)
  | trace {language : Text} {server : LanguageServer} (hlanguage : e.language? = some language)
      (hserver : e.before.server? language = some server)
      (htrace : e.before.site.traceFault? e.surroundings e.before.config (some language)
        server.command = some f)
  | obstacle {language : Text} {server : LanguageServer} (hlanguage : e.language? = some language)
      (hserver : e.before.server? language = some server)
      (htrace : e.before.site.traceObstacle? e.surroundings e.before.config (some language)
        server.command = some f)
  | server {w : Tracked σ} (hmem : w ∈ e.orphans) (hfaulty : w.Faulty f)

/-- The action left orphans if and only if a fault broke it off when there were servers in hand, and
then there is somebody to blame. -/
structure Accounts (e : Event η σ) : Prop where
  append : e.after.orphans = e.before.orphans ++ e.orphans
  orphans_iff : e.orphans ≠ [] ↔
    (Attempt.fault? e.result).isSome = true ∧ (e.action = .closeAll ∨ 0 < e.launches)
  blames : ∀ f, Attempt.fault? e.result = some f → e.orphans ≠ [] → e.Blames f

omit [Peer σ] in
/-- An action without orphans accounts for itself, if it met no fault or had nobody in hand. -/
theorem Accounts.of_same {e : Event η σ} (hsame : e.after.orphans = e.before.orphans)
    (hnone : Attempt.fault? e.result = none ∨ e.action ≠ .closeAll ∧ e.launches = 0) :
    e.Accounts := by
  have horphans : e.orphans = [] := orphans_of_append (hsame.trans (List.append_nil _).symm)
  refine ⟨by rw [horphans, List.append_nil, hsame], ?_, fun f _ hne => absurd horphans hne⟩
  rw [horphans]
  refine ⟨fun hne => absurd rfl hne, fun ⟨hfault, hhand⟩ => ?_⟩
  rcases hnone with hnone | ⟨hclose, hlaunches⟩
  · rw [hnone] at hfault
    cases hfault
  · rcases hhand with haction | hpos
    · exact absurd haction hclose
    · omega

omit [Peer σ] in
/-- An action with orphans accounts for itself, if a fault met it with servers in hand. -/
theorem Accounts.of_lost {e : Event η σ} {lost : List (Tracked σ)} {f : Fault}
    (hlost : e.after.orphans = e.before.orphans ++ lost) (hne : lost ≠ [])
    (hfault : Attempt.fault? e.result = some f) (hhand : e.action = .closeAll ∨ 0 < e.launches)
    (hblame : e.orphans = lost → e.Blames f) : e.Accounts := by
  have horphans : e.orphans = lost := orphans_of_append hlost
  refine ⟨horphans ▸ hlost, ?_, fun f' hf' _ => ?_⟩
  · rw [horphans, hfault]
    exact ⟨fun _ => ⟨rfl, hhand⟩, fun _ => hne⟩
  · obtain rfl := Option.some.inj (hfault.symm.trans hf')
    exact hblame horphans

end Event

/-! ## Runs -/

section Runs

variable [Host η σ]

omit [Host η σ] in
theorem pollEach_orphans (s : Surroundings) (languages : List Text) (fleet : TrackedFleet η σ) :
    (pollEach s languages fleet).2.orphans = fleet.orphans := by
  refine pollEach_induction (P := fun fleet' => fleet'.orphans = fleet.orphans) ?_ s languages rfl
  intro fleet' language session result session' site' h hsession hran
  exact (orphans_of_site fleet' hran.abandoned_eq).trans h

omit [Peer σ] [Host η σ] in
/-- The orphans of an action are those of its start. -/
theorem Event.Accounts.of_forfeits {e : Event η σ} {bar : Fault → Prop}
    {blame : Fault → Tracked σ → Prop} {lost : List (Tracked σ)} (hclose : e.action ≠ .closeAll)
    (hlost : e.after.orphans = e.before.orphans ++ lost)
    (h : Forfeits e.before e.after bar blame (Attempt.fault? e.result) lost)
    (hblame : ∀ f, ∀ w ∈ e.orphans, blame f w → e.Blames f) : e.Accounts := by
  generalize hfault : Attempt.fault? e.result = fault at h
  cases h with
  | nothing => exact .of_same (hlost.trans (List.append_nil _)) (Or.inl hfault)
  | unlaunched hlaunches =>
      refine .of_same (hlost.trans (List.append_nil _)) (Or.inr ⟨hclose, ?_⟩)
      rw [Event.launches, hlaunches, Nat.sub_self]
  | @orphan f w hlaunches hw =>
      have hone : e.launches = 1 := by rw [Event.launches, hlaunches, Nat.add_sub_cancel_left]
      exact .of_lost hlost (List.cons_ne_nil _ _) hfault (Or.inr (hone ▸ Nat.one_pos))
        fun horphans => hblame f w (horphans ▸ List.mem_singleton_self w) hw

/-- **What every action leaves is accounted for.** -/
theorem Event.orderly {e : Event η σ} (h : e.Happens) (ho : Orderly [] e.before) :
    Orderly [] e.after ∧ e.Accounts := by
  rcases e with ⟨s, action, before, result, after⟩
  change Acts s before action result after at h
  change Orderly [] before at ho
  cases h with
  | @found language result _ hlanguage hfound =>
      obtain ⟨horderly, lost, hlost, hforfeits⟩ := hfound.orderly ho
      refine ⟨horderly, .of_forfeits (fun hclose => ?_) hlost
        (by rw [Attempt.fault?_map]; exact hforfeits) fun f w hmem hblame => ?_⟩
      · rw [show action = .closeAll from hclose] at hlanguage
        cases hlanguage
      · obtain ⟨server, hserver, ⟨flaw, hname, hfault⟩ | htrace | htrace | hfaulty⟩ := hblame
        · exact .workspace hname hfault
        · exact .trace hlanguage hserver htrace
        · exact .obstacle hlanguage hserver htrace
        · exact .server hmem hfaulty
  | unfiled haction => exact ⟨ho, .of_same rfl (Or.inl rfl)⟩
  | polled haction =>
      refine ⟨ho.pollEach s _, .of_same (pollEach_orphans s _ before) (Or.inr ⟨?_, ?_⟩)⟩
      · exact fun h => nomatch haction.symm.trans h
      · exact (congrArg (·.launches - before.launches)
          (pollEach_tables s (before.sessions.map (·.1)) before).host_eq).trans (Nat.sub_self _)
  | closed haction =>
      obtain ⟨horderly, hends⟩ := ho.takeAll.closeEach s
      refine ⟨horderly, ?_⟩
      rcases hends with ⟨hnone, hsame⟩ | ⟨f, lost, hfault, hlost, w, hmem, hfaulty⟩
      · exact .of_same hsame (Or.inl ((Attempt.fault?_map _ _).trans hnone))
      · exact .of_lost hlost (List.ne_nil_of_mem hmem) ((Attempt.fault?_map _ _).trans hfault)
          (Or.inl haction) fun horphans => .server (horphans ▸ hmem) hfaulty

/-- After everything has been closed there is no open session. -/
theorem Event.sessions_of_closeAll {e : Event η σ} (h : e.Happens) (haction : e.action = .closeAll) :
    e.after.sessions = [] := by
  rcases e with ⟨s, action, before, result, after⟩
  change Acts s before action result after at h
  change action = .closeAll at haction
  cases h with
  | found hlanguage => rw [haction] at hlanguage; cases hlanguage
  | unfiled hother | polled hother => cases haction.symm.trans hother
  | closed => exact (closeEach_tables s before.sessions { before with sessions := [] }).1.sessions_eq

omit [Peer σ] [Host η σ] in
/-- The world leaves order as it is. -/
theorem Orderly.elsewhere {fleet : TrackedFleet η σ} (h : Orderly [] fleet) (servers : Nat → σ → σ)
    (host : η → η) (files : Files → Files) : Orderly [] (fleet.elsewhere servers host files) := by
  obtain ⟨hplaced, hkeys, hinHand, hopen, hretired, hgiven⟩ := h
  refine ⟨?_, ?_, hinHand, ?_, ?_, ?_⟩
  · have hstanding : standing [] (fleet.elsewhere servers host files) = standing [] fleet := by
      simp only [standing, owned, Fleet.released, Fleet.elsewhere, List.map_append, List.map_map]
      rfl
    rw [hstanding]
    exact hplaced
  · simpa [Fleet.elsewhere, Function.comp_def] using hkeys
  · intro entry hmem
    obtain ⟨entry, hentry, rfl⟩ := List.mem_map.mp hmem
    obtain ⟨hopen, hunstopped, hinStep⟩ := hopen entry hentry
    exact ⟨hopen, hunstopped, hinStep⟩
  · intro entry hmem
    obtain ⟨entry, hentry, rfl⟩ := List.mem_map.mp hmem
    exact hretired entry hentry
  · intro entry hmem
    obtain ⟨entry, hentry, rfl⟩ := List.mem_map.mp hmem
    exact hgiven entry hentry

/-- Order lasts. -/
theorem orderly_stable : Stable (Orderly (η := η) (σ := σ) []) :=
  ⟨fun _ hhappens h => (Event.orderly hhappens h).1, fun _ _ _ _ h => h.elsewhere _ _ _⟩

omit [Peer σ] [Host η σ] in
theorem orphans_elsewhere (fleet : TrackedFleet η σ) (servers : Nat → σ → σ) (host : η → η)
    (files : Files → Files) :
    (fleet.elsewhere servers host files).orphans = fleet.orphans.map (Tracked.served servers) := by
  simp only [orphans, elsewhere, List.map_map, List.filter_map]
  rfl

/-- **The orphans of a run are those of its actions.** -/
theorem history_orphans {fleet : TrackedFleet η σ} (h : Orderly [] fleet) (steps : List (Step η σ)) :
    (fleet.history steps).2.orphans.map Tracked.number =
      fleet.orphans.map Tracked.number ++
        (fleet.history steps).1.flatMap fun e => e.orphans.map Tracked.number := by
  induction steps generalizing fleet with
  | nil => exact (List.append_nil _).symm
  | cons step steps ih =>
      cases step with
      | action s action =>
          obtain ⟨horderly, haccounts⟩ := Event.orderly (eventOf_happens s fleet action) h
          have hlater := ih horderly
          rw [haccounts.append, List.map_append, List.append_assoc] at hlater
          exact hlater
      | world servers host files =>
          have hlater := ih (h.elsewhere servers host files)
          rw [orphans_elsewhere, List.map_map] at hlater
          exact hlater

omit [Peer σ] [Host η σ] in
/-- A fleet begins in order. -/
theorem orderly_ofConfig (config : Config Text) (workspace : Text) (host : η) (files : Files) :
    Orderly [] (ofConfig config workspace ⟨⟨host, 0⟩, files, [], []⟩ : TrackedFleet η σ) where
  placed := List.Perm.refl []
  keys := List.nodup_nil
  inHand _ h := absurd h List.not_mem_nil
  open_ _ h := absurd h List.not_mem_nil
  retired _ h := absurd h List.not_mem_nil
  abandoned _ h := absurd h List.not_mem_nil

end Runs

end Fleet

end LanguageClient
