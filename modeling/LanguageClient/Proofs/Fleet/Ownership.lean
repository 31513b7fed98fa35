import LanguageClient.Proofs.Fleet.Keeping
import LanguageClient.Proofs.Fleet.Tables

/-!
# Who owns a server

Every server that a host has launched for a fleet is in one place.  It belongs to an open session and
has never been stopped; or it has been released, and was stopped once on the way.  The exceptions are
orphans, which were released as they ran.  Asking for a session keeps it so and leaves at most one
orphan (`Found.orderly`); closing keeps it so and leaves orphans at a fault only (`Orderly.closeEach`).

## Strategy

While an action is under way some sessions are in hand, in no table; `Orderly` says of the hand and of
the fleet that nothing is lost or held twice.  The moves between hand and tables keep it, and every
action is a sequence of moves.

```text
a launch        the host      →  the hand, or released at once if it cannot be used
taking          the sessions  →  the hand
adopting        the hand      →  the sessions
retiring        the hand      →  released, and stopped
giving up       the hand      →  released as it runs: an orphan
```
-/

namespace LanguageClient

namespace Fleet

variable {η σ : Type}

/-- The servers of the open sessions. -/
def owned (fleet : TrackedFleet η σ) : List (Tracked σ) := fleet.sessions.map (·.2.server)

/-- The servers that belong to no open session. -/
def released (fleet : TrackedFleet η σ) : List (Tracked σ) :=
  fleet.retired.map (·.2.server) ++ fleet.site.abandoned.map (·.2)

/-- The servers that were released as they ran. -/
def orphans (fleet : TrackedFleet η σ) : List (Tracked σ) :=
  (fleet.site.abandoned.map (·.2)).filter (·.terminations = 0)

/-- The numbers of all servers, those in hand included. -/
def standing (hand : List (Session (Tracked σ))) (fleet : TrackedFleet η σ) : List Nat :=
  (hand.map Session.server ++ fleet.owned ++ fleet.released).map Tracked.number

/-- Every server is in hand or in one place of the fleet, and was stopped if it has been released,
unless it is an orphan. -/
structure Orderly (hand : List (Session (Tracked σ))) (fleet : TrackedFleet η σ) : Prop where
  placed : (standing hand fleet).Perm (List.range fleet.launches)
  keys : (fleet.sessions.map (·.1)).Nodup
  inHand : ∀ session ∈ hand, session.client.Kept
  open_ : ∀ entry ∈ fleet.sessions, entry.2.client.Kept
  retired : ∀ entry ∈ fleet.retired, entry.2.server.terminations = 1
  abandoned : ∀ entry ∈ fleet.site.abandoned, entry.2.terminations ≤ 1

namespace Orderly

variable {hand : List (Session (Tracked σ))} {fleet : TrackedFleet η σ} {language : Text}
  {session session' : Session (Tracked σ)}

/-- An open session has not stopped its server. -/
theorem owned_unstopped (h : Orderly hand fleet) : ∀ w ∈ fleet.owned, w.terminations = 0 := by
  intro w hmem
  obtain ⟨entry, hentry, rfl⟩ := List.mem_map.mp hmem
  exact (h.open_ entry hentry).unstopped

/-- A server that was released was stopped, or it is an orphan. -/
theorem released_stopped (h : Orderly hand fleet) {w : Tracked σ} (hmem : w ∈ fleet.released) :
    w.terminations = 1 ∨ w.terminations = 0 ∧ w ∈ fleet.orphans := by
  rcases List.mem_append.mp hmem with hmem | hmem
  · obtain ⟨entry, hentry, rfl⟩ := List.mem_map.mp hmem
    exact Or.inl (h.retired entry hentry)
  · obtain ⟨entry, hentry, rfl⟩ := List.mem_map.mp hmem
    rcases Nat.le_one_iff_eq_zero_or_eq_one.mp (h.abandoned entry hentry) with hzero | hone
    · exact Or.inr ⟨hzero, List.mem_filter.mpr ⟨hmem, decide_eq_true hzero⟩⟩
    · exact Or.inl hone

/-- All were stopped, if and only if there are no orphans. -/
theorem all_stopped_iff (h : Orderly hand fleet) :
    (∀ w ∈ fleet.released, w.terminations = 1) ↔ fleet.orphans = [] := by
  constructor
  · intro hstopped
    refine List.eq_nil_iff_forall_not_mem.mpr fun w hmem => ?_
    obtain ⟨hgiven, hzero⟩ := List.mem_filter.mp hmem
    have hone := hstopped w (List.mem_append_right _ hgiven)
    rw [of_decide_eq_true hzero] at hone
    cases hone
  · intro hempty w hmem
    rcases h.released_stopped hmem with hone | ⟨-, horphan⟩
    · exact hone
    · rw [hempty] at horphan
      cases horphan

/-- A remark, and what is done to the files, does not matter. -/
theorem of_site (h : Orderly hand fleet) {site : Site (Counting η) (Tracked σ)}
    (hlaunches : site.host.launches = fleet.launches)
    (habandoned : site.abandoned = fleet.site.abandoned) :
    Orderly hand { fleet with site := site } := by
  obtain ⟨hplaced, hkeys, hinHand, hopen, hretired, hgiven⟩ := h
  refine ⟨?_, hkeys, hinHand, hopen, hretired, habandoned ▸ hgiven⟩
  rw [standing, owned, released] at *
  rw [launches, hlaunches]
  dsimp only
  rw [habandoned]
  exact hplaced

/-- A session in hand has worked with its client. -/
theorem ran {α : Type} {action : Operation (Tracked σ) α} {result : Except (Stop ClientError) α}
    {site' : Site (Counting η) (Tracked σ)} (h : Orderly (session :: hand) fleet)
    (hran : session.Ran action fleet.site result session' site')
    (hholds : session.Holds session') :
    Orderly (session' :: hand) { fleet with site := site' } := by
  obtain ⟨hplaced, hkeys, hinHand, hopen, hretired, hgiven⟩ :=
    h.of_site hran.launches_eq hran.abandoned_eq
  refine ⟨?_, hkeys, ?_, hopen, hretired, hgiven⟩
  · rw [standing] at *
    simp only [List.map_cons, List.cons_append, hholds.number_eq] at *
    exact hplaced
  · exact List.forall_mem_cons.mpr ⟨hholds.kept, (List.forall_mem_cons.mp hinHand).2⟩

/-- A session in hand is given up. -/
theorem abandon (h : Orderly (session :: hand) fleet) : Orderly hand (fleet.abandon session) := by
  obtain ⟨hplaced, hkeys, hinHand, hopen, hretired, hgiven⟩ := h
  obtain ⟨hkept, hrest⟩ := List.forall_mem_cons.mp hinHand
  refine ⟨?_, hkeys, hrest, hopen, hretired, ?_⟩
  · refine List.Perm.trans (List.perm_iff_count.mpr fun n => ?_) hplaced
    simp [standing, owned, released, Fleet.abandon, Site.abandonSession, Site.abandon,
      Session.server, List.count_cons]
    omega
  · intro entry hmem
    rcases List.mem_append.mp hmem with hmem | hmem
    · exact hgiven entry hmem
    · rw [List.mem_singleton.mp hmem]
      exact hkept.unstopped.le.trans (Nat.zero_le _)

/-- All sessions are taken in hand. -/
theorem takeAll (h : Orderly [] fleet) :
    Orderly (fleet.sessions.map (·.2)) { fleet with sessions := [] } := by
  obtain ⟨hplaced, hkeys, hinHand, hopen, hretired, hgiven⟩ := h
  refine ⟨?_, List.nodup_nil, ?_, fun _ hmem => absurd hmem List.not_mem_nil, hretired, hgiven⟩
  · refine List.Perm.trans (List.perm_iff_count.mpr fun n => ?_) hplaced
    simp [standing, owned, released]
    rfl
  · intro session hmem
    obtain ⟨entry, hentry, rfl⟩ := List.mem_map.mp hmem
    exact hopen entry hentry

/-- A session in hand is put into the table of open sessions. -/
theorem adopt (h : Orderly (session :: hand) fleet) (hnone : fleet.session? language = none) :
    Orderly hand (fleet.adopt language session) := by
  obtain ⟨hplaced, hkeys, hinHand, hopen, hretired, hgiven⟩ := h
  obtain ⟨hkept, hrest⟩ := List.forall_mem_cons.mp hinHand
  refine ⟨?_, ?_, hrest, ?_, hretired, hgiven⟩
  · refine List.Perm.trans (List.perm_iff_count.mpr fun n => ?_) hplaced
    simp [standing, owned, released, Fleet.adopt, List.count_cons]
    omega
  · have hnew : language ∉ fleet.sessions.map (·.1) := by
      rw [session?, Option.map_eq_none_iff, List.find?_eq_none] at hnone
      intro hmem
      obtain ⟨entry, hentry, rfl⟩ := List.mem_map.mp hmem
      exact hnone entry hentry (decide_eq_true rfl)
    rw [Fleet.adopt, List.map_append]
    exact hkeys.append (List.nodup_singleton _) (by simpa using hnew)
  · intro entry hmem
    rcases List.mem_append.mp hmem with hmem | hmem
    · exact hopen entry hmem
    · rw [List.mem_singleton.mp hmem]
      exact hkept

/-- The session of a language stands in one place of the table. -/
theorem exists_split (h : Orderly hand fleet) (hsession : fleet.session? language = some session) :
    ∃ earlier later, fleet.sessions = earlier ++ (language, session) :: later ∧
      ∀ entry ∈ earlier ++ later, entry.1 ≠ language := by
  obtain ⟨⟨key, found⟩, hfind, rfl⟩ := Option.map_eq_some_iff.mp hsession
  obtain ⟨hkey, earlier, later, hsplit, hearlier⟩ := List.find?_eq_some_iff_append.mp hfind
  obtain rfl : key = language := by simpa using hkey
  refine ⟨earlier, later, hsplit, fun entry hmem => ?_⟩
  rcases List.mem_append.mp hmem with hmem | hmem
  · simpa using hearlier entry hmem
  · -- the keys after it are others, since no key occurs twice
    have hkeys := h.keys
    rw [hsplit, List.map_append, List.map_cons] at hkeys
    have hnot := (List.nodup_cons.mp (List.nodup_append.mp hkeys).2.1).1
    exact fun heq => hnot (List.mem_map.mpr ⟨entry, hmem, heq⟩)

/-- The session of a language is taken in hand. -/
theorem take (h : Orderly hand fleet) (hsession : fleet.session? language = some session) :
    Orderly (session :: hand) (fleet.drop language) := by
  obtain ⟨earlier, later, hsplit, hothers⟩ := h.exists_split hsession
  obtain ⟨hplaced, hkeys, hinHand, hopen, hretired, hgiven⟩ := h
  have hdrop : (fleet.drop language).sessions = earlier ++ later := by
    rw [Fleet.drop, hsplit, List.filter_append, List.filter_cons_of_neg (by simp),
      ← List.filter_append, List.filter_eq_self]
    exact fun entry hmem => decide_eq_true (hothers entry hmem)
  have hsublist : (earlier ++ later).Sublist fleet.sessions := by
    rw [hsplit]
    exact (List.Sublist.refl _).append (List.sublist_cons_self _ _)
  refine ⟨?_, ?_, ?_, ?_, hretired, hgiven⟩
  · refine List.Perm.trans (List.perm_iff_count.mpr fun n => ?_) hplaced
    rw [standing, standing, owned, owned, hdrop, hsplit]
    simp [released, Fleet.drop, List.count_cons]
    omega
  · rw [hdrop]
    exact hkeys.sublist (hsublist.map _)
  · exact List.forall_mem_cons.mpr ⟨hopen (language, session) (hsplit ▸ by simp), hinHand⟩
  · rw [hdrop]
    exact fun entry hmem => hopen entry (hsublist.subset hmem)

/-- The session of a language has been worked with. -/
theorem update (h : Orderly hand fleet) (hsession : fleet.session? language = some session)
    (hkept : session'.client.Kept) (hnumber : session'.server.number = session.server.number) :
    Orderly hand (fleet.update language session') := by
  obtain ⟨earlier, later, hsplit, hothers⟩ := h.exists_split hsession
  obtain ⟨hplaced, hkeys, hinHand, hopen, hretired, hgiven⟩ := h
  have hupdate : (fleet.update language session').sessions =
      earlier ++ (language, session') :: later := by
    have hsame : ∀ entries : List (Text × Session (Tracked σ)),
        (∀ entry ∈ entries, entry.1 ≠ language) →
          entries.map (fun s => if s.1 = language then (language, session') else s) = entries :=
      fun entries h => (List.map_congr_left fun entry hmem => if_neg (h entry hmem)).trans
        (List.map_id _)
    rw [Fleet.update, hsplit, List.map_append, List.map_cons, if_pos rfl,
      hsame earlier fun entry hmem => hothers entry (List.mem_append_left _ hmem),
      hsame later fun entry hmem => hothers entry (List.mem_append_right _ hmem)]
  refine ⟨?_, ?_, hinHand, ?_, hretired, hgiven⟩
  · refine List.Perm.trans (List.perm_iff_count.mpr fun n => ?_) hplaced
    rw [standing, standing, owned, owned, hupdate, hsplit]
    simp [released, Fleet.update, hnumber]
  · rw [hsplit] at hkeys
    rw [hupdate]
    simpa using hkeys
  · rw [hupdate]
    rw [hsplit] at hopen
    intro entry hmem
    rcases List.mem_append.mp hmem with hmem | hmem
    · exact hopen entry (List.mem_append_left _ hmem)
    · rcases List.mem_cons.mp hmem with rfl | hmem
      · exact hkept
      · exact hopen entry (List.mem_append_right _ (List.mem_cons_of_mem _ hmem))

variable [Peer σ]

/-- A session in hand is retired. -/
theorem retire (h : Orderly (session :: hand) fleet) (language : Text) :
    Orderly hand (fleet.retire language session) := by
  obtain ⟨hplaced, hkeys, hinHand, hopen, hretired, hgiven⟩ := h
  obtain ⟨hkept, hrest⟩ := List.forall_mem_cons.mp hinHand
  have hnumber : session.close.server.number = session.server.number := session.client.number_close
  refine ⟨?_, hkeys, hrest, hopen, ?_, hgiven⟩
  · refine List.Perm.trans (List.perm_iff_count.mpr fun n => ?_) hplaced
    simp [standing, owned, released, Fleet.retire, hnumber, List.count_cons]
    omega
  · intro entry hmem
    rcases List.mem_append.mp hmem with hmem | hmem
    · exact hretired entry hmem
    · rw [List.mem_singleton.mp hmem]
      exact hkept.close

/-- The session of a language whose server has ended is retired. -/
theorem retireEnded (h : Orderly hand fleet) (language : Text) :
    Orderly hand (fleet.retireEnded language) := by
  rcases retireEnded_cases language fleet with ⟨hsame, -⟩ | ⟨ended, hsession, -, text, hretired⟩
  · rw [hsame]
    exact h
  · rw [hretired]
    have hremarked : Orderly hand (fleet.remark .warning text) := h.of_site rfl rfl
    exact (hremarked.take hsession).retire language

/-- Polling one session after the other keeps order. -/
theorem pollEach (h : Orderly [] fleet) (s : Surroundings) (languages : List Text) :
    Orderly [] (pollEach s languages fleet).2 := by
  refine pollEach_induction (P := Orderly []) ?_ s languages h
  intro fleet language session result session' site' h hsession hran
  have hkept : session.client.Kept := by
    obtain ⟨earlier, later, hsplit, -⟩ := h.exists_split hsession
    exact h.open_ (language, session) (hsplit ▸ by simp)
  obtain ⟨⟨hkept', hnumber⟩, -⟩ := hran.polled hkept
  have hworked : Orderly [] { fleet with site := site' } := h.of_site hran.launches_eq hran.abandoned_eq
  exact hworked.update hsession hkept' hnumber

end Orderly

/-! ## Giving up -/

theorem orphans_of_site (fleet : TrackedFleet η σ) {site : Site (Counting η) (Tracked σ)}
    (habandoned : site.abandoned = fleet.site.abandoned) :
    ({ fleet with site := site } : TrackedFleet η σ).orphans = fleet.orphans := by
  rw [orphans, orphans, habandoned]

theorem orphans_abandon {session : Session (Tracked σ)} (hkept : session.client.Kept)
    (fleet : TrackedFleet η σ) :
    (fleet.abandon session).orphans = fleet.orphans ++ [session.server] := by
  have hzero : session.client.connection.peer.terminations = 0 := hkept.unstopped
  simp [orphans, abandon, Site.abandonSession, Site.abandon, hzero, Session.server]

/-- Whoever is in hand is given up. -/
theorem Orderly.abandonAll {sessions : List (Session (Tracked σ))} {fleet : TrackedFleet η σ}
    (h : Orderly sessions fleet) :
    Orderly [] (sessions.foldl (fun fleet s => fleet.abandon s) fleet) ∧
      (sessions.foldl (fun fleet s => fleet.abandon s) fleet).orphans =
        fleet.orphans ++ sessions.map Session.server := by
  induction sessions generalizing fleet with
  | nil => exact ⟨h, (List.append_nil _).symm⟩
  | cons session sessions ih =>
      obtain ⟨horderly, horphans⟩ := ih h.abandon
      refine ⟨horderly, ?_⟩
      rw [List.foldl_cons, horphans, orphans_abandon (h.inHand session List.mem_cons_self),
        List.append_assoc]
      rfl

variable [Peer σ]

/-- Closing retires everybody in hand.  A fault leaves orphans, and one of them is to blame. -/
theorem Orderly.closeEach {hand : List (Text × Session (Tracked σ))} {fleet : TrackedFleet η σ}
    (h : Orderly (hand.map (·.2)) fleet) (s : Surroundings) :
    Orderly [] (closeEach s hand fleet).2 ∧
      ((Attempt.fault? (closeEach s hand fleet).1 = none ∧
          (closeEach s hand fleet).2.orphans = fleet.orphans) ∨
        ∃ f lost, Attempt.fault? (closeEach s hand fleet).1 = some f ∧
          (closeEach s hand fleet).2.orphans = fleet.orphans ++ lost ∧ ∃ w ∈ lost, w.Faulty f) := by
  let P : List (Text × Session (Tracked σ)) → TrackedFleet η σ → Prop := fun hand fleet' =>
    Orderly (hand.map (·.2)) fleet' ∧ fleet'.orphans = fleet.orphans
  have hP : P hand fleet := ⟨h, rfl⟩
  have hremark : ∀ hand fleet' level text, P hand fleet' → P hand (fleet'.remark level text) :=
    fun hand fleet' level text h => ⟨h.1.of_site rfl rfl, h.2⟩
  have hretire : ∀ language session rest fleet', P ((language, session) :: rest) fleet' →
      P rest (fleet'.retire language session) :=
    fun language session rest fleet' h => ⟨h.1.retire language, h.2⟩
  have hshutdown : ∀ language session rest fleet' result session' site',
      P ((language, session) :: rest) fleet' →
        session.Ran Client.shutdown fleet'.site result session' site' →
          P ((language, session') :: rest) { fleet' with site := site' } := by
    intro language session rest fleet' result session' site' h hran
    have hminded := hran.shutDown (h.1.inHand session List.mem_cons_self)
    exact ⟨h.1.ran hran hminded.toHolds, (orphans_of_site _ hran.abandoned_eq).trans h.2⟩
  rcases closeEach_cases hremark hretire hshutdown s hand hP with
    ⟨fleet', hclose, horderly, horphans⟩ |
      ⟨f, language, session, session', site', rest, fleet', hclose, ⟨horderly, horphans⟩, hran⟩
  · rw [hclose]
    exact ⟨horderly, Or.inl ⟨rfl, horphans⟩⟩
  · have hminded := hran.shutDown (horderly.inHand session List.mem_cons_self)
    have hworked : Orderly (session' :: rest.map (·.2)) { fleet' with site := site' } :=
      horderly.ran hran hminded.toHolds
    obtain ⟨hnone, hlost⟩ := hworked.abandonAll
    rw [orphans_of_site _ hran.abandoned_eq, horphans] at hlost
    rw [hclose]
    exact ⟨hnone, Or.inr ⟨f, (session' :: rest.map (·.2)).map Session.server, rfl, hlost,
      session'.server, List.mem_cons_self, hminded.blame f rfl⟩⟩

/-! ## Starting -/

section Starting

variable [Host η σ] {hand : List (Session (Tracked σ))} {fleet : TrackedFleet η σ}
  {command : Text} {site' : Site (Counting η) (Tracked σ)} {peer : Tracked σ}

omit [Peer σ] in
/-- Nothing is launched. -/
theorem Orderly.unlaunched (h : Orderly hand fleet)
    (hanswer : (fleet.site.answer? command).bind StartOutcome.launched? = none)
    (hleft : Site.Left command fleet.site site' []) :
    Orderly hand { fleet with site := site' } ∧ site'.host.launches = fleet.launches := by
  rcases Site.hostAfter_launches command fleet.site with ⟨-, hsame⟩ | ⟨_, hsome, -⟩
  · have hlaunches : site'.host.launches = fleet.launches := by rw [hleft.host_eq, hsame]; rfl
    exact ⟨h.of_site hlaunches (hleft.abandoned_eq.trans (List.append_nil _)), hlaunches⟩
  · rw [hanswer] at hsome
    cases hsome

omit [Peer σ] in
/-- A server that was launched has the next number, and has not been asked anything. -/
theorem launched_new {given : List (Nat × Tracked σ)}
    (hanswer : (fleet.site.answer? command).bind StartOutcome.launched? = some peer)
    (hleft : Site.Left command fleet.site site' given) :
    site'.host.launches = fleet.launches + 1 ∧ ∃ server, peer = .of ⟨fleet.launches, server⟩ := by
  rcases Site.hostAfter_launches command fleet.site with ⟨hnone, -⟩ | ⟨_, hsome, hnext⟩
  · rw [hanswer] at hnone
    cases hnone
  · obtain rfl := Option.some.inj (hanswer.symm.trans hsome)
    exact ⟨by rw [hleft.host_eq, hnext]; rfl, _, rfl⟩

omit [Peer σ] in
/-- A session is made of the server that was launched. -/
theorem Orderly.launched (h : Orderly hand fleet)
    (hanswer : (fleet.site.answer? command).bind StartOutcome.launched? = some peer)
    (hleft : Site.Left command fleet.site site' []) (session : Session (Tracked σ))
    (hkept : session.client.Kept) (hserver : session.server = peer) :
    Orderly (session :: hand) { fleet with site := site' } ∧
      site'.host.launches = fleet.launches + 1 := by
  obtain ⟨hlaunches, server, rfl⟩ := launched_new hanswer hleft
  have hnumber : Tracked.number (.of ⟨fleet.launches, server⟩) = fleet.launches := rfl
  have habandoned : site'.abandoned = fleet.site.abandoned :=
    hleft.abandoned_eq.trans (List.append_nil _)
  obtain ⟨hplaced, hkeys, hinHand, hopen, hretired, hgiven⟩ := h
  refine ⟨⟨?_, hkeys, List.forall_mem_cons.mpr ⟨hkept, hinHand⟩, hopen, hretired,
    habandoned ▸ hgiven⟩, hlaunches⟩
  rw [launches, hlaunches, List.range_succ]
  refine List.Perm.trans (List.perm_iff_count.mpr fun n => ?_) (hplaced.append_right _)
  simp [standing, owned, Fleet.released, habandoned, hserver, hnumber, List.count_cons]
  omega

omit [Peer σ] in
/-- The server that was launched is released at once. -/
theorem Orderly.released (h : Orderly hand fleet)
    (hanswer : (fleet.site.answer? command).bind StartOutcome.launched? = some peer)
    {processId : Nat} {w : Tracked σ}
    (hleft : Site.Left command fleet.site site' [(processId, w)]) (hnumber : w.number = peer.number)
    (hle : w.terminations ≤ 1) :
    Orderly hand { fleet with site := site' } ∧ site'.host.launches = fleet.launches + 1 := by
  obtain ⟨hlaunches, server, rfl⟩ := launched_new hanswer hleft
  have hpeer : Tracked.number (.of ⟨fleet.launches, server⟩) = fleet.launches := rfl
  obtain ⟨hplaced, hkeys, hinHand, hopen, hretired, hgiven⟩ := h
  refine ⟨⟨?_, hkeys, hinHand, hopen, hretired, ?_⟩, hlaunches⟩
  · rw [launches, hlaunches, List.range_succ]
    refine List.Perm.trans (List.perm_iff_count.mpr fun n => ?_) (hplaced.append_right _)
    simp [standing, owned, Fleet.released, hleft.abandoned_eq, hnumber, hpeer, List.count_cons]
  · rw [hleft.abandoned_eq]
    intro entry hmem
    rcases List.mem_append.mp hmem with hmem | hmem
    · exact hgiven entry hmem
    · rw [List.mem_singleton.mp hmem]
      exact hle

/-- The orphans of a start, by how it ends: nobody, unless a fault cuts it short after the launch. -/
inductive Forfeits (fleet fleet' : TrackedFleet η σ) (bar : Fault → Prop)
    (blame : Fault → Tracked σ → Prop) : Option Fault → List (Tracked σ) → Prop
  | nothing : Forfeits fleet fleet' bar blame none []
  | unlaunched {f : Fault} (hlaunches : fleet'.launches = fleet.launches) (hbar : bar f) :
      Forfeits fleet fleet' bar blame (some f) []
  | orphan {f : Fault} {w : Tracked σ} (hlaunches : fleet'.launches = fleet.launches + 1)
      (hblame : blame f w) : Forfeits fleet fleet' bar blame (some f) [w]

/-- The command cannot be handed to the system. -/
def StartBar (command : Text) (fleet : TrackedFleet η σ) (f : Fault) : Prop :=
  fleet.site.answer? command = some (.impossible f)

/-- Why a start is cut short after the launch: the workspace cannot be named, the trace cannot be
started, nothing can be recorded in it, or the server is to blame. -/
def StartBlame (s : Surroundings) (language command : Text) (fleet : TrackedFleet η σ) (f : Fault)
    (w : Tracked σ) : Prop :=
  (∃ e, fleet.introduction s = .error e ∧ f = .notEncodable e) ∨
    fleet.site.traceFault? s fleet.config (some language) command = some f ∨
    fleet.site.traceObstacle? s fleet.config (some language) command = some f ∨ w.Faulty f

omit [Host η σ] in
/-- **A session that is opened, or is not, is accounted for.** -/
theorem Opens.orderly {s : Surroundings} {language : Text} {session : Session (Tracked σ)}
    {fleet' : TrackedFleet η σ} {result : Except (Stop FleetError) (Session (Tracked σ))}
    (h : Opens s language session fleet result fleet') (ho : Orderly [session] fleet) :
    Orderly result.toOption.toList fleet' ∧ fleet'.launches = fleet.launches ∧
      ((Attempt.fault? result = none ∧ fleet'.orphans = fleet.orphans) ∨
        ∃ f w, Attempt.fault? result = some f ∧ fleet'.orphans = fleet.orphans ++ [w] ∧
          ((∃ e, fleet.introduction s = .error e ∧ f = .notEncodable e) ∨
            session.obstacle? = some f ∨ w.Faulty f)) := by
  have hkept := ho.inHand session List.mem_cons_self
  cases h with
  | @unnamed e hparams =>
      exact ⟨ho.abandon, rfl, Or.inr ⟨_, _, rfl, orphans_abandon hkept fleet, Or.inl ⟨e, hparams, rfl⟩⟩⟩
  | opened hran =>
      have hintroduced := hran.introduced hkept
      have hworked := ho.ran hran hintroduced.toHolds
      exact ⟨hworked, hran.launches_eq, Or.inl ⟨rfl, orphans_of_site fleet hran.abandoned_eq⟩⟩
  | refused hran =>
      have hintroduced := hran.introduced hkept
      have hworked := ho.ran hran hintroduced.toHolds
      exact ⟨hworked.retire language, hran.launches_eq,
        Or.inl ⟨rfl, orphans_of_site fleet hran.abandoned_eq⟩⟩
  | @broken params f session' site' hran =>
      have hintroduced := hran.introduced hkept
      have hworked := ho.ran hran hintroduced.toHolds
      refine ⟨hworked.abandon, hran.launches_eq, Or.inr ⟨f, session'.server, rfl, ?_,
        Or.inr (hintroduced.blame f rfl).symm⟩⟩
      rw [orphans_abandon hintroduced.kept, orphans_of_site fleet hran.abandoned_eq]

theorem Launches.orderly {s : Surroundings} {language : Text} {fleet' : TrackedFleet η σ}
    {result : Except (Stop FleetError) (Session (Tracked σ))}
    (h : Launches s language command fleet result fleet') (ho : Orderly [] fleet) :
    Orderly result.toOption.toList fleet' ∧ ∃ lost, fleet'.orphans = fleet.orphans ++ lost ∧
      Forfeits fleet fleet' (StartBar command fleet) (StartBlame s language command fleet)
        (Attempt.fault? result) lost := by
  cases h with
  | unlaunched hstarts =>
      cases hstarts with
      | empty hanswer hleft =>
          obtain ⟨horderly, -⟩ := ho.unlaunched (by rw [hanswer]; rfl) hleft
          exact ⟨horderly, [], (List.append_nil _).symm, .nothing⟩
      | refused hanswer hleft =>
          obtain ⟨horderly, -⟩ := ho.unlaunched (by rw [hanswer]; rfl) hleft
          exact ⟨horderly, [], by rw [orphans, hleft.abandoned_eq]; simp [orphans], .nothing⟩
      | impossible hanswer hleft =>
          obtain ⟨horderly, hlaunches⟩ := ho.unlaunched (by rw [hanswer]; rfl) hleft
          exact ⟨horderly, [], by rw [orphans, hleft.abandoned_eq]; simp [orphans],
            .unlaunched hlaunches hanswer⟩
      | @unusable processId peer e site' hanswer hleft =>
          have hlaunched : (fleet.site.answer? command).bind StartOutcome.launched? = some peer := by
            rw [hanswer]
            rfl
          obtain ⟨-, server, rfl⟩ := launched_new hlaunched hleft
          obtain ⟨horderly, -⟩ := ho.released hlaunched hleft rfl (Nat.le_refl 1)
          refine ⟨horderly, [], ?_, .nothing⟩
          rw [orphans, hleft.abandoned_eq, List.map_append, List.filter_append]
          rfl
      | @untraced processId peer f site' hanswer htrace hleft =>
          have hlaunched : (fleet.site.answer? command).bind StartOutcome.launched? = some peer := by
            rw [hanswer]
            rfl
          obtain ⟨-, server, rfl⟩ := launched_new hlaunched hleft
          obtain ⟨horderly, hlaunches⟩ := ho.released hlaunched hleft rfl (Nat.zero_le 1)
          have hfault : fleet.site.traceFault? s fleet.config (some language) command = some f := by
            rw [Site.traceFault?, htrace]
          refine ⟨horderly, [.of ⟨fleet.launches, server⟩], ?_,
            .orphan hlaunches (Or.inr (Or.inl hfault))⟩
          rw [orphans, hleft.abandoned_eq, List.map_append, List.filter_append]
          rfl
  | @launched session site' _ _ hstarts hopens =>
      cases hstarts with
      | @started processId peer trace _ hanswer htrace hleft =>
          have hlaunched : (fleet.site.answer? command).bind StartOutcome.launched? = some peer := by
            rw [hanswer]
            rfl
          obtain ⟨-, server, rfl⟩ := launched_new hlaunched hleft
          obtain ⟨hstarted, hnext⟩ := ho.launched hlaunched hleft
            (Site.sessionOf s fleet.config (processId, .of ⟨fleet.launches, server⟩) trace)
            (Client.kept_attach _ _ _ _ _) rfl
          obtain ⟨horderly, hlaunches, hends⟩ := hopens.orderly hstarted
          have hsame : ({ fleet with site := site' } : TrackedFleet η σ).orphans = fleet.orphans :=
            orphans_of_site fleet (hleft.abandoned_eq.trans (List.append_nil _))
          rw [hsame] at hends
          refine ⟨horderly, ?_⟩
          rcases hends with ⟨hfault, horphans⟩ | ⟨f, w, hfault, horphans, hblame⟩
          · exact ⟨[], horphans.trans (List.append_nil _).symm, by rw [hfault]; exact .nothing⟩
          · refine ⟨[w], horphans, ?_⟩
            rw [hfault]
            have hobstacle : fleet.site.traceObstacle? s fleet.config (some language) command =
                trace.bind Trace.obstacle? := by
              rw [Site.traceObstacle?, htrace]
            refine .orphan (hlaunches.trans hnext) (hblame.imp_right fun hblame => Or.inr ?_)
            exact hblame.imp_left fun hsome => hobstacle.trans hsome

/-- Why nothing was launched where the session of a language was asked for. -/
def Bar (language : Text) (fleet : TrackedFleet η σ) (f : Fault) : Prop :=
  ∃ server, fleet.server? language = some server ∧ StartBar server.command fleet f

/-- Why there is an orphan where the session of a language was asked for. -/
def Blame (s : Surroundings) (language : Text) (fleet : TrackedFleet η σ) (f : Fault)
    (w : Tracked σ) : Prop :=
  ∃ server, fleet.server? language = some server ∧ StartBlame s language server.command fleet f w

omit [Host η σ] in
theorem orphans_retireEnded (language : Text) (fleet : TrackedFleet η σ) :
    (fleet.retireEnded language).orphans = fleet.orphans := by
  rcases retireEnded_cases language fleet with ⟨hsame, -⟩ | ⟨ended, -, -, text, h⟩
  · rw [hsame]
  · rw [h]
    rfl

omit [Peer σ] [Host η σ] in
theorem orphans_concluded (language : Text)
    (result : Except (Stop FleetError) (Session (Tracked σ))) (fleet : TrackedFleet η σ) :
    (fleet.concluded language result).orphans = fleet.orphans := by
  rcases result with (e | f) | session <;> rfl

omit [Host η σ] in
/-- Whom to blame is seen before a session that has ended is retired. -/
theorem startBlame_retireEnded {s : Surroundings} {language : Text} {f : Fault} {w : Tracked σ}
    (h : StartBlame s language command (fleet.retireEnded language) f w) :
    StartBlame s language command fleet f w := by
  rcases retireEnded_cases language fleet with ⟨hsame, -⟩ | ⟨ended, -, -, text, hretired⟩
  · rw [hsame] at h
    exact h
  · rw [hretired] at h
    exact h

/-- **Whoever asks for a session leaves everything accounted for.** -/
theorem Found.orderly {s : Surroundings} {language : Text} {fleet' : TrackedFleet η σ}
    {result : Except (Stop FleetError) (Session (Tracked σ))}
    (h : Found s language fleet result fleet') (ho : Orderly [] fleet) :
    Orderly [] fleet' ∧ ∃ lost, fleet'.orphans = fleet.orphans ++ lost ∧
      Forfeits fleet fleet' (Bar language fleet) (Blame s language fleet) (Attempt.fault? result)
        lost := by
  have hretired := ho.retireEnded language
  have horphans := orphans_retireEnded language fleet
  cases h with
  | disabled => exact ⟨ho, [], (List.append_nil _).symm, .nothing⟩
  | cached | remembered | unconfigured =>
      exact ⟨hretired, [], horphans.trans (List.append_nil _).symm, .nothing⟩
  | @started server _ fleet₁ _ hnone _ hserver hlaunches =>
      obtain ⟨horderly, lost, hlost, hforfeits⟩ := hlaunches.orderly hretired
      have hbefore : (fleet.retireEnded language).launches = fleet.launches := by
        rw [launches, (retireEnded_tables language fleet).2.2]
        rfl
      have hafter : (fleet₁.concluded language result).launches = fleet₁.launches := by
        rw [launches, concluded_host]
        rfl
      refine ⟨?_, lost, ?_, ?_⟩
      · rcases result with (e | f) | session
        · exact ⟨horderly.placed, horderly.keys, horderly.inHand, horderly.open_, horderly.retired,
            horderly.abandoned⟩
        · exact horderly
        · exact horderly.adopt ((hlaunches.tables.1.session?_eq language).trans hnone)
      · rw [orphans_concluded, hlost, horphans]
      · -- the launches, and whom to blame, are those of the start
        rw [server?, (retireEnded_tables language fleet).1] at hserver
        generalize Attempt.fault? result = fault at hforfeits ⊢
        cases hforfeits with
        | nothing => exact .nothing
        | unlaunched hsame hbar =>
            refine .unlaunched (hafter.trans (hsame.trans hbefore)) ⟨server, hserver, ?_⟩
            rw [StartBar, Site.answer?, (retireEnded_tables language fleet).2.2] at hbar
            exact hbar
        | orphan hnext hblame =>
            exact .orphan (hafter.trans (hnext.trans (congrArg (· + 1) hbefore)))
              ⟨server, hserver, startBlame_retireEnded hblame⟩

end Starting

end Fleet

end LanguageClient
