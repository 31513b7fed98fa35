import LanguageClient.Trace

/-!
# What a trace records

A trace goes through a journal and makes an attempt to record each message in it.  Here nothing is
known of an attempt (`Recorder`): it may change the files in any way, and it may be refused for any
reason, at any of the messages.  The trace that goes to the file of a system is a case of it
(`follow_eq_followWith`).

## Strategy

An attempt can be watched, as a server can: a `watched` recorder does what the recorder does and
keeps a list of the attempts.  Everything is then an induction over the journal: watching changes
nothing (`followWith_watched`), the attempts are the messages in order, with numbers that count up
(`exists_recordings`), and the journal goes on as it was, with a complaint for each attempt that was
refused.
-/

namespace LanguageClient

/-- The message that went out or came in. -/
def Entry.traffic? : Entry → Option (Direction × Members)
  | traffic direction message => some (direction, message)
  | remark _ _ => none

/-- An attempt to record a message: the wording of what was refused, if anything was, and the files
after it. -/
abbrev Recorder (F : Type) := Direction → Members → Trace → F → Option Text × F

namespace Trace

variable {F : Type}

/-- The remark on a message that could not be recorded. -/
def refusal (number : Nat) (wording : Text) : Entry :=
  .remark .error ("Failed to record trace entry " ++ Text.ofNat number ++ Text.ofString ": " ++ wording)

/-- Records the traffic of a journal, one attempt for each message.  A complaint stands behind the
message that it is about. -/
def followWith (record : Recorder F) : (t : Trace) → (files : F) → Journal → Trace × F × Journal
  | t, files, [] => (t, files, [])
  | t, files, .remark level text :: journal =>
    let (t, files, rest) := followWith record t files journal
    (t, files, .remark level text :: rest)
  | t, files, .traffic direction message :: journal =>
    let (refused, files) := record direction message t files
    let (last, files, rest) := followWith record t.next files journal
    (last, files,
      .traffic direction message :: ((refused.map (refusal t.counter)).toList ++ rest))

/-- What is recorded of two journals is recorded of the one that they make together. -/
theorem followWith_append (record : Recorder F) (t : Trace) (files : F) (journal journal' : Journal) :
    followWith record t files (journal ++ journal') =
      let first := followWith record t files journal
      let second := followWith record first.1 first.2.1 journal'
      (second.1, second.2.1, first.2.2 ++ second.2.2) := by
  induction journal generalizing t files with
  | nil => rfl
  | cons entry journal ih =>
      cases entry with
      | remark level text =>
          rw [List.cons_append, followWith, followWith, ih]
          rfl
      | traffic direction message =>
          rw [List.cons_append, followWith, followWith]
          rcases record direction message t files with ⟨refused, files'⟩
          dsimp only
          rw [ih, List.cons_append, List.append_assoc]

theorem followWith_file (record : Recorder F) (t : Trace) (files : F) (journal : Journal) :
    (followWith record t files journal).1.file = t.file := by
  induction journal generalizing t files with
  | nil => rfl
  | cons entry journal ih =>
      cases entry with
      | remark level text => exact ih t files
      | traffic direction message => exact ih t.next _

/-- A trace stays with its file, and so with what stands in the way of it. -/
theorem followWith_obstacle? (record : Recorder F) (t : Trace) (files : F) (journal : Journal) :
    (followWith record t files journal).1.obstacle? = t.obstacle? := by
  rw [obstacle?, obstacle?, followWith_file]

/-! ## The file of a system -/

/-- Recording in the files of a system. -/
def recorder (s : Surroundings) : Recorder Files := fun direction message t files =>
  match record s direction message t files with
  | .ok files => (none, files)
  | .error e => (some (Fault.ofFile t.file e).message, files)

/-- A path that the system can be asked for is refused by nobody but the system. -/
theorem locate_error {files : Files} {cwd path : Text} {bytes : Bytes} {e : FileError}
    (hhanded : Files.handed path = .ok bytes) (h : files.locate cwd path = .error e) :
    ∃ code, e = .system code := by
  unfold Files.locate at h
  rw [hhanded] at h
  dsimp only at h
  split at h
  · exact ⟨_, (Except.error.inj h).symm⟩
  · split at h
    · exact ⟨_, (Except.error.inj h).symm⟩
    · split at h
      · cases h
      · exact ⟨_, (Except.error.inj h).symm⟩

/-- Where nothing stands in the way of the file, only the system refuses to record. -/
theorem record_error {s : Surroundings} {direction : Direction} {message : Members} {t : Trace}
    {files : Files} {e : FileError} (hfile : t.obstacle? = none)
    (h : record s direction message t files = .error e) : ∃ code, e = .system code := by
  unfold obstacle? at hfile
  cases hhanded : Files.handed t.file with
  | error e => rw [hhanded] at hfile; cases hfile
  | ok bytes =>
      unfold record Files.append at h
      cases hfound : files.locate s.workingDirectory t.file with
      | error e' =>
          rw [hfound] at h
          obtain ⟨code, rfl⟩ := locate_error hhanded hfound
          exact ⟨code, (Except.error.inj h).symm⟩
      | ok target =>
          rw [hfound] at h
          rcases target with ⟨place, bytes | _⟩ | place
          · cases h
          · exact ⟨_, (Except.error.inj h).symm⟩
          · cases h

/-- **The trace of a system records as any other does**, where nothing stands in the way of its
file. -/
theorem follow_eq_followWith (s : Surroundings) {t : Trace} (hfile : t.obstacle? = none)
    (files : Files) (journal : Journal) :
    follow s t files journal = followWith (recorder s) t files journal := by
  induction journal generalizing t files with
  | nil => rfl
  | cons entry journal ih =>
      cases entry with
      | remark level text => rw [follow, followWith, ih hfile]
      | traffic direction message =>
          -- the next number is for the same file
          have hnext : t.next.obstacle? = none := hfile
          rw [follow, followWith, recorder]
          cases hrecord : record s direction message t files with
          | ok files' => simp only [ih hnext, Option.map_none, Option.toList_none, List.nil_append]
          | error e =>
              obtain ⟨code, rfl⟩ := record_error hfile hrecord
              simp only [ih hnext]
              rfl

end Trace

/-! ## Watching the attempts -/

/-- An attempt to record a message. -/
structure Recording where
  number : Nat
  direction : Direction
  message : Members
  /-- The wording of what was refused. -/
  refused : Option Text

/-- The remark on the attempt, if it was refused. -/
def Recording.complaint? (r : Recording) : Option Entry := r.refused.map (Trace.refusal r.number)

/-- Files, and all attempts to record a message in them. -/
structure Recorded (F : Type) where
  files : F
  recordings : List Recording

namespace Trace

variable {F : Type}

/-- The same attempt, with a note of it. -/
def watched (record : Recorder F) : Recorder (Recorded F) := fun direction message t r =>
  let (refused, files) := record direction message t r.files
  (refused, ⟨files, r.recordings ++ [⟨t.counter, direction, message, refused⟩]⟩)

/-- Watching the attempts changes nothing. -/
theorem followWith_watched (record : Recorder F) (t : Trace) (r : Recorded F) (journal : Journal) :
    let seen := followWith (watched record) t r journal
    followWith record t r.files journal = (seen.1, seen.2.1.files, seen.2.2) := by
  induction journal generalizing t r with
  | nil => rfl
  | cons entry journal ih =>
      cases entry with
      | remark level text =>
          rw [followWith, followWith, ih]
      | traffic direction message =>
          rw [followWith, followWith, watched]
          rcases record direction message t r.files with ⟨refused, files⟩
          have hrest := ih t.next ⟨files, r.recordings ++ [⟨t.counter, direction, message, refused⟩]⟩
          dsimp only at hrest ⊢
          rw [hrest]

/-- **Every message of a journal is recorded once, in its turn and under the next number, and nothing
else is.**  The journal goes on as it was, with a complaint for each attempt that was refused. -/
theorem exists_recordings (record : Recorder F) (t : Trace) (r : Recorded F) (journal : Journal) :
    let seen := followWith (watched record) t r journal
    ∃ made, seen.2.1.recordings = r.recordings ++ made ∧
      made.map Recording.number = List.range' t.counter made.length ∧
      made.map (fun m => (m.direction, m.message)) = journal.filterMap Entry.traffic? ∧
      journal.Sublist seen.2.2 ∧
      seen.2.2.Perm (journal ++ made.filterMap Recording.complaint?) := by
  induction journal generalizing t r with
  | nil => exact ⟨[], (List.append_nil _).symm, rfl, rfl, .slnil, .nil⟩
  | cons entry journal ih =>
      cases entry with
      | remark level text =>
          obtain ⟨made, hrecordings, hnumbers, htraffic, hsub, hperm⟩ := ih t r
          exact ⟨made, hrecordings, hnumbers, htraffic, hsub.cons_cons _, hperm.cons _⟩
      | traffic direction message =>
          rcases hrecord : record direction message t r.files with ⟨refused, files⟩
          obtain ⟨made, hrecordings, hnumbers, htraffic, hsub, hperm⟩ := ih t.next
            ⟨files, r.recordings ++ [⟨t.counter, direction, message, refused⟩]⟩
          rw [followWith, watched, hrecord]
          dsimp only at hrecordings hsub hperm ⊢
          refine ⟨⟨t.counter, direction, message, refused⟩ :: made, ?_, ?_, ?_, ?_, ?_⟩
          · rw [hrecordings, List.append_assoc]
            rfl
          · rw [List.map_cons, hnumbers]
            rfl
          · rw [List.map_cons, htraffic]
            rfl
          · exact (hsub.trans (List.sublist_append_right _ _)).cons_cons _
          · refine .cons _ ?_
            cases refused with
            | none => exact hperm
            | some wording => exact (hperm.cons _).trans List.perm_middle.symm

end Trace

end LanguageClient
