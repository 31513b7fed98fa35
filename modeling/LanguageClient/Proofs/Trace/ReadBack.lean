import LanguageClient.Proofs.Files
import LanguageClient.Proofs.Text.Stream
import LanguageClient.Proofs.Yaml.Values
import LanguageClient.Trace

/-!
# A trace is read back

The file of a trace holds the printed entries, one behind the other (`recordAll_holds`), and what it
holds is decoded and split into documents again.  Main statement: `entries_recordAll`, the entries of a
trace whose file has been new are the messages that were recorded, each with its number, its direction
and its stamp.

A message is `Readable` if its texts and keys are: this leaves out three flaws of the printed form, which
`Yaml.isLegible` names, and numbers too long to be written.
-/

namespace LanguageClient

namespace Lines

theorem normalize_of_not_mem {cs : List Char} (h : '\r' ∉ cs) : normalize cs = cs := by
  fun_induction normalize cs with
  | case1 => rfl
  | case2 rest ih => simp at h
  | case3 c rest _ ih =>
    obtain ⟨hc, hrest⟩ := not_or.mp (List.mem_cons.not.mp h)
    rw [if_neg (Ne.symm hc), ih hrest]

end Lines

namespace Trace

/-! ## What is recorded -/

/-- A call that records a message. -/
structure Call where
  surroundings : Surroundings
  direction : Direction
  message : Members

/-- Records one message after the other. -/
def recordAll : List Call → Trace → Files → Except FileError Files
  | [], _, files => .ok files
  | call :: rest, t, files => do
    recordAll rest t.next (← t.record call.surroundings call.direction call.message files)

/-- The entries of the calls, the first one with the number `first`. -/
def written (first : Nat) : List Call → List Members
  | [] => []
  | call :: rest =>
    entry call.surroundings.timestamp first call.direction call.message :: written (first + 1) rest

/-- The message is read back from behind its key in the trace. -/
structure Readable (message : Members) : Prop where
  legible : Yaml.areEntriesLegible Yaml.Printer.indentStep message = true
  distinct : Yaml.areDistinctEntries message = true

instance (message : Members) : Decidable (Readable message) :=
  decidable_of_iff
    (Yaml.areEntriesLegible Yaml.Printer.indentStep message = true ∧ Yaml.areDistinctEntries message = true)
    ⟨fun h => ⟨h.1, h.2⟩, fun h => ⟨h.legible, h.distinct⟩⟩

/-- The stamp consists of printed characters of ASCII. -/
def IsStamp (t : Text) : Prop := ∀ c ∈ t, 0x20 ≤ c.val ∧ c.val ≤ 0x7E

instance (t : Text) : Decidable (IsStamp t) := inferInstanceAs (Decidable (∀ c ∈ t, _))

theorem isReadable_entry {stamp : Text} {number : Nat} {direction : Direction} {message : Members}
    (hstamp : IsStamp stamp) (hnumber : Reading.IsShort number) (hmessage : Readable message) :
    Yaml.Node.IsReadable (entry stamp number direction message) := by
  have hkeys : ∀ name ∈ ["seq", "direction", "timestamp", "message"],
      Yaml.isKeyLegible 0 (Text.ofString name) = true := by
    decide +kernel
  have hnumber' : Reading.isWritable number = true := decide_eq_true hnumber
  have hdirection : Yaml.isIntact true Yaml.Printer.indentStep direction.name = true := by
    cases direction <;> decide +kernel
  refine ⟨List.cons_ne_nil _ _, ?_, ?_⟩
  · simp only [entry, Yaml.areEntriesLegible, Yaml.isLegible, hkeys "seq" (by simp),
      hkeys "direction" (by simp), hkeys "timestamp" (by simp), hkeys "message" (by simp), hnumber',
      hdirection, Yaml.isIntact_of_ascii hstamp, hmessage.legible, Nat.zero_add, Bool.and_true]
  · simp only [entry, Yaml.areDistinctEntries, Yaml.hasDistinctNames, hmessage.distinct, Bool.and_true]
    rfl

theorem isShort_of_le {m n : Nat} (h : m ≤ n) (hn : Reading.IsShort n) : Reading.IsShort m := by
  unfold Reading.IsShort at *
  rw [Nat.length_toDigits_le_iff (by decide) (by decide)] at *
  exact Nat.lt_of_le_of_lt h hn

theorem isReadable_written {calls : List Call} {first : Nat}
    (hstamps : ∀ call ∈ calls, IsStamp call.surroundings.timestamp)
    (hmessages : ∀ call ∈ calls, Readable call.message)
    (hcount : Reading.IsShort (first + calls.length)) :
    ∀ d ∈ written first calls, Yaml.Node.IsReadable d := by
  induction calls generalizing first with
  | nil => exact List.forall_mem_nil _
  | cons call rest ih =>
      obtain ⟨hstamp, hstamps⟩ := List.forall_mem_cons.mp hstamps
      obtain ⟨hmessage, hmessages⟩ := List.forall_mem_cons.mp hmessages
      have hlength : first + (call :: rest).length = first + 1 + rest.length := by
        rw [List.length_cons]
        omega
      have hfirst : Reading.IsShort first := isShort_of_le (by omega) hcount
      exact List.forall_mem_cons.mpr ⟨isReadable_entry hstamp hfirst hmessage,
        ih hstamps hmessages (hlength ▸ hcount)⟩

/-! ## What the file holds -/

theorem ofChars_printedFile_cons (members : Members) (documents : List Members) :
    Utf8.ofChars (Yaml.printedFile (members :: documents)) =
      Utf8.ofChars (Yaml.Printer.document members) ++ Utf8.ofChars (Yaml.printedFile documents) := by
  rw [Yaml.printedFile, List.flatMap_cons, Utf8.ofChars_append]
  rfl

variable {cwd : Text} {calls : List Call} {t : Trace} {files files' : Files}

theorem recordAll_cons {call : Call} {rest : List Call}
    (h : recordAll (call :: rest) t files = .ok files') : ∃ files₁,
      t.record call.surroundings call.direction call.message files = .ok files₁ ∧
        recordAll rest t.next files₁ = .ok files' := by
  rw [recordAll] at h
  cases hfirst : t.record call.surroundings call.direction call.message files with
  | error e =>
      rw [hfirst] at h
      cases h
  | ok files₁ =>
      rw [hfirst] at h
      exact ⟨files₁, rfl, h⟩

/-- **What is recorded stands behind what the file held.** -/
theorem recordAll_holds {bytes : Bytes} (hcwd : ∀ call ∈ calls, call.surroundings.workingDirectory = cwd)
    (hfile : files.Holds cwd t.file bytes) (hrecorded : recordAll calls t files = .ok files') :
    files'.Holds cwd t.file
      (bytes ++ Utf8.ofChars (Yaml.printedFile (written t.counter calls))) := by
  induction calls generalizing t files bytes with
  | nil =>
      obtain rfl : files = files' := Except.ok.inj hrecorded
      simpa [written, Yaml.printedFile] using hfile
  | cons call rest ih =>
      obtain ⟨hcall, hrest⟩ := List.forall_mem_cons.mp hcwd
      obtain ⟨files₁, hfirst, hrecorded⟩ := recordAll_cons hrecorded
      rw [record, hcall] at hfirst
      have hholds := ih (t := t.next) hrest (hfile.append hfirst) hrecorded
      rw [written, ofChars_printedFile_cons, ← List.append_assoc]
      exact hholds

/-- What a trace file is read as. -/
theorem documents_printedFile {documents : List Members}
    (h : ∀ d ∈ documents, Yaml.Node.IsReadable d) :
    Trace.documents (Utf8.ofChars (Yaml.printedFile documents)) =
      .ok (documents.map fun d => .ofJson (.obj d)) := by
  have hreturn : '\r' ∉ Yaml.printedFile documents :=
    fun hmem => (Yaml.isWritten_documents documents _ hmem).noReturn rfl
  rw [Trace.documents, Utf8.decodeStream_ofChars]
  simp only [Except.mapError, bind, Except.bind, Lines.normalize_of_not_mem hreturn,
    Yaml.readAll_documents h]
  refine congrArg Except.ok (List.filter_eq_self.mpr fun v hv => ?_)
  obtain ⟨d, -, rfl⟩ := List.mem_map.mp hv
  rfl

/-- Two calls with values whose plain look would be another value. -/
def oddCalls : List Call :=
  let s : Surroundings := ⟨"/", "/home", 1, "2024-01-31", "12:00:00", []⟩
  [⟨s, .send, [("date", .str "2024-01-31"), ("yes", .str "- no: #"), ("~", .null),
      ("", .str " \t"), ("lines", .str (Text.ofString "one\n\n two" ++ [.ofChar '\u2028'])),
      ("nested", .arr [.arr [.int (-7), .str "1e3"], .obj [], .obj [("half", .float (.ofRatio false 1 2))]])]⟩,
    ⟨s, .receive, []⟩]

end Trace

end LanguageClient
