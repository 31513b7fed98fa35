import LanguageClient.Config.Load
import LanguageClient.Proofs.Attempt
import LanguageClient.Proofs.Config.Settings

/-!
# What loading a configuration comes to

A configuration is loaded, with at least one poll cycle, or there is an error of the configuration.
Five kinds of faults are neither, and `Escapes` lists them.  Main statement: `load_outcome`.

```text
whether there is a file    a name in the path is too long
its bytes                  they are not UTF-8
its document               a scalar has no value, though the form is right
its settings               a number is out of range, or a value cannot be shown
the last remark            the id of a language is no text
```

## Strategy

The steps are taken one after another, and each of them stops the loading or does not, so a fault is
traced to its step.  The environment never is the step: a variable that is refused is an error, and
whether one is refused does not depend on the configuration (`withEnvironment_cases`).
-/

namespace LanguageClient.Config

open Yaml (Value)
open Stopping

/-! ## The environment -/

section Environment

variable {ι α : Type}

/-- The variable is not set, or its text is read. -/
def VariableFits (s : Surroundings) (name : Text) (read : Text → Except ConfigError α) : Prop :=
  ∀ t, s.lookup? name = some t → ∃ a, read t = .ok a

/-- A variable has its effect, or it stops everything with an error. -/
theorem takeOver_cases {P : Config ι → Prop} {c : Config ι} (hc : P c) (s : Surroundings)
    (name : Text) (read : Text → Except ConfigError α) (change : α → Config ι → Config ι)
    (hchange : ∀ a, P (change a c)) :
    (VariableFits s name read ∧ ∃ c', takeOver s name read change c = (.ok (), c') ∧ P c') ∨
      ¬ VariableFits s name read ∧
        ∃ e, takeOver s name read change c = (.error (.failed e), c) := by
  unfold takeOver VariableFits
  cases s.lookup? name with
  | none => exact Or.inl ⟨fun t h => (nomatch h), c, rfl, hc⟩
  | some t =>
      dsimp only
      cases hread : read t with
      | ok a =>
          refine Or.inl ⟨fun t' h => ?_, change a c, rfl, hchange a⟩
          obtain rfl := Option.some.inj h
          exact ⟨a, hread⟩
      | error e =>
          refine Or.inr ⟨fun h => ?_, e, rfl⟩
          obtain ⟨a, ha⟩ := h t rfl
          cases hread.symm.trans ha

/-- The variables that are set have the right form. -/
structure EnvironmentFits (s : Surroundings) : Prop where
  timeout : VariableFits s "EDITOR_LSP_POLL_TIMEOUT" readTimeout
  cycles : VariableFits s "EDITOR_LSP_POLL_CYCLES" readCycles
  trace : VariableFits s "EDITOR_LSP_TRACE" readTrace

/-- The languages are as before, and there is at least one poll cycle. -/
def Keeps (c c' : Config ι) : Prop := c'.languages = c.languages ∧ 1 ≤ c'.cycles

/-- The environment is taken over, or one of its variables is refused. -/
theorem withEnvironment_cases (s : Surroundings) {c : Config ι} (hc : 1 ≤ c.cycles) :
    (EnvironmentFits s ∧ ∃ c', withEnvironment s c = .ok c' ∧ Keeps c c') ∨
      ¬ EnvironmentFits s ∧ ∃ e, withEnvironment s c = .error (.failed e) := by
  unfold withEnvironment applyEnvironment
  rcases takeOver_cases (P := Keeps c) ⟨rfl, hc⟩ s "EDITOR_LSP_POLL_TIMEOUT" readTimeout
      (fun x c => { c with pollTimeout := x }) fun x => ⟨rfl, hc⟩ with
    ⟨htimeout, c₁, h₁, hkept₁⟩ | ⟨htimeout, e, h₁⟩
  · rw [Attempt.bind_of_ok h₁]
    rcases takeOver_cases hkept₁ s "EDITOR_LSP_POLL_CYCLES" readCycles
        (fun n c => { c with cycles := max 1 n }) fun n => ⟨hkept₁.1, Int.le_max_left 1 n⟩ with
      ⟨hcycles, c₂, h₂, hkept₂⟩ | ⟨hcycles, e, h₂⟩
    · rw [Attempt.bind_of_ok h₂]
      rcases takeOver_cases hkept₂ s "EDITOR_LSP_TRACE" readTrace
          (fun trace c => { c with trace := trace }) fun trace => hkept₂ with
        ⟨htrace, c₃, h₃, hkept₃⟩ | ⟨htrace, e, h₃⟩
      · exact Or.inl ⟨⟨htimeout, hcycles, htrace⟩, c₃, by rw [h₃], hkept₃⟩
      · exact Or.inr ⟨fun h => htrace h.trace, e, by rw [h₃]⟩
    · exact Or.inr ⟨fun h => hcycles h.cycles, e, by rw [Attempt.bind_of_error h₂]⟩
  · exact Or.inr ⟨fun h => htimeout h.timeout, e, by rw [Attempt.bind_of_error h₁]⟩

end Environment

/-! ## The file -/

theorem exists?_eq_error_iff {files : Files} {cwd path : Text} {e : FileError} :
    files.exists? cwd path = .error e ↔
      files.locate cwd path = .error (.system .nameTooLong) ∧ e = .system .nameTooLong := by
  unfold Files.exists?
  split <;> simp_all [eq_comm]

theorem exists?_eq_true_iff {files : Files} {cwd path : Text} :
    files.exists? cwd path = .ok true ↔
      ∃ place node, files.locate cwd path = .ok (.found place node) := by
  unfold Files.exists?
  split <;> simp_all

/-- What is there is read, unless it is a directory. -/
theorem read_of_exists? {files : Files} {cwd path : Text} (h : files.exists? cwd path = .ok true) :
    (∃ bytes, files.read cwd path = .ok bytes) ∨
      files.read cwd path = .error (.system .isADirectory) := by
  obtain ⟨place, node, hlocate⟩ := exists?_eq_true_iff.mp h
  unfold Files.read
  rw [hlocate]
  cases node with
  | file bytes => exact Or.inl ⟨bytes, rfl⟩
  | directory => exact Or.inr rfl

/-- What is read is there. -/
theorem exists?_of_read {files : Files} {cwd path : Text} {bytes : Bytes}
    (h : files.read cwd path = .ok bytes) : files.exists? cwd path = .ok true := by
  obtain ⟨target, hlocate, hread⟩ := bind_eq_ok_iff.mp h
  cases target with
  | found place node => exact exists?_eq_true_iff.mpr ⟨place, node, hlocate⟩
  | free place => cases hread

/-- The file at the path holds the mapping. -/
def Holds (s : Surroundings) (files : Files) (path : Text) (entries : List (Value × Value)) : Prop :=
  ∃ bytes, files.read s.workingDirectory path = .ok bytes ∧ valueOf path bytes = .ok (.map entries)

/-- Some language of the mapping has an id that is no text. -/
def HasUntypedId (entries : List (Value × Value)) : Prop :=
  ∃ languages, languageEntries? entries = some languages ∧ ∃ e ∈ languages, ∀ t, e.1 ≠ .str t

/-- What leaves the loading of a configuration without being an error of it. -/
inductive Escapes (s : Surroundings) (files : Files) (path : Text) : Fault → Prop
  /-- The path is too long, or a name in it is. -/
  | path (h : files.locate s.workingDirectory path = .error (.system .nameTooLong)) :
      Escapes s files path (.system ⟨.nameTooLong, some path⟩)
  /-- The bytes of the file are not UTF-8. -/
  | bytes {bytes : Bytes} {e : Utf8.DecodeError}
      (hread : files.read s.workingDirectory path = .ok bytes)
      (hbytes : Utf8.decodeStream bytes = .error e) : Escapes s files path (.notDecodable e)
  /-- A scalar of the document has no value, though the document is well-formed. -/
  | scalar {bytes : Bytes} {chars : List Char} {e : Yaml.Error}
      (hread : files.read s.workingDirectory path = .ok bytes)
      (hbytes : Utf8.decodeStream bytes = .ok chars)
      (hscalar : Yaml.read (Lines.normalize chars) = .error e) (he : e ≠ .malformed) :
      Escapes s files path (.badYaml e)
  /-- A setting has a value for which there is no error. -/
  | setting {entries : List (Value × Value)} {f : Fault} (hholds : Holds s files path entries)
      (hbreaks : Breaks entries f) : Escapes s files path f
  /-- All is well, but the id of a language is no text. -/
  | language {entries : List (Value × Value)} (hholds : Holds s files path entries)
      (hfits : Fits entries) (henvironment : EnvironmentFits s) (hid : HasUntypedId entries) :
      Escapes s files path .wrongKind

/-! ## The document -/

/-- What is wrong with the text of a document: nothing but its form is an error of the
configuration. -/
def documentStop (path : Text) : Yaml.Error → Stop ConfigError
  | .malformed => .failed (.malformed path)
  | e => .faulted (.badYaml e)

theorem documentStop_eq_faulted_iff {path : Text} {e : Yaml.Error} {f : Fault} :
    documentStop path e = .faulted f ↔ e ≠ .malformed ∧ .badYaml e = f := by
  cases e <;> simp [documentStop]

theorem valueOf_eq (path : Text) (bytes : Bytes) : valueOf path bytes = do
    let chars ← (Utf8.decodeStream bytes).mapError fun e => .faulted (.notDecodable e)
    let v ← (Yaml.read (Lines.normalize chars)).mapError (documentStop path)
    return if v.isTruthy then v else .map [] := rfl

theorem valueOf_faulted_iff {path : Text} {bytes : Bytes} {f : Fault} :
    valueOf path bytes = .error (.faulted f) ↔
      (∃ e, Utf8.decodeStream bytes = .error e ∧ .notDecodable e = f) ∨
        ∃ chars, Utf8.decodeStream bytes = .ok chars ∧
          ∃ e, Yaml.read (Lines.normalize chars) = .error e ∧ e ≠ .malformed ∧ .badYaml e = f := by
  simp only [valueOf_eq, bind_eq_error_iff, mapError_eq_error_iff, mapError_eq_ok_iff,
    pure_ne_error, and_false, exists_false, or_false, documentStop_eq_faulted_iff,
    Stop.faulted.injEq]

/-- The id of a language as a text, with its server. -/
def textual? (l : Value × LanguageServer) : Option (Text × LanguageServer) :=
  match l.1 with
  | .str id => some (id, l.2)
  | _ => none

theorem textual?_eq_none_iff (l : Value × LanguageServer) :
    textual? l = none ↔ ∀ t, l.1 ≠ .str t := by
  unfold textual?
  cases l.1 <;> simp

theorem named?_eq_none_iff (c : Config Value) :
    c.named? = none ↔ ∃ l ∈ c.languages, ∀ t, l.1 ≠ .str t := by
  have hnamed : c.named? = (c.languages.mapM textual?).bind fun languages =>
    some { c with languages := languages } := rfl
  simp only [hnamed, Option.bind_eq_none_iff, reduceCtorEq, imp_false,
    ← Option.eq_none_iff_forall_ne_some, mapM_eq_none_iff, textual?_eq_none_iff]

theorem cycles_of_named? {c : Config Value} {c' : Config Text} (h : c.named? = some c') :
    c'.cycles = c.cycles := by
  obtain ⟨languages, -, hc'⟩ := Option.bind_eq_some_iff.mp h
  exact (congrArg Config.cycles (Option.some.inj hc')).symm

/-! ## Loading -/

/-- The configuration with texts for ids, as the last step demands it. -/
def typed (c : Config Value) : Except (Stop ConfigError) (Config Text) :=
  match c.named? with
  | some config => .ok config
  | none => .error (.faulted .wrongKind)

/-- The steps behind the reading of a file. -/
def finish (s : Surroundings) (v : Value) : Except (Stop ConfigError) (Config Text) :=
  ofValue v >>= fun c => withEnvironment s c >>= typed

variable {s : Surroundings} {files : Files} {path : Option Text}

theorem load_of_read {bytes : Bytes}
    (h : files.read s.workingDirectory (pathOf s path) = .ok bytes) :
    load s files path = valueOf (pathOf s path) bytes >>= finish s := by
  unfold load
  simp only [exists?_of_read h, h]
  rfl

theorem load_of_absent (h : files.exists? s.workingDirectory (pathOf s path) = .ok false) :
    load s files path = withEnvironment s (standard Text) := by
  unfold load
  simp only [h]
  cases withEnvironment s (standard Text) <;> rfl

theorem load_of_directory (h : files.exists? s.workingDirectory (pathOf s path) = .ok true)
    (hread : files.read s.workingDirectory (pathOf s path) = .error (.system .isADirectory)) :
    ∃ e, load s files path = .error (.failed e) := by
  unfold load
  simp only [h, hread]
  exact ⟨_, rfl⟩

theorem load_of_exists?_error {e : FileError}
    (h : files.exists? s.workingDirectory (pathOf s path) = .error e) :
    load s files path = .error (.faulted (.ofFile (pathOf s path) e)) := by
  unfold load
  simp only [h]
  rfl

theorem named?_eq_none_iff_hasUntypedId {entries : List (Value × Value)} {config c : Config Value}
    (h : ofValue (.map entries) = .ok config) (hkept : Keeps config c) :
    c.named? = none ↔ HasUntypedId entries := by
  obtain ⟨-, languages, hlanguages, hids⟩ := ofValue_eq_ok h
  have hkeys {β : Type} (l : List (Value × β)) :
      (∃ e ∈ l, ∀ t, e.1 ≠ .str t) ↔ ∃ id ∈ l.map (·.1), ∀ t, id ≠ .str t := by
    simp
  simp only [HasUntypedId, hlanguages, Option.some.injEq, exists_eq_left']
  rw [named?_eq_none_iff, hkeys, hkept.1, hids, ← hkeys]

theorem typed_faulted_iff {c : Config Value} {f : Fault} :
    typed c = .error (.faulted f) ↔ c.named? = none ∧ .wrongKind = f := by
  unfold typed
  cases c.named? <;> simp

theorem cycles_of_typed {c : Config Value} {config : Config Text} (h : typed c = .ok config) :
    config.cycles = c.cycles := by
  unfold typed at h
  cases hname : c.named? with
  | none => simp [hname] at h
  | some named =>
      simp only [hname, Except.ok.injEq] at h
      rw [← h, cycles_of_named? hname]

/-- What breaks off the reading of a mapping, from its first setting to the ids of its languages. -/
theorem finish_faulted_iff {entries : List (Value × Value)} {f : Fault} :
    finish s (.map entries) = .error (.faulted f) ↔ Breaks entries f ∨
      Fits entries ∧ EnvironmentFits s ∧ HasUntypedId entries ∧ .wrongKind = f := by
  rw [← ofValue_faulted_iff, ← exists_ofValue_eq_ok_iff, finish, bind_eq_error_iff]
  cases hvalue : ofValue (.map entries) with
  | error stop => simp
  | ok config =>
      rcases withEnvironment_cases s (ofValue_eq_ok hvalue).1 with
        ⟨hfits, c, hc, hkept⟩ | ⟨hfits, e, he⟩
      · simp [hc, hfits, typed_faulted_iff, named?_eq_none_iff_hasUntypedId hvalue hkept]
      · simp [he, hfits]

/-- A configuration that has been read has at least one poll cycle. -/
theorem one_le_cycles_of_finish {v : Value} {config : Config Text} (h : finish s v = .ok config) :
    1 ≤ config.cycles := by
  obtain ⟨c, hvalue, h⟩ := bind_eq_ok_iff.mp h
  obtain ⟨c', henvironment, hconfig⟩ := bind_eq_ok_iff.mp h
  have hc : 1 ≤ c.cycles := by
    cases v with
    | map entries => exact (ofValue_eq_ok hvalue).1
    | _ => cases hvalue
  rcases withEnvironment_cases s hc with ⟨-, c'', hc'', hkept⟩ | ⟨-, e, he⟩
  · obtain rfl := Except.ok.inj (hc''.symm.trans henvironment)
    rw [cycles_of_typed hconfig]
    exact hkept.2
  · cases he.symm.trans henvironment

/-- What escapes when a file is there and has been read. -/
theorem load_faulted_iff_of_read {bytes : Bytes} {f : Fault}
    (hread : files.read s.workingDirectory (pathOf s path) = .ok bytes) :
    load s files path = .error (.faulted f) ↔ Escapes s files (pathOf s path) f := by
  rw [load_of_read hread, bind_eq_error_iff, valueOf_faulted_iff]
  constructor
  · rintro ((⟨e, hbytes, rfl⟩ | ⟨chars, hbytes, e, hscalar, he, rfl⟩) | ⟨v, hvalue, hfinish⟩)
    · exact .bytes hread hbytes
    · exact .scalar hread hbytes hscalar he
    · cases v with
      | map entries =>
          have hholds : Holds s files (pathOf s path) entries := ⟨bytes, hread, hvalue⟩
          rcases finish_faulted_iff.mp hfinish with hbreaks | ⟨hfits, henvironment, hid, rfl⟩
          · exact .setting hholds hbreaks
          · exact .language hholds hfits henvironment hid
      | _ => cases hfinish
  · intro h
    cases h with
    | path hlocate =>
        have hexists := exists?_eq_error_iff.mpr ⟨hlocate, rfl⟩
        cases hexists.symm.trans (exists?_of_read hread)
    | bytes hread' hbytes =>
        obtain rfl := Except.ok.inj (hread'.symm.trans hread)
        exact Or.inl (Or.inl ⟨_, hbytes, rfl⟩)
    | scalar hread' hbytes hscalar he =>
        obtain rfl := Except.ok.inj (hread'.symm.trans hread)
        exact Or.inl (Or.inr ⟨_, hbytes, _, hscalar, he, rfl⟩)
    | setting hholds hbreaks =>
        obtain ⟨bytes', hread', hvalue⟩ := hholds
        obtain rfl := Except.ok.inj (hread'.symm.trans hread)
        exact Or.inr ⟨_, hvalue, finish_faulted_iff.mpr (Or.inl hbreaks)⟩
    | language hholds hfits henvironment hid =>
        obtain ⟨bytes', hread', hvalue⟩ := hholds
        obtain rfl := Except.ok.inj (hread'.symm.trans hread)
        exact Or.inr ⟨_, hvalue, finish_faulted_iff.mpr (Or.inr ⟨hfits, henvironment, hid, rfl⟩)⟩

/-- Where nothing can be read, only the path itself escapes. -/
theorem Escapes.locate_of_not_read {path : Text} {f : Fault} (h : Escapes s files path f)
    (hread : ∀ bytes, files.read s.workingDirectory path ≠ .ok bytes) :
    files.locate s.workingDirectory path = .error (.system .nameTooLong) ∧
      f = .system ⟨.nameTooLong, some path⟩ := by
  cases h with
  | path hlocate => exact ⟨hlocate, rfl⟩
  | bytes hread' | scalar hread' => exact absurd hread' (hread _)
  | setting hholds | language hholds =>
      obtain ⟨bytes, hread', -⟩ := hholds
      exact absurd hread' (hread bytes)

/-- What is read was there. -/
theorem not_read_of_exists?_ne {cwd path : Text} (h : files.exists? cwd path ≠ .ok true)
    (bytes : Bytes) : files.read cwd path ≠ .ok bytes :=
  fun hread => h (exists?_of_read hread)

/-- **The faults that escape from the loading are those of the table.** -/
theorem load_faulted_iff (f : Fault) :
    load s files path = .error (.faulted f) ↔ Escapes s files (pathOf s path) f := by
  cases hexists : files.exists? s.workingDirectory (pathOf s path) with
  | error e =>
      obtain ⟨hlocate, rfl⟩ := exists?_eq_error_iff.mp hexists
      rw [load_of_exists?_error hexists]
      constructor
      · intro h
        obtain rfl := Stop.faulted.inj (Except.error.inj h)
        exact .path hlocate
      · intro h
        rw [(h.locate_of_not_read (not_read_of_exists?_ne (by simp [hexists]))).2]
        rfl
  | ok present =>
      cases present with
      | false =>
          refine iff_of_false (fun h => ?_) fun h => ?_
          · rw [load_of_absent hexists] at h
            rcases withEnvironment_cases s (c := standard Text) (by decide) with
              ⟨-, c, hc, -⟩ | ⟨-, e, he⟩
            · cases hc.symm.trans h
            · cases he.symm.trans h
          · have hlocate := (h.locate_of_not_read (not_read_of_exists?_ne (by simp [hexists]))).1
            cases hexists.symm.trans (exists?_eq_error_iff.mpr ⟨hlocate, rfl⟩)
      | true =>
          rcases read_of_exists? hexists with ⟨bytes, hread⟩ | hread
          · exact load_faulted_iff_of_read hread
          · obtain ⟨e, he⟩ := load_of_directory hexists hread
            refine iff_of_false (fun h => ?_) fun h => ?_
            · cases he.symm.trans h
            · have hlocate := (h.locate_of_not_read (by simp [hread])).1
              cases hexists.symm.trans (exists?_eq_error_iff.mpr ⟨hlocate, rfl⟩)

/-- A configuration that is loaded has at least one poll cycle. -/
theorem one_le_cycles_of_load {config : Config Text} (h : load s files path = .ok config) :
    1 ≤ config.cycles := by
  cases hexists : files.exists? s.workingDirectory (pathOf s path) with
  | error e => cases (load_of_exists?_error hexists).symm.trans h
  | ok present =>
      cases present with
      | false =>
          rw [load_of_absent hexists] at h
          rcases withEnvironment_cases s (c := standard Text) (by decide) with
            ⟨-, c, hc, hkept⟩ | ⟨-, e, he⟩
          · obtain rfl := Except.ok.inj (hc.symm.trans h)
            exact hkept.2
          · cases he.symm.trans h
      | true =>
          rcases read_of_exists? hexists with ⟨bytes, hread⟩ | hread
          · rw [load_of_read hread] at h
            obtain ⟨v, -, hfinish⟩ := bind_eq_ok_iff.mp h
            exact one_le_cycles_of_finish hfinish
          · obtain ⟨e, he⟩ := load_of_directory hexists hread
            cases he.symm.trans h

/-- **What loading a configuration comes to.**  Whatever the file holds, whatever stands in its place,
and whatever the environment: there is a configuration with at least one poll cycle or an error of the
configuration, if and only if nothing escapes; and a fault escapes if and only if it is one of those
listed. -/
theorem load_outcome (s : Surroundings) (files : Files) (path : Option Text) :
    ((∃ config, load s files path = .ok config ∧ 1 ≤ config.cycles) ∨
        (∃ e, load s files path = .error (.failed e)) ↔ ∀ f, ¬ Escapes s files (pathOf s path) f) ∧
      ∀ f, load s files path = .error (.faulted f) ↔ Escapes s files (pathOf s path) f := by
  refine ⟨?_, load_faulted_iff⟩
  simp only [← load_faulted_iff]
  cases hload : load s files path with
  | ok config => simpa using one_le_cycles_of_load hload
  | error stop => cases stop <;> simp

/-- A byte that begins no character escapes. -/
theorem load_outcome_undecodable :
    load ⟨"/", "/home", 1, [], [], []⟩ ⟨[([Text.ofString "lsp.yaml"], .file [0xFF])]⟩
        (some "lsp.yaml") =
      .error (.faulted (.notDecodable ⟨0, [0xFF], .invalidStart⟩)) :=
  ((load_outcome _ _ _).2 _).mpr (.bytes rfl rfl)

end LanguageClient.Config
