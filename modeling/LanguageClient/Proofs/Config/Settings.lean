import LanguageClient.Config.Basic
import LanguageClient.Proofs.Number.Range
import LanguageClient.Proofs.Stopping

/-!
# Reading the settings of a configuration

What a mapping holds is read in a fixed order: the languages, the two poll settings, the trace.  The
first of them that has the wrong form stops the reading, as a rule with an error of the configuration.
Main statements: `ofValue_eq_ok`, `ofValue_faulted_iff`.

```text
languages            a language without a usable server, whose id cannot be shown
pollTimeout          an integer that no double is near
responsePollCycles   an infinite number
trace                a value that cannot be shown
```

These are the values for which there is no error of the configuration.  A value cannot be shown when
an integer in it has too many digits.
-/

namespace LanguageClient

/-! ## Values that can be shown -/

namespace Yaml.Value

mutual

/-- The integers in a value, those in its keys included. -/
def integers : Value → List Int
  | int n => [n]
  | list items | set items => integersOfItems items
  | pairs entries | map entries => integersOfEntries entries
  | _ => []

def integersOfItems : List Value → List Int
  | [] => []
  | item :: rest => integers item ++ integersOfItems rest

def integersOfEntries : List (Value × Value) → List Int
  | [] => []
  | (key, value) :: rest => integers key ++ integers value ++ integersOfEntries rest

end

mutual

theorem isShowable_eq : (v : Value) → v.isShowable = v.integers.all Reading.isWritable
  | int n => by simp [isShowable, integers]
  | list items | set items => by rw [isShowable, integers, areShowable_eq items]
  | pairs entries | map entries => by rw [isShowable, integers, areShowablePairs_eq entries]
  | null | bool _ | float _ | str _ | bytes _ | date _ | moment _ | enclosing _ => by
    simp [isShowable, integers]

theorem areShowable_eq : (items : List Value) →
    areShowable items = (integersOfItems items).all Reading.isWritable
  | [] => rfl
  | item :: rest => by
    rw [areShowable, integersOfItems, List.all_append, isShowable_eq item, areShowable_eq rest]

theorem areShowablePairs_eq : (entries : List (Value × Value)) →
    areShowablePairs entries = (integersOfEntries entries).all Reading.isWritable
  | [] => rfl
  | (key, value) :: rest => by
    rw [areShowablePairs, integersOfEntries, List.all_append, List.all_append, isShowable_eq key,
      isShowable_eq value, areShowablePairs_eq rest]

end

/-- **What cannot be shown holds an integer with more than 4300 digits.** -/
theorem isShowable_eq_false_iff (v : Value) :
    v.isShowable = false ↔ ∃ n ∈ v.integers, Reading.IsTooLong n := by
  rw [isShowable_eq, List.all_eq_false]
  refine exists_congr fun n => and_congr_right fun _ => ?_
  rw [← Reading.isWritable_eq_false_iff, Bool.not_eq_true]

end Yaml.Value

namespace Config

open Yaml (Value)
open Yaml.Value (get?)
open Stopping

/-! ## The settings one by one -/

section Settings

variable {f : Fault}

theorem inRange_faulted_iff (x : Binary64) :
    inRange x = .error (.faulted f) ↔ (∃ sign, x = .infinite sign) ∧
      f = .overflow "int too large to convert to float" := by
  cases x <;> simp [inRange, eq_comm]

theorem double_faulted_iff (v : Value) :
    double v = .error (.faulted f) ↔ ∃ n, v = .int n ∧ Binary64.IsOutOfRange n ∧
      f = .overflow "int too large to convert to float" := by
  cases v with
  | int n =>
      rw [double, inRange_faulted_iff, Binary64.ofInt_eq_infinite_iff]
      simp
  | _ => simp [double]

theorem integer_faulted_iff (v : Value) :
    integer v = .error (.faulted f) ↔ ∃ sign, v = .float (.infinite sign) ∧
      f = .overflow "cannot convert float infinity to integer" := by
  cases v with
  | float x =>
      cases x with
      | nan => simp [integer]
      | infinite sign =>
          have hnone : (Binary64.infinite sign).truncate? = none := rfl
          simp [integer, hnone, eq_comm]
      | finite negative m =>
          -- which integer it is does not matter
          obtain ⟨n, hn⟩ : ∃ n, (Binary64.finite negative m).truncate? = some n := ⟨_, rfl⟩
          simp [integer, hn]
  | _ => simp [integer]

theorem showing_eq_faulted_iff {error : Text → ConfigError} {v : Value} :
    showing error v = .faulted f ↔ v.isShowable = false ∧ f = .unwritable := by
  unfold showing
  cases v.isShowable <;> simp [eq_comm]

theorem traceOf_faulted_iff (v : Value) :
    traceOf v = .error (.faulted f) ↔ v.isShowable = false ∧ f = .unwritable := by
  unfold traceOf
  split
  · simp [Value.isShowable]
  · split <;> simp [Value.isShowable]
  · rw [Except.error.injEq, showing_eq_faulted_iff]

end Settings

/-! ## Settings that may be absent -/

section Settle

variable {ε α : Type} {read : Value → Except ε α} {fallback : α} {v? : Option Value}

/-- A setting has what is read of its value; without a value it has the standard. -/
def settle (read : Value → Except ε α) (fallback : α) (v? : Option Value) : Except ε α :=
  match v? with
  | some v => read v
  | none => .ok fallback

/-- The setting is absent, or its value is read. -/
def Accepts (read : Value → Except ε α) (v? : Option Value) : Prop :=
  ∀ v, v? = some v → ∃ a, read v = .ok a

theorem exists_settle_eq_ok_iff : (∃ a, settle read fallback v? = .ok a) ↔ Accepts read v? := by
  cases v? <;> simp [settle, Accepts]

theorem settle_eq_error_iff {e : ε} :
    settle read fallback v? = .error e ↔ ∃ v, v? = some v ∧ read v = .error e := by
  cases v? <;> simp [settle]

end Settle

/-! ## Languages -/

/-- What a value says of languages, each under its id; a value that counts as false says nothing. -/
def descriptions? (v : Value) : Option (List (Value × Value)) :=
  if v.isTruthy then
    match v with
    | .map entries => some entries
    | _ => none
  else some []

/-- A description says how a server is started, and which extensions its files have. -/
def Describes (v : Value) : Prop :=
  ∃ entries, v = .map entries ∧ (∃ command, get? entries "command" = some (.str command)) ∧
    (texts? ((get? entries "extensions").getD (.list []))).isSome = true

theorem text?_eq_some_iff {v : Value} {t : Text} : text? v = some t ↔ v = .str t := by
  cases v <;> simp [text?]

/-- A description that is a mapping has two members that matter; the command is looked at first. -/
theorem languageServer_map (id : Value) (entries : List (Value × Value)) :
    languageServer id (.map entries) =
      match (get? entries "command").bind text?,
        texts? ((get? entries "extensions").getD (.list [])) with
      | none, _ => .error (showing .command id)
      | some _, none => .error (showing .extensions id)
      | some command, some extensions =>
        .ok ⟨command, extensions.map (·.dropWhile (· == Path.dot))⟩ := by
  unfold languageServer
  dsimp only
  cases (get? entries "command").bind text? with
  | none => rfl
  | some command => cases texts? ((get? entries "extensions").getD (.list [])) <;> rfl

theorem languageServer_cases (id v : Value) :
    (Describes v ∧ ∃ server, languageServer id v = .ok server) ∨
      ¬ Describes v ∧ ∃ error, languageServer id v = .error (showing error id) := by
  cases v with
  | map entries =>
      have hdescribes : Describes (.map entries) ↔
          (∃ command, (get? entries "command").bind text? = some command) ∧
            (texts? ((get? entries "extensions").getD (.list []))).isSome = true := by
        simp [Describes, Option.bind_eq_some_iff, text?_eq_some_iff]
      rw [hdescribes, languageServer_map]
      cases (get? entries "command").bind text? with
      | none => exact Or.inr ⟨by simp, .command, rfl⟩
      | some command =>
          cases texts? ((get? entries "extensions").getD (.list [])) with
          | none => exact Or.inr ⟨by simp, .extensions, rfl⟩
          | some extensions => exact Or.inl ⟨by simp, _, rfl⟩
  | _ => exact Or.inr ⟨fun ⟨_, h, _⟩ => (nomatch h), .command, rfl⟩

theorem exists_languageServer_eq_ok_iff (id v : Value) :
    (∃ server, languageServer id v = .ok server) ↔ Describes v := by
  rcases languageServer_cases id v with ⟨hv, server, hserver⟩ | ⟨hv, error, herror⟩
  · exact iff_of_true ⟨server, hserver⟩ hv
  · exact iff_of_false (fun ⟨server, hserver⟩ => by simp [herror] at hserver) hv

theorem languageServer_faulted_iff {f : Fault} (id v : Value) :
    languageServer id v = .error (.faulted f) ↔
      ¬ Describes v ∧ id.isShowable = false ∧ f = .unwritable := by
  rcases languageServer_cases id v with ⟨hv, server, hserver⟩ | ⟨hv, error, herror⟩
  · simp [hserver, hv]
  · rw [herror, Except.error.injEq, showing_eq_faulted_iff]
    exact (and_iff_right hv).symm

/-- The step that is taken for one language. -/
def namedServer (e : Value × Value) : Except (Stop ConfigError) (Value × LanguageServer) := do
  return (e.1, ← languageServer e.1 e.2)

theorem namedServer_eq_ok_iff {e : Value × Value} {l : Value × LanguageServer} :
    namedServer e = .ok l ↔ l.1 = e.1 ∧ languageServer e.1 e.2 = .ok l.2 := by
  obtain ⟨id, server⟩ := l
  unfold namedServer
  cases languageServer e.1 e.2 <;> simp [bind, Except.bind, pure, Except.pure, eq_comm]

theorem namedServer_eq_error_iff {e : Value × Value} {stop : Stop ConfigError} :
    namedServer e = .error stop ↔ languageServer e.1 e.2 = .error stop := by
  simp [namedServer, pure, Except.pure]

theorem exists_namedServer_eq_ok_iff (e : Value × Value) :
    (∃ l, namedServer e = .ok l) ↔ Describes e.2 := by
  simp [namedServer_eq_ok_iff, ← exists_languageServer_eq_ok_iff e.1]

theorem languagesOf_eq (v : Value) :
    languagesOf v = match descriptions? v with
      | some entries => entries.mapM namedServer
      | none => .error (.failed .languagesNotAMapping) := by
  unfold languagesOf descriptions?
  cases v.isTruthy
  · rfl
  · cases v <;> rfl

/-- The languages keep their ids and their order. -/
theorem map_fst_of_mapM_namedServer {entries : List (Value × Value)}
    {languages : List (Value × LanguageServer)} (h : entries.mapM namedServer = .ok languages) :
    languages.map (·.1) = entries.map (·.1) := by
  have hall := mapM_eq_ok_iff.mp h
  clear h
  induction hall with
  | nil => rfl
  | cons hfirst _ ih => simp [ih, (namedServer_eq_ok_iff.mp hfirst).1]

theorem exists_languagesOf_eq_ok_iff (v : Value) :
    (∃ languages, languagesOf v = .ok languages) ↔
      ∃ entries, descriptions? v = some entries ∧ ∀ e ∈ entries, Describes e.2 := by
  rw [languagesOf_eq]
  cases descriptions? v with
  | none => simp
  | some entries =>
      simp only [exists_mapM_eq_ok_iff, exists_namedServer_eq_ok_iff, Option.some.injEq,
        exists_eq_left']

theorem languagesOf_faulted_iff {f : Fault} (v : Value) :
    languagesOf v = .error (.faulted f) ↔ ∃ before id description after,
      descriptions? v = some (before ++ (id, description) :: after) ∧
        (∀ e ∈ before, Describes e.2) ∧ ¬ Describes description ∧ id.isShowable = false ∧
        f = .unwritable := by
  rw [languagesOf_eq]
  cases descriptions? v with
  | none => simp
  | some entries =>
      simp only [mapM_eq_error_iff, exists_namedServer_eq_ok_iff, namedServer_eq_error_iff,
        languageServer_faulted_iff, Option.some.injEq]
      simp only [Prod.exists]

/-! ## Whole values -/

/-- What a mapping says of languages. -/
def languageEntries? (entries : List (Value × Value)) : Option (List (Value × Value)) :=
  descriptions? ((get? entries "languages").getD .null)

/-- The languages of the mapping have the right form. -/
def LanguagesFit (entries : List (Value × Value)) : Prop :=
  ∃ languages, languageEntries? entries = some languages ∧ ∀ e ∈ languages, Describes e.2

/-- Every setting of the mapping has the right form. -/
structure Fits (entries : List (Value × Value)) : Prop where
  languages : LanguagesFit entries
  timeout : Accepts double (get? entries "pollTimeout")
  cycles : Accepts integer (get? entries "responsePollCycles")
  trace : Accepts traceOf (get? entries "trace")

/-- The settings for which there is no error of the configuration, and the fault that each of them is.
What is read before such a setting has the right form. -/
inductive Breaks (entries : List (Value × Value)) : Fault → Prop
  | language {before after : List (Value × Value)} {id description : Value}
      (hlanguages : languageEntries? entries = some (before ++ (id, description) :: after))
      (hbefore : ∀ e ∈ before, Describes e.2) (hdescription : ¬ Describes description)
      (hid : ∃ n ∈ id.integers, Reading.IsTooLong n) : Breaks entries .unwritable
  | timeout {n : Int} (hlanguages : LanguagesFit entries)
      (hvalue : get? entries "pollTimeout" = some (.int n)) (hn : Binary64.IsOutOfRange n) :
      Breaks entries (.overflow "int too large to convert to float")
  | cycles {sign : Bool} (hlanguages : LanguagesFit entries)
      (htimeout : Accepts double (get? entries "pollTimeout"))
      (hvalue : get? entries "responsePollCycles" = some (.float (.infinite sign))) :
      Breaks entries (.overflow "cannot convert float infinity to integer")
  | trace {v : Value} (hlanguages : LanguagesFit entries)
      (htimeout : Accepts double (get? entries "pollTimeout"))
      (hcycles : Accepts integer (get? entries "responsePollCycles"))
      (hvalue : get? entries "trace" = some v) (hv : ∃ n ∈ v.integers, Reading.IsTooLong n) :
      Breaks entries .unwritable

/-- A mapping is read setting by setting. -/
theorem ofValue_map (entries : List (Value × Value)) :
    ofValue (.map entries) = do
      let languages ← languagesOf ((get? entries "languages").getD .null)
      let pollTimeout ← settle (fun v => (double v).mapError settingStop)
        (standard Unit).pollTimeout (get? entries "pollTimeout")
      let cycles ← settle (fun v => (integer v).mapError settingStop)
        (standard Unit).cycles (get? entries "responsePollCycles")
      let trace ← settle traceOf (standard Unit).trace (get? entries "trace")
      return {
        enable := ((get? entries "enable").getD (.bool false)).isTruthy
        languages := languages
        pollTimeout := pollTimeout
        cycles := max 1 cycles
        trace := trace
        traceDirectory := (get? entries "traceDir").getD .null } := by
  unfold ofValue
  dsimp only
  cases get? entries "pollTimeout" <;> cases get? entries "responsePollCycles" <;>
    cases get? entries "trace" <;> rfl

theorem accepts_mapError {ε ε' α : Type} {read : Value → Except ε α} {f : ε → ε'}
    {v? : Option Value} :
    Accepts (fun v => (read v).mapError f) v? ↔ Accepts read v? := by
  simp [Accepts]

theorem settingStop_eq_faulted_iff {stop : Stop SettingFlaw} {f : Fault} :
    settingStop stop = .faulted f ↔ stop = .faulted f := by
  cases stop <;> simp [settingStop]

/-- **A mapping is a configuration if and only if all its settings have the right form.** -/
theorem exists_ofValue_eq_ok_iff (entries : List (Value × Value)) :
    (∃ config, ofValue (.map entries) = .ok config) ↔ Fits entries := by
  simp only [ofValue_map, bind_eq_ok_iff]
  constructor
  · rintro ⟨config, languages, hlanguages, timeout, htimeout, cycles, hcycles, trace, htrace, -⟩
    exact {
      languages := (exists_languagesOf_eq_ok_iff _).mp ⟨languages, hlanguages⟩
      timeout := accepts_mapError.mp (exists_settle_eq_ok_iff.mp ⟨timeout, htimeout⟩)
      cycles := accepts_mapError.mp (exists_settle_eq_ok_iff.mp ⟨cycles, hcycles⟩)
      trace := exists_settle_eq_ok_iff.mp ⟨trace, htrace⟩ }
  · intro h
    obtain ⟨languages, hlanguages⟩ := (exists_languagesOf_eq_ok_iff _).mpr h.languages
    obtain ⟨timeout, htimeout⟩ := exists_settle_eq_ok_iff.mpr (accepts_mapError.mpr h.timeout)
    obtain ⟨cycles, hcycles⟩ := exists_settle_eq_ok_iff.mpr (accepts_mapError.mpr h.cycles)
    obtain ⟨trace, htrace⟩ := exists_settle_eq_ok_iff.mpr h.trace
    exact ⟨_, languages, hlanguages, timeout, htimeout, cycles, hcycles, trace, htrace, rfl⟩

/-- A configuration has at least one poll cycle, and its languages are those of the mapping. -/
theorem ofValue_eq_ok {entries : List (Value × Value)} {config : Config Value}
    (h : ofValue (.map entries) = .ok config) : 1 ≤ config.cycles ∧
      ∃ languages, languageEntries? entries = some languages ∧
        config.languages.map (·.1) = languages.map (·.1) := by
  simp only [ofValue_map, bind_eq_ok_iff] at h
  obtain ⟨languages, hlanguages, timeout, -, cycles, -, trace, -, hconfig⟩ := h
  obtain rfl := Except.ok.inj hconfig
  refine ⟨Int.le_max_left 1 cycles, ?_⟩
  rw [languagesOf_eq] at hlanguages
  cases hentries : descriptions? ((get? entries "languages").getD .null) with
  | none => simp [hentries] at hlanguages
  | some described =>
      rw [hentries] at hlanguages
      exact ⟨described, hentries, map_fst_of_mapM_namedServer hlanguages⟩

/-- **A mapping breaks off the reading with a fault in these cases, and in no other.** -/
theorem ofValue_faulted_iff {f : Fault} (entries : List (Value × Value)) :
    ofValue (.map entries) = .error (.faulted f) ↔ Breaks entries f := by
  simp only [ofValue_map, bind_eq_error_iff, pure_ne_error, and_false, exists_false, or_false,
    exists_and_right, exists_languagesOf_eq_ok_iff, exists_settle_eq_ok_iff, accepts_mapError,
    languagesOf_faulted_iff, settle_eq_error_iff, mapError_eq_error_iff, settingStop_eq_faulted_iff,
    exists_eq_right, double_faulted_iff, integer_faulted_iff, traceOf_faulted_iff,
    Yaml.Value.isShowable_eq_false_iff]
  constructor
  · rintro (⟨before, id, description, ⟨after, hlanguages⟩, hbefore, hdescription, hid, rfl⟩ |
      ⟨hlanguages, ⟨v, hvalue, n, rfl, hn, rfl⟩ | ⟨htimeout,
        ⟨v, hvalue, ⟨sign, rfl⟩, rfl⟩ | ⟨hcycles, v, hvalue, hv, rfl⟩⟩⟩)
    · exact .language hlanguages hbefore hdescription hid
    · exact .timeout hlanguages hvalue hn
    · exact .cycles hlanguages htimeout hvalue
    · exact .trace hlanguages htimeout hcycles hvalue hv
  · rintro (⟨hlanguages, hbefore, hdescription, hid⟩ | ⟨hlanguages, hvalue, hn⟩ |
      ⟨hlanguages, htimeout, hvalue⟩ | ⟨hlanguages, htimeout, hcycles, hvalue, hv⟩)
    · exact Or.inl ⟨_, _, _, ⟨_, hlanguages⟩, hbefore, hdescription, hid, rfl⟩
    · exact Or.inr ⟨hlanguages, Or.inl ⟨_, hvalue, _, rfl, hn, rfl⟩⟩
    · exact Or.inr ⟨hlanguages, Or.inr ⟨htimeout, Or.inl ⟨_, hvalue, ⟨_, rfl⟩, rfl⟩⟩⟩
    · exact Or.inr ⟨hlanguages, Or.inr ⟨htimeout, Or.inr ⟨hcycles, _, hvalue, hv, rfl⟩⟩⟩

end Config

end LanguageClient
