import LanguageClient.Proofs.Config.Settings

/-!
# What a configuration keeps of a value

A value of YAML or JSON becomes a configuration in which everything has its place, or there is an
error of the configuration, or one of the faults of `Breaks` ends the reading.  Main statement:
`ofValue_validates`.

* `Normalizes`: what every configuration that is made keeps to, said of the mapping that it was made
  of.  It has a poll cycle; its languages are those of the mapping, one by one and in their order,
  each with the command and the extensions of its description; and its trace is the one that was
  asked for.
* `Undotted`: an extension is kept without the dots at its start, and without anything else lost.
* `IsOrdinary`: what a mapping has to be so that nothing in it can be refused.
-/

namespace LanguageClient.Config

open Yaml (Value)
open Yaml.Value (get?)
open Stopping

/-! ## Languages -/

/-- `kept` is what is left of an extension when the dots at its start are gone. -/
def Undotted (written kept : Text) : Prop :=
  (∃ dots, written = List.replicate dots Path.dot ++ kept) ∧ kept.head? ≠ some Path.dot

theorem undotted_dropWhile (written : Text) :
    Undotted written (written.dropWhile (· == Path.dot)) := by
  constructor
  · refine ⟨(written.takeWhile (· == Path.dot)).length, ?_⟩
    -- the part in front holds dots only
    have hdots : written.takeWhile (· == Path.dot) =
        List.replicate (written.takeWhile (· == Path.dot)).length Path.dot :=
      List.eq_replicate_iff.mpr ⟨rfl, fun c hc => by 
        simpa using List.all_eq_true.mp List.all_takeWhile c hc⟩
    rw [← hdots, List.takeWhile_append_dropWhile]
  · intro hhead
    have hnot := List.head?_dropWhile_not (· == Path.dot) written
    rw [hhead] at hnot
    simp at hnot

/-- A language of a configuration has the id of its description, the command in it, and the
extensions in it without the dots at their start. -/
structure ServedAs (described : Value × Value) (language : Value × LanguageServer) : Prop where
  id : language.1 = described.1
  server : ∃ entries written, described.2 = .map entries ∧
    get? entries "command" = some (.str language.2.command) ∧
    texts? ((get? entries "extensions").getD (.list [])) = some written ∧
    List.Forall₂ Undotted written language.2.extensions

theorem servedAs_of_namedServer {described : Value × Value} {language : Value × LanguageServer}
    (h : namedServer described = .ok language) : ServedAs described language := by
  obtain ⟨hid, hserver⟩ := namedServer_eq_ok_iff.mp h
  refine ⟨hid, ?_⟩
  cases hdescription : described.2 with
  | map entries =>
      rw [hdescription, languageServer_map] at hserver
      split at hserver
      · cases hserver
      · cases hserver
      · rename_i command written hcommand hwritten
        rw [← Except.ok.inj hserver]
        obtain ⟨v, hv, htext⟩ := Option.bind_eq_some_iff.mp hcommand
        obtain rfl := text?_eq_some_iff.mp htext
        exact ⟨entries, written, rfl, hv, hwritten,
          List.forall₂_map_right_iff.mpr (List.forall₂_same.mpr fun t _ => undotted_dropWhile t)⟩
  | _ => simp [hdescription, languageServer] at hserver

/-! ## The trace -/

/-- The trace that a member of a mapping asks for: none if it is absent or `false`, else the one of
its name. -/
inductive AsksFor : Option Value → Verbosity → Prop
  | absent : AsksFor none .off
  | off : AsksFor (some (.bool false)) .off
  | named (trace : Verbosity) : AsksFor (some (.str trace.wireName)) trace

theorem ofWireName?_wireName (trace : Verbosity) :
    Verbosity.ofWireName? trace.wireName = some trace := by
  cases trace <;> decide

theorem wireName_of_ofWireName? {name : Text} {trace : Verbosity}
    (h : Verbosity.ofWireName? name = some trace) : trace.wireName = name := by
  unfold Verbosity.ofWireName? at h
  simpa using List.find?_some h

theorem traceOf_eq_ok_iff {v : Value} {trace : Verbosity} :
    traceOf v = .ok trace ↔ AsksFor (some v) trace := by
  constructor
  · intro h
    unfold traceOf at h
    split at h
    · obtain rfl := Except.ok.inj h
      exact .off
    · split at h
      · rename_i hname
        obtain rfl := Except.ok.inj h
        obtain rfl := wireName_of_ofWireName? hname
        exact .named _
      · cases h
    · cases h
  · intro h
    cases h with
    | off => rfl
    | named => rw [traceOf, ofWireName?_wireName]

theorem asksFor_of_settle {v? : Option Value} {trace : Verbosity}
    (h : settle traceOf (standard Unit).trace v? = .ok trace) : AsksFor v? trace := by
  cases v? with
  | none =>
      obtain rfl := Except.ok.inj h
      exact .absent
  | some v => exact traceOf_eq_ok_iff.mp h

/-! ## Configurations -/

/-- What a configuration is that was made of a mapping. -/
structure Normalizes (entries : List (Value × Value)) (config : Config Value) : Prop where
  cycles : 1 ≤ config.cycles
  languages : ∃ described, languageEntries? entries = some described ∧
    List.Forall₂ ServedAs described config.languages
  trace : AsksFor (get? entries "trace") config.trace

theorem normalizes_of_ofValue {entries : List (Value × Value)} {config : Config Value}
    (h : ofValue (.map entries) = .ok config) : Normalizes entries config := by
  simp only [ofValue_map, bind_eq_ok_iff] at h
  obtain ⟨languages, hlanguages, timeout, -, cycles, -, trace, htrace, hconfig⟩ := h
  obtain rfl := Except.ok.inj hconfig
  refine ⟨Int.le_max_left 1 cycles, ?_, asksFor_of_settle htrace⟩
  rw [languagesOf_eq] at hlanguages
  cases hentries : descriptions? ((get? entries "languages").getD .null) with
  | none => simp [hentries] at hlanguages
  | some described =>
      rw [hentries] at hlanguages
      exact ⟨described, hentries,
        (mapM_eq_ok_iff.mp hlanguages).imp fun _ _ => servedAs_of_namedServer⟩

/-- What is no mapping is an error, and never a fault. -/
theorem ofValue_of_not_map {v : Value} (h : ∀ entries, v ≠ .map entries) :
    ∃ e, ofValue v = .error (.failed e) := by
  cases v with
  | map entries => exact absurd rfl (h entries)
  | _ => exact ⟨_, rfl⟩

/-! ## Mappings that are accepted -/

/-- A finite number that is not out of range. -/
inductive IsOrdinaryNumber : Value → Prop
  | int {n : Int} (hn : ¬ Binary64.IsOutOfRange n) : IsOrdinaryNumber (.int n)
  | float (negative : Bool) (magnitude : Magnitude) :
      IsOrdinaryNumber (.float (.finite negative magnitude))

theorem IsOrdinaryNumber.exists_double {v : Value} (h : IsOrdinaryNumber v) :
    ∃ x, double v = .ok x := by
  cases h with
  | float negative magnitude => exact ⟨_, rfl⟩
  | @int n hn =>
      rw [← Binary64.ofInt_eq_infinite_iff] at hn
      rw [double]
      cases hnearest : Binary64.ofInt n with
      | infinite sign => exact absurd ⟨sign, hnearest⟩ hn
      | _ => exact ⟨_, rfl⟩

theorem IsOrdinaryNumber.exists_integer {v : Value} (h : IsOrdinaryNumber v) :
    ∃ n, integer v = .ok n := by
  cases h with
  | int => exact ⟨_, rfl⟩
  | float negative magnitude => exact ⟨_, rfl⟩

/-- The languages are absent or described one by one, the trace is absent, `false` or one of the
names, and the poll settings are absent or ordinary numbers. -/
structure IsOrdinary (entries : List (Value × Value)) : Prop where
  languages : ∀ v, get? entries "languages" = some v →
    ∃ described, v = .map described ∧ ∀ e ∈ described, Describes e.2
  timeout : ∀ v, get? entries "pollTimeout" = some v → IsOrdinaryNumber v
  cycles : ∀ v, get? entries "responsePollCycles" = some v → IsOrdinaryNumber v
  trace : ∀ v, get? entries "trace" = some v → ∃ trace, AsksFor (some v) trace

theorem IsOrdinary.fits {entries : List (Value × Value)} (h : IsOrdinary entries) :
    Fits entries where
  languages := by
    unfold LanguagesFit languageEntries?
    cases hmember : get? entries "languages" with
    | none => exact ⟨[], rfl, by simp⟩
    | some v =>
        obtain ⟨described, rfl, hdescribed⟩ := h.languages v hmember
        -- an empty mapping counts as false, and holds the same languages
        cases described with
        | nil => exact ⟨[], rfl, by simp⟩
        | cons first rest => exact ⟨first :: rest, rfl, hdescribed⟩
  timeout v hv := (h.timeout v hv).exists_double
  cycles v hv := (h.cycles v hv).exists_integer
  trace v hv := (h.trace v hv).imp fun _ => traceOf_eq_ok_iff.mpr

/-- **Values are normalized or refused.**  Whatever the value is: a configuration that is made of it
keeps to its mapping; it is made, or there is an error of the configuration, unless one of the listed
faults breaks off the reading, which it does exactly in the listed cases; and an ordinary mapping
always is a configuration. -/
theorem ofValue_validates (v : Value) :
    (∀ config, ofValue v = .ok config → ∃ entries, v = .map entries ∧ Normalizes entries config) ∧
      ((∃ config, ofValue v = .ok config) ∨ (∃ e, ofValue v = .error (.failed e)) ↔
        ∀ entries f, v = .map entries → ¬ Breaks entries f) ∧
      (∀ f, ofValue v = .error (.faulted f) ↔ ∃ entries, v = .map entries ∧ Breaks entries f) ∧
      ∀ entries, v = .map entries → IsOrdinary entries → ∃ config, ofValue v = .ok config := by
  have hfault : ∀ f, ofValue v = .error (.faulted f) ↔
      ∃ entries, v = .map entries ∧ Breaks entries f := by
    intro f
    constructor
    · intro h
      by_cases hv : ∃ entries, v = .map entries
      · obtain ⟨entries, rfl⟩ := hv
        exact ⟨entries, rfl, (ofValue_faulted_iff entries).mp h⟩
      · obtain ⟨e, he⟩ := ofValue_of_not_map fun entries hentries => hv ⟨entries, hentries⟩
        cases he.symm.trans h
    · rintro ⟨entries, rfl, h⟩
      exact (ofValue_faulted_iff entries).mpr h
  refine ⟨fun config h => ?_, ?_, hfault, ?_⟩
  · by_cases hv : ∃ entries, v = .map entries
    · obtain ⟨entries, rfl⟩ := hv
      exact ⟨entries, rfl, normalizes_of_ofValue h⟩
    · obtain ⟨e, he⟩ := ofValue_of_not_map fun entries hentries => hv ⟨entries, hentries⟩
      cases he.symm.trans h
  · have hnone : (∀ entries f, v = .map entries → ¬ Breaks entries f) ↔
        ∀ f, ofValue v ≠ .error (.faulted f) := by
      simp only [ne_eq, hfault, not_exists, not_and]
      exact forall_comm
    rw [hnone]
    cases hvalue : ofValue v with
    | ok config => simp
    | error stop => cases stop <;> simp
  · rintro entries rfl h
    exact (exists_ofValue_eq_ok_iff entries).mpr h.fits

/-- A timeout of zero is accepted; poll cycles without end are not, and are no error either. -/
theorem ofValue_validates_extremes :
    (∃ config, ofValue (.map [(.str "pollTimeout", .float Binary64.zero)]) = .ok config) ∧
      ofValue (.map [(.str "responsePollCycles", .float (.infinite false))]) =
        .error (.faulted (.overflow "cannot convert float infinity to integer")) := by
  constructor
  · refine (ofValue_validates _).2.2.2 _ rfl ⟨?_, ?_, ?_, ?_⟩
    · intro v h
      cases h
    · intro v h
      cases h
      exact .float false Magnitude.zero
    · intro v h
      cases h
    · intro v h
      cases h
  · refine ((ofValue_validates _).2.2.1 _).mpr ⟨_, rfl, .cycles ⟨[], rfl, by simp⟩ ?_ rfl⟩
    intro v h
    cases h

end LanguageClient.Config
