import LanguageClient.Proofs.Yaml.Documents
import LanguageClient.Proofs.Yaml.Nodes

/-!
# Printed documents are read back

The node of a printed value has the value itself, as long as no object in it has a name twice: of two
entries with one key the later one would take the place of the other (`build_value`).

Main statement: `readAll_documents`, a file that consists of printed documents is read as those
documents, in their order.
-/

namespace LanguageClient.Yaml

/-! ## Names -/

mutual

/-- No object in the value has a name twice. -/
def hasDistinctNames : Json → Bool
  | .arr items => areDistinctlyNamed items
  | .obj members => areDistinctEntries members
  | _ => true

def areDistinctlyNamed : List Json → Bool
  | [] => true
  | item :: rest => hasDistinctNames item && areDistinctlyNamed rest

def areDistinctEntries : Members → Bool
  | [] => true
  | (name, v) :: rest => !Members.has rest name && hasDistinctNames v && areDistinctEntries rest

end

/-! ## Values -/

namespace Node

theorem sameKey_str (a b : Text) : (Value.str a).sameKey (.str b) = (a == b) := rfl

/-- Entries with new keys are put behind those that are there. -/
theorem foldl_insert {members : Members} (hdistinct : areDistinctEntries members = true)
    {all : List (Value × Value)} (hnew : ∀ e ∈ all, ∀ m ∈ members, e.1.sameKey (.str m.1) = false) :
    (Value.ofMembers members).foldl (fun all e => Value.insert all e.1 e.2) all =
      all ++ Value.ofMembers members := by
  induction members generalizing all with
  | nil => simp [Value.ofMembers]
  | cons member rest ih =>
      obtain ⟨name, v⟩ := member
      rw [areDistinctEntries, Bool.and_eq_true, Bool.and_eq_true, Bool.not_eq_true'] at hdistinct
      obtain ⟨⟨hname, -⟩, hrest⟩ := hdistinct
      have hinsert : Value.insert all (.str name) (.ofJson v) = all ++ [(.str name, .ofJson v)] := by
        rw [Value.insert, if_neg]
        simp only [List.any_eq_true, not_exists, not_and, Bool.not_eq_true]
        exact fun e he => hnew e he _ (List.mem_cons_self ..)
      rw [Value.ofMembers, List.foldl_cons, hinsert, ih hrest, List.append_assoc]
      · rfl
      · intro e he m hm
        rcases List.mem_append.mp he with he | he
        · exact hnew e he m (List.mem_cons_of_mem _ hm)
        · rw [List.mem_singleton.mp he, sameKey_str, beq_eq_false_iff_ne]
          rintro rfl
          rw [Members.has, List.any_eq_false] at hname
          exact hname m hm (decide_eq_true rfl)

/-- The entries of a mapping whose keys are texts. -/
def ownEntries (members : Members) : List Entry :=
  (Value.ofMembers members).map fun e => .own e.1 e.2

theorem assemble_ownEntries {members : Members} (hdistinct : areDistinctEntries members = true) :
    assemble (ownEntries members) = Value.ofMembers members := by
  have hown (entries : List (Value × Value)) : assemble (entries.map fun e => .own e.1 e.2) =
      entries.foldl (fun all e => Value.insert all e.1 e.2) [] := by
    have hmerged : entries.flatMap (fun _ => ([] : List (Value × Value))) = [] := by simp
    simp [assemble, List.flatMap_map, List.filterMap_map, hmerged]
  rw [ownEntries, hown, foldl_insert hdistinct (List.forall_mem_nil _), List.nil_append]

theorem build_wordNode {w : List Char} {v : Value} (h : Spells w v) (level : Nat) :
    build level [] (wordNode w) = (.ok v, []) := by
  rw [wordNode, build, h.value]
  rfl

/-- A mapping whose entries have their values. -/
theorem build_mapping {members : Members} {level : Nat} (hdistinct : areDistinctEntries members = true)
    (hentries : buildEntries (level + 1) [] (entryNodes members) = (.ok (ownEntries members), [])) :
    build level [] (mapping none .map (entryNodes members)) = (.ok (.ofJson (.obj members)), []) := by
  have hassemble : ofEntries .map (ownEntries members) = .ok (.map (Value.ofMembers members)) := by
    rw [ofEntries, assemble_ownEntries hdistinct]
  rw [build, bind, hentries]
  simp [Scalar.isScalarKind, Built.andThen, hassemble, bind, Value.ofJson]

mutual

/-- **The node of a printed value has the value.** -/
theorem build_value : (v : Json) → (indent : Nat) → (isOpen : Bool) → (level : Nat) →
    isLegible indent isOpen v = true → hasDistinctNames v = true →
    build level [] (valueNode v) = (.ok (.ofJson v), [])
  | .null, _, _, _, _, _ => rfl
  | .bool true, _, _, _, _, _ => rfl
  | .bool false, _, _, _, _, _ => rfl
  | .int _, _, _, level, hlegible, _ => build_wordNode (spells_int hlegible) level
  | .float x, _, _, level, _, _ => build_wordNode (spells_float x) level
  | .str t, _, _, _, _, _ => rfl
  | .arr items, indent, isOpen, level, hlegible, hdistinct => by
      have hitems := build_items items _ (level + 1) hlegible hdistinct
      rw [valueNode, build, bind, hitems]
      rfl
  | .obj members, indent, isOpen, level, hlegible, hdistinct => by
      rw [valueNode]
      exact build_mapping hdistinct (build_entries members _ (level + 1) hlegible hdistinct)

theorem build_items : (items : List Json) → (indent level : Nat) →
    areLegible indent items = true → areDistinctlyNamed items = true →
    buildItems level [] (itemNodes items) = (.ok (Value.ofItems items), [])
  | [], _, _, _, _ => rfl
  | item :: rest, indent, level, hlegible, hdistinct => by
      rw [areLegible, Bool.and_eq_true] at hlegible
      rw [areDistinctlyNamed, Bool.and_eq_true] at hdistinct
      have hitem := build_value item indent true level hlegible.1 hdistinct.1
      have hrest := build_items rest indent level hlegible.2 hdistinct.2
      rw [itemNodes, buildItems]
      simp only [hitem, hrest]
      rfl

theorem build_entries : (members : Members) → (indent level : Nat) →
    areEntriesLegible indent members = true → areDistinctEntries members = true →
    buildEntries level [] (entryNodes members) = (.ok (ownEntries members), [])
  | [], _, _, _, _ => rfl
  | (name, v) :: rest, indent, level, hlegible, hdistinct => by
      rw [areEntriesLegible, Bool.and_eq_true, Bool.and_eq_true] at hlegible
      rw [areDistinctEntries, Bool.and_eq_true, Bool.and_eq_true] at hdistinct
      have hvalue := build_value v indent (!Printer.isSimpleKey name) level hlegible.1.2 hdistinct.1.2
      have hkey : build level [] (.scalar none .str name) = (.ok (.str name), []) := rfl
      have hrest := build_entries rest indent level hlegible.2 hdistinct.2
      have hmerge : (scalar none .str name).isMergeKey = false := rfl
      have hown : (scalar none .str name).isValueKey = false := rfl
      rw [entryNodes, buildEntries]
      simp only [hmerge, hown, Bool.false_eq_true, if_false, hkey, hvalue, hrest]
      rfl

end

/-! ## Documents -/

/-- The document is read back, with all its names. -/
structure IsReadable (members : Members) : Prop where
  nonempty : members ≠ []
  legible : areEntriesLegible 0 members = true
  distinct : areDistinctEntries members = true

theorem value_document {members : Members} (h : IsReadable members) :
    (mapping none .map (entryNodes members)).value = .ok (.ofJson (.obj members)) := by
  have hentries := build_entries members 0 1 h.legible h.distinct
  rw [value, build_mapping h.distinct hentries]

theorem root_document (members : Members) {more : List Token}
    (hmore : ∀ ts, more ≠ .documentEnd :: ts) (handles : List (Text × Text)) :
    root handles (valueTokens true (.obj members) ++ more) =
      .ok (mapping none .map (entryNodes members), more) := by
  have hread : read true false (fuelFor (valueTokens true (.obj members) ++ more))
      ⟨valueTokens true (.obj members) ++ more, [], handles⟩ = .ok (_, ⟨more, [], handles⟩) :=
    read_value (.obj members) true false _ more Bool.noConfusion (by
      rw [fuelFor, List.length_append]
      omega)
  rw [root]
  simp only [StateT.run, hread, Bind.bind, Except.bind]
  rfl

/-- **The next document of a file.** -/
theorem marked_document {members : Members} (h : IsReadable members) {more : List Token}
    (hmore : ∀ ts, more ≠ .documentEnd :: ts) :
    marked (documentTokens members ++ more) =
      .ok (some (mapping none .map (entryNodes members), more)) := by
  obtain ⟨member, rest, rfl⟩ := List.exists_cons_of_ne_nil h.nonempty
  have htokens : documentTokens (member :: rest) ++ more =
      .documentStart :: (valueTokens true (.obj (member :: rest)) ++ more) := by
    simp [documentTokens, valueTokens]
  have hmarked : marked (.documentStart :: (valueTokens true (.obj (member :: rest)) ++ more)) =
      (do return some (← root standardHandles (valueTokens true (.obj (member :: rest)) ++ more))) := rfl
  rw [htokens, hmarked, root_document _ hmore]
  rfl

/-- No document of the file is marked as ended. -/
theorem noDocumentEnd (documents : List Members) :
    ∀ ts, documents.flatMap documentTokens ++ [.streamEnd] ≠ .documentEnd :: ts := by
  intro ts h
  cases documents with
  | nil => cases h
  | cons members documents => cases h

theorem further_documents (documents : List Members) :
    further (documents.flatMap documentTokens ++ [.streamEnd]) =
      marked (documents.flatMap documentTokens ++ [.streamEnd]) := by
  cases documents with
  | nil => rfl
  | cons members documents => rfl

end Node

theorem readFurther_documents {documents : List Members} (h : ∀ d ∈ documents, Node.IsReadable d)
    {fuel : Nat} (hfuel : documents.length ≤ fuel) :
    readFurther fuel (documents.flatMap documentTokens ++ [.streamEnd]) =
      .ok (documents.map fun d => .ofJson (.obj d)) := by
  induction documents generalizing fuel with
  | nil =>
      cases fuel with
      | zero => rfl
      | succ fuel => rfl
  | cons members documents ih =>
      obtain ⟨hmembers, hrest⟩ := List.forall_mem_cons.mp h
      obtain ⟨fuel, rfl⟩ := Nat.exists_eq_add_one_of_ne_zero (Nat.ne_zero_of_lt hfuel)
      have hih := ih hrest (Nat.le_of_succ_le_succ hfuel)
      have hmarked := Node.marked_document hmembers (Node.noDocumentEnd documents)
      rw [readFurther, Node.further_documents, List.flatMap_cons, List.append_assoc, hmarked]
      simp only [Bind.bind, Except.bind, Node.value_document hmembers, hih]
      rfl

/-- Every document has tokens of its own. -/
theorem length_documentTokens (documents : List Members) :
    documents.length ≤ (documents.flatMap documentTokens).length := by
  induction documents with
  | nil => exact Nat.le_refl 0
  | cons members documents ih =>
      rw [List.flatMap_cons, List.length_append, List.length_cons, documentTokens]
      simp only [List.length_append, List.length_cons]
      omega

/-- **A file of printed documents is read as the documents.** -/
theorem readAll_documents {documents : List Members} (h : ∀ d ∈ documents, Node.IsReadable d) :
    readAll (printedFile documents) = .ok (documents.map fun d => .ofJson (.obj d)) := by
  have htokens := ofText_documents (fun d hd => (h d hd).nonempty) fun d hd => (h d hd).legible
  cases documents with
  | nil =>
      rw [readAll, htokens]
      rfl
  | cons members documents =>
      obtain ⟨hmembers, hrest⟩ := List.forall_mem_cons.mp h
      have hmarked := Node.marked_document hmembers (Node.noDocumentEnd documents)
      have hfirst (ts : List Token) :
          Node.first (documentTokens members ++ ts) = Node.marked (documentTokens members ++ ts) := rfl
      rw [List.flatMap_cons, List.append_assoc] at htokens
      have hfurther : readFurther (Token.ofText (printedFile (members :: documents))).length
          (documents.flatMap documentTokens ++ [.streamEnd]) =
            .ok (documents.map fun d => .ofJson (.obj d)) := by
        apply readFurther_documents hrest
        have hlength := length_documentTokens documents
        rw [htokens]
        simp only [List.length_append]
        omega
      rw [readAll]
      rw [htokens] at hfurther ⊢
      rw [hfirst, hmarked]
      simp only [Bind.bind, Except.bind, Node.value_document hmembers, hfurther]
      rfl

end LanguageClient.Yaml
