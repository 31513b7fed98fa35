import LanguageClient.Proofs.Yaml.Blocks
import LanguageClient.Proofs.Yaml.Numbers

/-!
# The tokens of printed documents

`valueTokens` are the tokens of a printed value, one case per kind of value: the items of a list get
tokens around them only where they stand further in than the mark before them, the entries of a
mapping always do.  A value is `isLegible` if its integers can be written, its texts are intact at
the columns where they are printed, and its keys reach their colons.

Main statement: `ofText_documents`, a file that consists of legible documents is scanned as the tokens of
the documents, one after the other.
-/

namespace LanguageClient.Yaml

open Scanner Scalar Cursor
open Printer (isSimpleKey indentStep)

/-! ## What can be read back -/

/-- The key is read back from the column `indent`. -/
def isKeyLegible (indent : Nat) (name : Text) : Bool :=
  if isSimpleKey name then
    isIntact false (indent + indentStep) name &&
      (Printer.text false (indent + indentStep) indent name).length ≤ keyReach
  else isIntact true (indent + indentStep) name

mutual

/-- The value is read back from behind a mark in a collection at the column `indent`; `isOpen` tells
whether it may start on the line of the mark. -/
def isLegible (indent : Nat) (isOpen : Bool) : Json → Bool
  | .null | .bool _ | .float _ => true
  | .int n => Reading.isWritable n
  | .str t => isIntact true (indent + indentStep) t
  | .arr items => areLegible (if isOpen then indent + indentStep else indent) items
  | .obj members => areEntriesLegible (indent + indentStep) members

def areLegible (indent : Nat) : List Json → Bool
  | [] => true
  | item :: rest => isLegible indent true item && areLegible indent rest

def areEntriesLegible (indent : Nat) : Members → Bool
  | [] => true
  | (name, v) :: rest =>
    isKeyLegible indent name && isLegible indent (!isSimpleKey name) v && areEntriesLegible indent rest

end

/-! ## Tokens -/

mutual

/-- The tokens of a printed value. -/
def valueTokens (isOpen : Bool) : Json → List Token
  | .null => [.scalar (Text.ofChars "null".toList) true]
  | .bool true => [.scalar (Text.ofChars "true".toList) true]
  | .bool false => [.scalar (Text.ofChars "false".toList) true]
  | .int n => [.scalar (Text.ofChars (Printer.int n)) true]
  | .float x => [.scalar (Text.ofChars (Printer.float x)) true]
  | .str t => [textToken t]
  | .arr [] => [.flowSequenceStart, .flowSequenceEnd]
  | .arr (item :: rest) =>
    if isOpen then .blockSequenceStart :: itemTokens (item :: rest) ++ [.blockEnd]
    else itemTokens (item :: rest)
  | .obj [] => [.flowMappingStart, .flowMappingEnd]
  | .obj (member :: rest) => .blockMappingStart :: entryTokens (member :: rest) ++ [.blockEnd]

def itemTokens : List Json → List Token
  | [] => []
  | item :: rest => .blockEntry :: (valueTokens true item ++ itemTokens rest)

def entryTokens : Members → List Token
  | [] => []
  | (name, v) :: rest =>
    .key :: textToken name :: .value :: (valueTokens (!isSimpleKey name) v ++ entryTokens rest)

end

/-! ## The shape of what is printed -/

theorem lead_self (indent : Nat) : Printer.lead true indent indent = [] := by
  simp [Printer.lead, Printer.spaces]

/-- Only the first line of a block depends on the place where the block begins. -/
theorem items_eq (indent column : Nat) (isOpen : Bool) (items : List Json) :
    Printer.items indent column false items = Printer.items indent indent false items ∧
      (items ≠ [] → Printer.items indent column isOpen items =
        Printer.lead isOpen indent column ++ Printer.items indent indent true items) := by
  induction items with
  | nil => exact ⟨rfl, fun h => absurd rfl h⟩
  | cons item rest ih =>
      constructor
      · rw [Printer.items, Printer.items, ih.1]
        rfl
      · intro _
        rw [Printer.items, Printer.items, ih.1, lead_self]
        simp

theorem entries_eq (indent column : Nat) (isOpen : Bool) (members : Members) :
    Printer.entries indent column false members = Printer.entries indent indent false members ∧
      (members ≠ [] → Printer.entries indent column isOpen members =
        Printer.lead isOpen indent column ++ Printer.entries indent indent true members) := by
  induction members with
  | nil => exact ⟨rfl, fun h => absurd rfl h⟩
  | cons member rest ih =>
      constructor
      · rw [Printer.entries, Printer.entries, ih.1]
        rfl
      · intro _
        rw [Printer.entries, Printer.entries, ih.1, lead_self]
        simp

/-- The first character of a value is a gap. -/
theorem startsGap_value {indent column : Nat} {isOpen : Bool} (v : Json)
    (hopen : isOpen = true → column = indent + 1) :
    StartsGap (Printer.value indent column isOpen v) := by
  have hlead (inner : Nat) (w : List Char) (h : isOpen = true → inner = indent + indentStep) :
      StartsGap (Printer.lead isOpen inner column ++ w) := by
    intro more
    cases isOpen with
    | true =>
        have hone : indent + indentStep - (indent + 1) = 1 := by
          unfold indentStep
          omega
        rw [Printer.lead, if_pos rfl, h rfl, hopen rfl, hone]
        rfl
    | false => rfl
  intro more
  match v with
  | .null | .bool true | .bool false | .int _ | .float _ | .str _ | .arr [] | .obj [] =>
    rw [Printer.value]
    rfl
  | .arr (item :: rest) =>
    rw [Printer.value, (items_eq _ column isOpen _).2 (List.cons_ne_nil _ _)]
    exact hlead _ _ (fun h => if_pos h) more
  | .obj (member :: rest) =>
    rw [Printer.value, (entries_eq _ column isOpen _).2 (List.cons_ne_nil _ _)]
    exact hlead _ _ (fun _ => rfl) more

/-! ## Where values and blocks start -/

theorem startsToken_of_startsPlain {w : List Char} (hstart : StartsPlain w)
    (hwritten : ∀ ch ∈ w, IsWritten ch) (more : List Char) : StartsToken (w ++ more) := by
  obtain ⟨ch, rest, rfl, hgap, hkind⟩ := hstart
  intro d hd
  obtain rfl := Option.some.inj hd
  refine ⟨hgap, ?_, (hwritten ch (by simp)).noMark⟩
  rintro rfl
  rcases hkind with hindicator | ⟨hmark, -⟩
  · exact absurd hindicator (by decide)
  · exact absurd hmark (by decide)

theorem startsToken_cons {ch : Char} (h : isGap ch = false ∧ ch ≠ '#' ∧ ch ≠ '\uFEFF')
    (w : List Char) : StartsToken (ch :: w) :=
  fun _ hd => Option.some.inj hd ▸ h

theorem startsToken_text (mayFold : Bool) (indent column : Nat) (t : Text) (more : List Char) :
    StartsToken (Printer.text mayFold indent column t ++ more) := by
  cases hstyle : Printer.Style.of t with
  | plain =>
      refine startsToken_of_startsPlain ?_ isWritten_of_mem_text more
      rw [Printer.text, hstyle]
      exact startsPlain_wrapped hstyle
  | singleQuoted =>
      rw [Printer.text, hstyle]
      exact startsToken_cons (by decide) _
  | doubleQuoted =>
      rw [Printer.text, hstyle]
      exact startsToken_cons (by decide) _

theorem startsToken_items {indent : Nat} {items : List Json} (hne : items ≠ []) (more : List Char) :
    StartsToken (Printer.items indent indent true items ++ more) := by
  obtain ⟨item, rest, rfl⟩ := List.exists_cons_of_ne_nil hne
  rw [Printer.items, lead_self]
  exact startsToken_cons (by decide) _

theorem startsToken_entries {indent : Nat} {members : Members} (hne : members ≠ [])
    (more : List Char) : StartsToken (Printer.entries indent indent true members ++ more) := by
  obtain ⟨⟨name, v⟩, rest, rfl⟩ := List.exists_cons_of_ne_nil hne
  rw [Printer.entries, lead_self, Printer.key]
  split
  next =>
    rw [List.nil_append, List.append_assoc, List.append_assoc, List.append_assoc]
    exact startsToken_text _ _ _ _ _
  next => exact startsToken_cons (by decide) _

/-! ## Values -/

/-- A word is taken as a value. -/
theorem takesValue_spells {indent column : Nat} {isOpen : Bool} {w : List Char} {v : Value}
    (h : Spells w v) (hcolumn : indent < column) :
    TakesValue indent column isOpen (' ' :: w) [.scalar (Text.ofChars w) true] :=
  takesValue_line h.takesLine (startsToken_of_startsPlain h.starts h.isWritten) hcolumn

/-- An entry, with its key on the line of its colon or behind a question mark. -/
theorem takesBlock_entry {indent : Nat} {name : Text} {v : Json}
    (hname : isKeyLegible indent name = true)
    (h : ∀ column, indent < column → (!isSimpleKey name → column = indent + 1) →
      TakesValue indent column (!isSimpleKey name)
        (Printer.value indent column (!isSimpleKey name) v) (valueTokens (!isSimpleKey name) v)) :
    TakesBlock .blockMappingStart indent ((Printer.key indent name).1 ++
      Printer.value indent (Printer.key indent name).2 (!isSimpleKey name) v)
      (.key :: textToken name :: .value :: valueTokens (!isSimpleKey name) v) := by
  have hstep : indent < indent + indentStep := Nat.lt_add_of_pos_right (by decide)
  have hpos : 0 < indent + indentStep := Nat.lt_of_le_of_lt (Nat.zero_le _) hstep
  unfold isKeyLegible at hname
  unfold Printer.key
  cases hsimple : isSimpleKey name with
  | true =>
      simp only [hsimple, if_true, Bool.and_eq_true, decide_eq_true_eq] at hname
      simp only [hsimple, Bool.not_true, Bool.false_eq_true] at h
      have hbreak : name.any Printer.isBreak = false := by
        simp only [isSimpleKey, Bool.and_eq_true, Bool.not_eq_true'] at hsimple
        exact hsimple.1.2
      have hvalue := h (indent + (Printer.text false (indent + indentStep) indent name).length + 1)
        (by omega) False.elim
      have hentry := takesBlock_key (takesKey_text hsimple hpos hname.1 hname.2)
        (isInline_of_mem_text hbreak) hvalue (startsGap_value v Bool.noConfusion)
      simpa using hentry
  | false =>
      simp only [hsimple, Bool.false_eq_true, if_false] at hname
      simp only [hsimple, Bool.not_false] at h
      have hvalue := h (indent + 1) (Nat.lt_succ_self _) fun _ => rfl
      have hentry := takesBlock_question (takesLine_text hstep hname)
        (startsToken_text true (indent + indentStep) (indent + 2) name) hvalue
        (startsGap_value v fun _ => rfl)
      simpa using hentry

mutual

/-- **A printed value gives its tokens.** -/
theorem takesValue : (v : Json) → (indent column : Nat) → (isOpen : Bool) → indent < column →
    (isOpen = true → column = indent + 1) → isLegible indent isOpen v = true →
    TakesValue indent column isOpen (Printer.value indent column isOpen v) (valueTokens isOpen v)
  | .null, indent, column, isOpen, hcolumn, hopen, hlegible => takesValue_spells spells_null hcolumn
  | .bool true, indent, column, isOpen, hcolumn, hopen, hlegible =>
      takesValue_spells spells_true hcolumn
  | .bool false, indent, column, isOpen, hcolumn, hopen, hlegible =>
      takesValue_spells spells_false hcolumn
  | .int n, indent, column, isOpen, hcolumn, hopen, hlegible =>
      takesValue_spells (spells_int hlegible) hcolumn
  | .float x, indent, column, isOpen, hcolumn, hopen, hlegible =>
      takesValue_spells (spells_float x) hcolumn
  | .str t, indent, column, isOpen, hcolumn, hopen, hlegible =>
      takesValue_line (takesLine_text (Nat.lt_add_of_pos_right (by decide)) hlegible)
        (startsToken_text _ _ _ _) hcolumn
  | .arr [], indent, column, isOpen, hcolumn, hopen, hlegible =>
      takesValue_line takesLine_emptyList (fun _ => startsToken_cons (by decide) _) hcolumn
  | .obj [], indent, column, isOpen, hcolumn, hopen, hlegible =>
      takesValue_line takesLine_emptyMapping (fun _ => startsToken_cons (by decide) _) hcolumn
  | .arr (item :: rest), indent, column, true, hcolumn, hopen, hlegible => by
      have hblock := takesItems (item :: rest) (indent + indentStep) (List.cons_ne_nil _ _) hlegible
      rw [Printer.value, (items_eq _ column true _).2 (List.cons_ne_nil _ _)]
      refine takesValue_deeper hblock (startsToken_items (List.cons_ne_nil _ _))
        (Nat.lt_add_of_pos_right (by decide)) fun _ => ⟨hcolumn, ?_⟩
      rw [hopen rfl]
      exact Nat.add_le_add_left (by decide) _
  | .arr (item :: rest), indent, column, false, hcolumn, hopen, hlegible => by
      have hblock := takesItems (item :: rest) indent (List.cons_ne_nil _ _) hlegible
      rw [Printer.value, (items_eq _ column false _).2 (List.cons_ne_nil _ _)]
      exact takesValue_flush hblock (startsToken_items (List.cons_ne_nil _ _))
  | .obj (member :: rest), indent, column, isOpen, hcolumn, hopen, hlegible => by
      have hblock := takesEntries (member :: rest) (indent + indentStep) (List.cons_ne_nil _ _) hlegible
      rw [Printer.value, (entries_eq _ column isOpen _).2 (List.cons_ne_nil _ _)]
      refine takesValue_deeper hblock (startsToken_entries (List.cons_ne_nil _ _))
        (Nat.lt_add_of_pos_right (by decide)) fun h => ⟨hcolumn, ?_⟩
      rw [hopen h]
      exact Nat.add_le_add_left (by decide) _

theorem takesItems : (items : List Json) → (indent : Nat) → items ≠ [] →
    areLegible indent items = true →
    TakesBlock .blockSequenceStart indent (Printer.items indent indent true items) (itemTokens items)
  | [], _, hne, _ => absurd rfl hne
  | item :: rest, indent, _, hlegible => by
      rw [areLegible, Bool.and_eq_true] at hlegible
      have hitem := takesBlock_item
        (takesValue item indent (indent + 1) true (Nat.lt_succ_self _) (fun _ => rfl) hlegible.1)
        (startsGap_value item fun _ => rfl)
      rw [Printer.items, lead_self, itemTokens]
      by_cases hne : rest = []
      · subst hne
        simpa [Printer.items, itemTokens] using hitem
      · have hrest := takesItems rest indent hne hlegible.2
        rw [(items_eq _ _ false _).2 hne]
        simpa [Printer.lead] using hitem.append hrest (startsToken_items hne)

theorem takesEntries : (members : Members) → (indent : Nat) → members ≠ [] →
    areEntriesLegible indent members = true →
    TakesBlock .blockMappingStart indent (Printer.entries indent indent true members)
      (entryTokens members)
  | [], _, hne, _ => absurd rfl hne
  | (name, v) :: rest, indent, _, hlegible => by
      rw [areEntriesLegible, Bool.and_eq_true, Bool.and_eq_true] at hlegible
      have hentry := takesBlock_entry hlegible.1.1 fun column hcolumn hopen =>
        takesValue v indent column (!isSimpleKey name) hcolumn hopen hlegible.1.2
      rw [Printer.entries, lead_self, entryTokens]
      by_cases hne : rest = []
      · subst hne
        simpa [Printer.entries, entryTokens] using hentry
      · have hrest := takesEntries rest indent hne hlegible.2
        rw [(entries_eq _ _ false _).2 hne]
        simpa [Printer.lead] using hentry.append hrest (startsToken_entries hne)

end

end LanguageClient.Yaml
