import LanguageClient.Proofs.Yaml.Tokens

/-!
# The nodes of printed documents

The tokens of a printed value are read as one node (`read_value`), whatever follows them: only the items
of a list at the column of the mapping around it have no token at their end, and behind them no further
item may come (`NoItem`).

Reading has fuel.  A node takes at most two steps on the way to its first token, and every further one
stands for a token of its own, so that four steps for each token are more than enough.
-/

namespace LanguageClient.Yaml

open Printer (isSimpleKey)

/-! ## Nodes -/

/-- A node of characters that were printed without quotes. -/
def wordNode (w : List Char) : Node :=
  .scalar none (Kind.ofPlain (Text.ofChars w)) (Text.ofChars w)

mutual

/-- The node of a printed value. -/
def valueNode : Json → Node
  | .null => wordNode "null".toList
  | .bool true => wordNode "true".toList
  | .bool false => wordNode "false".toList
  | .int n => wordNode (Printer.int n)
  | .float x => wordNode (Printer.float x)
  | .str t => .scalar none .str t
  | .arr items => .sequence none .seq (itemNodes items)
  | .obj members => .mapping none .map (entryNodes members)

def itemNodes : List Json → List Node
  | [] => []
  | item :: rest => valueNode item :: itemNodes rest

def entryNodes : Members → List (Node × Node)
  | [] => []
  | (name, v) :: rest => (.scalar none .str name, valueNode v) :: entryNodes rest

end

/-! ## Single steps -/

namespace Node

variable {more : List Token} {o : Outline} {anchors : List Text} {handles : List (Text × Text)}
  {inBlock mayBeFlush : Bool} {fuel : Nat}

theorem read_scalar (t : Text) (isPlain : Bool) :
    read inBlock mayBeFlush (fuel + 1) ⟨.scalar t isPlain :: more, anchors, handles⟩ =
      .ok (.scalar none (scalarKind none t isPlain) t, ⟨more, anchors, handles⟩) := by
  rfl

/-- A step that succeeds, and what comes after it. -/
theorem bind_ok {α β : Type} {x : Reads α} {f : α → Reads β} {o o' : Outline} {a : α}
    (h : x o = .ok (a, o')) : (x >>= f) o = f a o' := by
  show (x o >>= fun p => f p.1 p.2) = f a o'
  rw [h]
  rfl

theorem read_blockSequence {items : List Node}
    (h : blockItems fuel ⟨more, anchors, handles⟩ = .ok (items, o)) :
    read true mayBeFlush (fuel + 1) ⟨.blockSequenceStart :: more, anchors, handles⟩ =
      .ok (.sequence none .seq items, o) := by
  show (blockItems fuel >>= fun items => pure (sequence none .seq items)) ⟨more, anchors, handles⟩ = _
  rw [bind_ok h]
  rfl

theorem read_blockMapping {entries : List (Node × Node)}
    (h : blockEntries fuel ⟨more, anchors, handles⟩ = .ok (entries, o)) :
    read true mayBeFlush (fuel + 1) ⟨.blockMappingStart :: more, anchors, handles⟩ =
      .ok (.mapping none .map entries, o) := by
  show (blockEntries fuel >>= fun entries => pure (mapping none .map entries)) ⟨more, anchors, handles⟩ = _
  rw [bind_ok h]
  rfl

theorem read_flushSequence {items : List Node}
    (h : flushItems fuel ⟨.blockEntry :: more, anchors, handles⟩ = .ok (items, o)) :
    read true true (fuel + 1) ⟨.blockEntry :: more, anchors, handles⟩ =
      .ok (.sequence none .seq items, o) := by
  show (flushItems fuel >>= fun items => pure (sequence none .seq items))
    ⟨.blockEntry :: more, anchors, handles⟩ = _
  rw [bind_ok h]
  rfl

theorem read_emptyList :
    read inBlock mayBeFlush (fuel + 2) ⟨.flowSequenceStart :: .flowSequenceEnd :: more, anchors, handles⟩ =
      .ok (.sequence none .seq [], ⟨more, anchors, handles⟩) := by
  rfl

theorem read_emptyMapping :
    read inBlock mayBeFlush (fuel + 2) ⟨.flowMappingStart :: .flowMappingEnd :: more, anchors, handles⟩ =
      .ok (.mapping none .map [], ⟨more, anchors, handles⟩) := by
  rfl

/-- A node stands where one may. -/
theorem readUnless_of_starts {ends : Token → Bool} {t : Token} (ht : ends t = false) {node : Node}
    (h : read inBlock mayBeFlush fuel ⟨t :: more, anchors, handles⟩ = .ok (node, o)) :
    readUnless ends inBlock mayBeFlush (fuel + 1) ⟨t :: more, anchors, handles⟩ = .ok (node, o) := by
  show (if ends t then pure nothing else read inBlock mayBeFlush fuel :
    Reads Node) ⟨t :: more, anchors, handles⟩ = _
  rw [ht]
  exact h

theorem blockItems_cons {item : Node} {items : List Node} {o' : Outline}
    (hitem : readUnless endsBlockItem true false fuel ⟨more, anchors, handles⟩ = .ok (item, o))
    (hrest : blockItems fuel o = .ok (items, o')) :
    blockItems (fuel + 1) ⟨.blockEntry :: more, anchors, handles⟩ = .ok (item :: items, o') := by
  show (readUnless endsBlockItem true false fuel >>= fun item =>
    blockItems fuel >>= fun items => pure (item :: items)) ⟨more, anchors, handles⟩ = _
  rw [bind_ok hitem, bind_ok hrest]
  rfl

theorem blockItems_end :
    blockItems (fuel + 1) ⟨.blockEnd :: more, anchors, handles⟩ = .ok ([], ⟨more, anchors, handles⟩) :=
  rfl

theorem flushItems_cons {item : Node} {items : List Node} {o' : Outline}
    (hitem : readUnless endsIndentlessItem true false fuel ⟨more, anchors, handles⟩ = .ok (item, o))
    (hrest : flushItems fuel o = .ok (items, o')) :
    flushItems (fuel + 1) ⟨.blockEntry :: more, anchors, handles⟩ = .ok (item :: items, o') := by
  show (readUnless endsIndentlessItem true false fuel >>= fun item =>
    flushItems fuel >>= fun items => pure (item :: items)) ⟨more, anchors, handles⟩ = _
  rw [bind_ok hitem, bind_ok hrest]
  rfl

/-- No further item comes next. -/
def NoItem (more : List Token) : Prop := ∀ ts, more ≠ .blockEntry :: ts

theorem flushItems_end (h : NoItem more) :
    flushItems (fuel + 1) ⟨more, anchors, handles⟩ = .ok ([], ⟨more, anchors, handles⟩) := by
  match more, h with
  | [], _ => rfl
  | .blockEntry :: ts, h => exact absurd rfl (h ts)
  | .streamEnd :: _, _ | .broken _ :: _, _ | .directive _ :: _, _ | .documentStart :: _, _
  | .documentEnd :: _, _ | .blockSequenceStart :: _, _ | .blockMappingStart :: _, _
  | .blockEnd :: _, _ | .flowSequenceStart :: _, _ | .flowSequenceEnd :: _, _
  | .flowMappingStart :: _, _ | .flowMappingEnd :: _, _ | .flowEntry :: _, _ | .key :: _, _
  | .value :: _, _ | .reference _ :: _, _ | .anchor _ :: _, _ | .tag _ :: _, _
  | .scalar _ _ :: _, _ => rfl

theorem blockEntries_cons {key value : Node} {entries : List (Node × Node)} {o' o'' : Outline}
    (hkey : readUnless endsBlockPart true true (fuel + 1) ⟨more, anchors, handles⟩ =
      .ok (key, ⟨.value :: o.tokens, o.anchors, o.handles⟩))
    (hvalue : readUnless endsBlockPart true true fuel o = .ok (value, o'))
    (hrest : blockEntries (fuel + 1) o' = .ok (entries, o'')) :
    blockEntries (fuel + 2) ⟨.key :: more, anchors, handles⟩ = .ok ((key, value) :: entries, o'') := by
  have hvalue' : readValue endsBlockPart true (fuel + 1) ⟨.value :: o.tokens, o.anchors, o.handles⟩ =
      .ok (value, o') := hvalue
  show (readUnless endsBlockPart true true (fuel + 1) >>= fun key =>
    readValue endsBlockPart true (fuel + 1) >>= fun value =>
      blockEntries (fuel + 1) >>= fun entries => pure ((key, value) :: entries)) ⟨more, anchors, handles⟩ = _
  rw [bind_ok hkey, bind_ok hvalue', bind_ok hrest]
  rfl

theorem blockEntries_end :
    blockEntries (fuel + 1) ⟨.blockEnd :: more, anchors, handles⟩ = .ok ([], ⟨more, anchors, handles⟩) :=
  rfl

/-! ## Values -/

/-- The first token of a value does not end the place where the value stands. -/
theorem exists_firstToken (isOpen : Bool) (v : Json) : ∃ t rest, valueTokens isOpen v = t :: rest ∧
    endsBlockPart t = false ∧
    (isOpen = true → endsBlockItem t = false ∧ endsIndentlessItem t = false) := by
  -- This is where the two kinds of lists differ.
  match v, isOpen with
  | .null, _ | .bool true, _ | .bool false, _ | .int _, _ | .float _, _ | .str _, _ | .arr [], _
  | .obj [], _ | .obj (_ :: _), _ => exact ⟨_, _, rfl, rfl, fun _ => ⟨rfl, rfl⟩⟩
  | .arr (_ :: _), true => exact ⟨_, _, rfl, rfl, fun _ => ⟨rfl, rfl⟩⟩
  | .arr (_ :: _), false => exact ⟨_, _, rfl, rfl, nofun⟩

theorem exists_firstToken_eq {isOpen : Bool} {v : Json} {t : Token} {ts : List Token}
    (h : valueTokens isOpen v = t :: ts) : endsBlockPart t = false ∧
      (isOpen = true → endsBlockItem t = false ∧ endsIndentlessItem t = false) := by
  obtain ⟨t', rest, htokens, hends⟩ := exists_firstToken isOpen v
  obtain ⟨rfl, -⟩ := List.cons.inj (h.symm.trans htokens)
  exact hends

theorem scalarKind_text (t : Text) :
    scalarKind none t (decide (Printer.Style.of t = .plain)) = .str := by
  by_cases hstyle : Printer.Style.of t = .plain
  · rw [decide_eq_true hstyle]
    exact (plain_of_style hstyle).1
  · rw [decide_eq_false hstyle]
    rfl

theorem read_textToken (t : Text) :
    read inBlock mayBeFlush (fuel + 1) ⟨textToken t :: more, anchors, handles⟩ =
      .ok (.scalar none .str t, ⟨more, anchors, handles⟩) := by
  rw [textToken, read_scalar, scalarKind_text]

theorem readUnless_value {ends : Token → Bool} {isOpen : Bool} {v : Json} {node : Node}
    (hends : ∀ t ts, valueTokens isOpen v = t :: ts → ends t = false)
    (h : read inBlock mayBeFlush fuel ⟨valueTokens isOpen v ++ more, anchors, handles⟩ = .ok (node, o)) :
    readUnless ends inBlock mayBeFlush (fuel + 1) ⟨valueTokens isOpen v ++ more, anchors, handles⟩ =
      .ok (node, o) := by
  obtain ⟨t, rest, htokens, -⟩ := exists_firstToken isOpen v
  have ht := hends t rest htokens
  rw [htokens] at h ⊢
  exact readUnless_of_starts ht h

theorem length_valueTokens_pos (isOpen : Bool) (v : Json) : 0 < (valueTokens isOpen v).length := by
  obtain ⟨t, rest, htokens, -⟩ := exists_firstToken isOpen v
  rw [htokens]
  exact Nat.succ_pos _

/-- Behind the value of an entry comes another entry, or the end of the mapping. -/
theorem noItem_entries (members : Members) (more : List Token) :
    NoItem (entryTokens members ++ .blockEnd :: more) := by
  intro ts h
  cases members with
  | nil => cases h
  | cons member rest => cases h

mutual

/-- **The tokens of a value are read as its node.** -/
theorem read_value : (v : Json) → (isOpen mayBeFlush : Bool) → (fuel : Nat) → (more : List Token) →
    (isOpen = false → mayBeFlush = true ∧ NoItem more) →
    4 * (valueTokens isOpen v).length ≤ fuel →
    read true mayBeFlush fuel ⟨valueTokens isOpen v ++ more, anchors, handles⟩ =
      .ok (valueNode v, ⟨more, anchors, handles⟩)
  | .null, _, _, fuel + 1, more, _, _ => read_scalar _ _
  | .bool true, _, _, fuel + 1, more, _, _ => read_scalar _ _
  | .bool false, _, _, fuel + 1, more, _, _ => read_scalar _ _
  | .int n, _, _, fuel + 1, more, _, _ => read_scalar _ _
  | .float x, _, _, fuel + 1, more, _, _ => read_scalar _ _
  | .str t, _, _, fuel + 1, more, _, _ => read_textToken t
  | .arr [], _, _, fuel + 2, more, _, _ => read_emptyList
  | .obj [], _, _, fuel + 2, more, _, _ => read_emptyMapping
  | .arr (item :: rest), true, mayBeFlush, fuel + 1, more, _, hfuel => by
      have htokens : valueTokens true (.arr (item :: rest)) ++ more =
          .blockSequenceStart :: (itemTokens (item :: rest) ++ .blockEnd :: more) := by
        simp [valueTokens]
      have hlength : (valueTokens true (.arr (item :: rest))).length =
          (itemTokens (item :: rest)).length + 2 := by simp [valueTokens]
      rw [htokens]
      exact read_blockSequence (read_blockItems (item :: rest) fuel more (by omega) (by omega))
  | .arr (item :: rest), false, mayBeFlush, fuel + 1, more, hflush, hfuel => by
      obtain ⟨rfl, hmore⟩ := hflush rfl
      have htokens : valueTokens false (.arr (item :: rest)) = itemTokens (item :: rest) := by
        simp [valueTokens]
      have hlength : 0 < (itemTokens (item :: rest)).length := Nat.succ_pos _
      rw [htokens] at hfuel ⊢
      exact read_flushSequence (read_flushItems (item :: rest) fuel more hmore (by omega) (by omega))
  | .obj (member :: rest), isOpen, mayBeFlush, fuel + 1, more, _, hfuel => by
      have htokens : valueTokens isOpen (.obj (member :: rest)) ++ more =
          .blockMappingStart :: (entryTokens (member :: rest) ++ .blockEnd :: more) := by
        simp [valueTokens]
      have hlength : (valueTokens isOpen (.obj (member :: rest))).length =
          (entryTokens (member :: rest)).length + 2 := by simp [valueTokens]
      rw [htokens]
      exact read_blockMapping (read_blockEntries (member :: rest) fuel more (by omega) (by omega))

theorem read_blockItems : (items : List Json) → (fuel : Nat) → (more : List Token) →
    4 * (itemTokens items).length ≤ fuel + 2 → 0 < fuel →
    blockItems fuel ⟨itemTokens items ++ .blockEnd :: more, anchors, handles⟩ =
      .ok (itemNodes items, ⟨more, anchors, handles⟩)
  | [], fuel + 1, more, _, _ => rfl
  | item :: rest, fuel, more, hfuel, _ => by
      have hlength : (itemTokens (item :: rest)).length =
          (valueTokens true item).length + (itemTokens rest).length + 1 := by simp [itemTokens]
      have hitem := length_valueTokens_pos true item
      obtain ⟨fuel, rfl⟩ : ∃ n, fuel = n + 2 := ⟨fuel - 2, by omega⟩
      rw [itemTokens, List.cons_append, List.append_assoc]
      refine blockItems_cons (readUnless_value (fun t ts h => ?_) (read_value item true false fuel _ nofun
        (by omega))) (read_blockItems rest (fuel + 1) more (by omega) (by omega))
      exact ((exists_firstToken_eq h).2 rfl).1

theorem read_flushItems : (items : List Json) → (fuel : Nat) → (more : List Token) → NoItem more →
    4 * (itemTokens items).length ≤ fuel + 2 → 0 < fuel →
    flushItems fuel ⟨itemTokens items ++ more, anchors, handles⟩ =
      .ok (itemNodes items, ⟨more, anchors, handles⟩)
  | [], fuel + 1, more, hmore, _, _ => flushItems_end hmore
  | item :: rest, fuel, more, hmore, hfuel, _ => by
      have hlength : (itemTokens (item :: rest)).length =
          (valueTokens true item).length + (itemTokens rest).length + 1 := by simp [itemTokens]
      have hitem := length_valueTokens_pos true item
      obtain ⟨fuel, rfl⟩ : ∃ n, fuel = n + 2 := ⟨fuel - 2, by omega⟩
      rw [itemTokens, List.cons_append, List.append_assoc]
      refine flushItems_cons (readUnless_value (fun t ts h => ?_) (read_value item true false fuel _ nofun
        (by omega))) (read_flushItems rest (fuel + 1) more hmore (by omega) (by omega))
      exact ((exists_firstToken_eq h).2 rfl).2

theorem read_blockEntries : (members : Members) → (fuel : Nat) → (more : List Token) →
    4 * (entryTokens members).length ≤ fuel + 2 → 0 < fuel →
    blockEntries fuel ⟨entryTokens members ++ .blockEnd :: more, anchors, handles⟩ =
      .ok (entryNodes members, ⟨more, anchors, handles⟩)
  | [], fuel + 1, more, _, _ => rfl
  | (name, v) :: rest, fuel, more, hfuel, _ => by
      have hlength : (entryTokens ((name, v) :: rest)).length =
          (valueTokens (!isSimpleKey name) v).length + (entryTokens rest).length + 3 := by
        simp [entryTokens]
      have hvalue := length_valueTokens_pos (!isSimpleKey name) v
      obtain ⟨fuel, rfl⟩ : ∃ n, fuel = n + 3 := ⟨fuel - 3, by omega⟩
      rw [entryTokens, List.cons_append, List.cons_append, List.cons_append, List.append_assoc]
      refine blockEntries_cons (readUnless_of_starts rfl (read_textToken name))
        (readUnless_value (fun t ts h => ?_) (read_value v (!isSimpleKey name) true fuel _
          (fun _ => ⟨rfl, noItem_entries rest more⟩) (by omega)))
        (read_blockEntries rest (fuel + 2) more (by omega) (by omega))
      exact (exists_firstToken_eq h).1

end

end Node

end LanguageClient.Yaml
