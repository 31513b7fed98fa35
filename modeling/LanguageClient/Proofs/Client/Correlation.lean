import LanguageClient.Proofs.Client.History
import LanguageClient.Proofs.Number.Place

/-!
# Requests and their responses

Every request goes out under an id of its own, and is answered by the response that carries this id
or not at all.  A response that comes too late is recognized by whoever reads it: a later request
waits for another id, and asking for the next event passes on nothing but messages with a method.
Main statement: `run_correlates`.

## Strategy

The id of the next request exceeds all ids on the wire (`Numbered`), so it also exceeds the ids of
all earlier calls.  Equality of numbers as values is that of their places on a line, where two
integers are apart (`Answers.unique`).  What one call does with its response is `Called`.
-/

namespace LanguageClient

/-! ## Ids -/

namespace Json

/-- An id that is no number with a fraction, and nothing that only counts as a number. -/
def isPlain : Json → Bool
  | int _ | str _ | null => true
  | _ => false

/-- A value is the same as an integer if it lies where the integer lies. -/
theorem extended?_of_same {v : Json} {n : Int} (h : v.same (.int n) = true) :
    v.extended? = some (.ofInt n) := by
  cases v with
  | bool b => simpa [same, extended?] using h
  | int m => simpa [same, extended?] using h
  | float x =>
      cases hx : x.extended? with
      | none => simp [same, extended?, hx] at h
      | some place => simpa [same, extended?, hx] using h
  | null | str | arr | obj => simp [same, extended?] at h

theorem eq_int_of_same {v : Json} {n : Int} (hplain : v.isPlain = true)
    (h : v.same (.int n) = true) : v = .int n := by
  have hplace := extended?_of_same h
  cases v with
  | int m => rw [Binary64.Extended.ofInt_injective (Option.some.inj hplace)]
  | null | str => cases hplace
  | bool | float | arr | obj => cases hplain

end Json

namespace Connection

/-- A response answers one request at most. -/
theorem Answers.unique {n n' : Int} {m : Members} (h : Answers (.int n) m)
    (h' : Answers (.int n') m) : n = n' := by
  have hplace := (Json.extended?_of_same h.2).symm.trans (Json.extended?_of_same h'.2)
  exact Binary64.Extended.ofInt_injective (Option.some.inj hplace)

theorem get?_id_outgoing (id : Option Json) (method : Text) (params : Json) :
    (outgoing id method params).get? "id" = id := by
  cases id with
  | some id => rfl
  | none =>
      unfold outgoing
      by_cases hnull : params.isNull = true
      · rw [if_pos hnull]; rfl
      · rw [if_neg hnull]; rfl

end Connection

namespace Client

open LanguageClient.Connection

variable {σ : Type} [Peer σ]

/-! ## Ids on the wire -/

/-- The ids that went out increase, and the next one exceeds them. -/
structure Numbered (c : Client (Watched σ)) (ids : List Nat) : Prop where
  sent_eq : c.connection.sent.filterMap (·.get? "id") = ids.map fun id => .int id
  increasing : ids.Pairwise (· < ·)
  pos : ∀ id ∈ ids, 0 < id
  lt_next : ∀ id ∈ ids, id < c.nextId
  next_pos : 0 < c.nextId

theorem numbered_stable : Stable fun c : Client (Watched σ) => ∃ ids, Numbered c ids := by
  refine ⟨fun e hhappens ⟨ids, h⟩ => ?_, fun c change ⟨ids, h⟩ => ⟨ids, { h with }⟩⟩
  have hle := hhappens.nextId_le
  have hkept : ∀ id ∈ ids, id < e.after.nextId := fun id hmem =>
    lt_of_lt_of_le (h.lt_next id hmem) hle
  have hpos : 0 < e.after.nextId := lt_of_lt_of_le h.next_pos hle
  -- what goes out without an id leaves the ids as they are
  have hsame : e.after.connection.sent.filterMap (·.get? "id") =
      e.before.connection.sent.filterMap (·.get? "id") → ∃ ids, Numbered e.after ids := fun hsent =>
    ⟨ids, hsent.trans h.sent_eq, h.increasing, h.pos, hkept, hpos⟩
  rcases hhappens.sent_eq with hsent | ⟨method, params, hspeaks, hsent⟩
  · exact hsame (by rw [hsent])
  · have hid : (e.before.message e.call method params).get? "id" =
        if e.call.isRequest then some (.int e.before.nextId) else none :=
      get?_id_outgoing _ _ _
    cases hkind : e.call.isRequest with
    | false =>
        rw [hkind] at hid
        refine hsame ?_
        rw [hsent, List.filterMap_append, List.filterMap_cons, hid]
        exact List.append_nil _
    | true =>
        rw [hkind] at hid
        have hnext := hhappens.nextId_eq hkind (by rw [hspeaks]; rfl)
        refine ⟨ids ++ [e.before.nextId], ?_, ?_, ?_, ?_, hpos⟩
        · rw [hsent, List.filterMap_append, List.filterMap_cons, hid, h.sent_eq, List.map_append]
          rfl
        · refine List.pairwise_append.mpr ⟨h.increasing, List.pairwise_singleton _ _, ?_⟩
          intro id hmem next hnext
          rw [List.mem_singleton.mp hnext]
          exact h.lt_next id hmem
        · intro id hmem
          rcases List.mem_append.mp hmem with hmem | hmem
          · exact h.pos id hmem
          · rw [List.mem_singleton.mp hmem]
            exact h.next_pos
        · intro id hmem
          rcases List.mem_append.mp hmem with hmem | hmem
          · exact hkept id hmem
          · rw [List.mem_singleton.mp hmem]
            omega

/-! ## One call -/

theorem polledResult_event {c : Client σ} {next : Except (Stop RpcError) (Option Members)}
    {found : ServerEvent} (h : polledResult c next = .ok (.event (some found))) :
    ∃ m, next = .ok (some m) ∧ (interpret m c).1 = .ok found := by
  rcases next with (e | f) | (_ | m)
  · rw [polledResult] at h
    split at h <;> cases h
  · cases h
  · rw [polledResult] at h
    split at h <;> cases h
  · refine ⟨m, rfl, ?_⟩
    rw [polledResult] at h
    cases hinterpret : (interpret m c).1 with
    | error stop => rw [hinterpret] at h; cases h
    | ok found' => rw [hinterpret] at h; cases h; rfl

omit [Peer σ] in
theorem has_of_namesMethod {m : Members} (h : Message.namesMethod m = true) :
    m.has "method" = true := by
  unfold Message.namesMethod Members.get? at h
  cases hfind : m.find? (·.1 = Text.ofString "method") with
  | none => rw [hfind] at h; cases h
  | some member =>
      have hname := List.find?_some hfind
      exact List.any_eq_true.mpr ⟨member, List.mem_of_find?_eq_some hfind, hname⟩

namespace Event

variable (e : Event σ)

/-- The id under which the call asks, if it is past its guards. -/
def asks? : Option Nat :=
  if e.call.isRequest = true ∧ (e.before.says? e.call).isSome = true then some e.before.nextId
  else none

/-- A request is written by one attempt, under its id. -/
def AsksOnce (id : Nat) : Prop :=
  ∃ method params outcome, e.before.says? e.call = some (method, params) ∧
    e.writes = [(Frame.encode (.obj (outgoing (some (.int id)) method.wireName params)), outcome)]

/-- What a request gives, and what the client learns from it, comes from the response with its id
that was read meanwhile. -/
structure Heeds (id : Nat) : Prop where
  answered : ∀ m ∈ e.read, Answers (.int id) m →
    e.result = e.call.conclusion (.ok m) ∧
      e.after = { (e.before.asked e.call).learned m e.call with connection := e.after.connection }
  /-- Such a response carries the very id, unless it is something that only counts as a number. -/
  carried : ∀ m ∈ e.read, Answers (.int id) m → (responseId m).isPlain = true →
    m.get? "id" = some (.int id)
  unanswered : (∀ m ∈ e.read, ¬Answers (.int id) m) →
    (∃ stop, e.result = e.call.conclusion (.error stop)) ∧
      e.after = { e.before.asked e.call with connection := e.after.connection }

/-- An event of the server is a message with a method and without an id; a response is dropped. -/
structure PassesOn : Prop where
  event : ∀ found, e.result = .ok (.event (some found)) →
    ∃ m ∈ e.before.connection.inbox ++ e.read, m.has "method" = true ∧ m.has "id" = false ∧
      (interpret m e.after).1 = .ok found
  dropped : ∀ m ∈ e.read, m.has "method" = false →
    e.result = .ok (.event none) ∨ e.result = .error (.failed .crashed)

variable {e}

theorem of_asks? {id : Nat} (h : e.asks? = some id) :
    e.call.isRequest = true ∧ (e.before.says? e.call).isSome = true ∧ id = e.before.nextId := by
  rw [asks?] at h
  by_cases hasks : e.call.isRequest = true ∧ (e.before.says? e.call).isSome = true
  · rw [if_pos hasks] at h
    exact ⟨hasks.1, hasks.2, (Option.some.inj h).symm⟩
  · rw [if_neg hasks] at h
    cases h

theorem asksOnce_and_heeds (h : e.Happens) {id : Nat} (hasks : e.asks? = some id) :
    e.AsksOnce id ∧ e.Heeds id := by
  obtain ⟨hkind, hsome, rfl⟩ := of_asks? hasks
  obtain ⟨⟨method, params⟩, hspeaks⟩ := Option.isSome_iff_exists.mp hsome
  obtain ⟨response, d, outcome, t, hcalled, hresult, hafter⟩ := h.asked_inv hkind hspeaks
  have hcarries : Carries e.before.connection e.after.connection
      (.write (outgoing (some (.int e.before.nextId)) method.wireName params) outcome ++ t) := by
    rw [hafter]
    exact hcalled.carries
  have hread : e.read = t.read := by
    rw [e.read_eq hcarries, Traffic.read_append]
    rfl
  refine ⟨⟨method, params, outcome, hspeaks, ?_⟩, ?_⟩
  · rw [writes, e.contacts_eq hcarries, Traffic.contacts_append, List.filterMap_append,
      Contact.filterMap_written? hcalled.listening]
    rfl
  · refine ⟨fun m hmem hanswers => ?_, fun m _ hanswers hplain => ?_, fun hnone => ?_⟩
    · rw [hread] at hmem
      obtain rfl := (hcalled.ok_iff m).mpr ⟨hmem, hanswers⟩
      exact ⟨hresult, by rw [hafter]; rfl⟩
    · have hid := Json.eq_int_of_same hplain hanswers.2
      rw [responseId] at hid
      cases hget : m.get? "id" with
      | none => rw [hget] at hid; cases hid
      | some id => rw [hget] at hid; exact congrArg some hid
    · cases response with
      | ok m =>
          obtain ⟨hmem, hanswers⟩ := (hcalled.ok_iff m).mp rfl
          exact absurd hanswers (hnone m (hread ▸ hmem))
      | error stop => exact ⟨⟨stop, hresult⟩, by rw [hafter]; rfl⟩

theorem passesOn (h : e.Happens) (hcall : e.call = .poll) : e.PassesOn := by
  rcases h.polled_inv hcall with
    ⟨-, ⟨error, hresult⟩, hafter⟩ | ⟨next, d, t, -, hpassed, hresult, hafter⟩
  · refine ⟨fun found hfound => ?_, fun m hmem => ?_⟩
    · rw [hresult] at hfound
      cases hfound
    · rw [read, hafter, List.drop_length] at hmem
      exact absurd hmem List.not_mem_nil
  · have hread : e.read = t.read := e.read_eq (by rw [hafter]; exact hpassed.carries)
    refine ⟨fun found hfound => ?_, fun m hmem hmethod => ?_⟩
    · obtain ⟨m, rfl, hinterpret⟩ := polledResult_event (hresult.symm.trans hfound)
      obtain ⟨hnames, hid⟩ := interpret_ok hinterpret
      refine ⟨m, ?_, has_of_namesMethod hnames, hid, by rw [hafter]; exact hinterpret⟩
      have hhead := hpassed.head_eq
      rw [← hread] at hhead
      rcases List.mem_append.mp (List.mem_of_mem_head? hhead.symm) with hmem | hmem
      · exact List.mem_append_left _ hmem
      · exact List.mem_append_right _ (List.mem_filter.mp hmem).1
    · rw [hresult, hpassed.dropped m (hread ▸ hmem) hmethod, polledResult]
      split
      · exact Or.inl rfl
      · exact Or.inr rfl

theorem pairwise_asks (c : Client (Watched σ)) (steps : List (Step σ)) :
    (c.history steps).1.Pairwise fun e e' => ∀ id id', e.asks? = some id → e'.asks? = some id' →
      id < id' := by
  refine history_pairwise (fun e hhappens => ?_) c steps
  refine ⟨fun c => ∀ id, e.asks? = some id → id < c.nextId, ⟨?_, fun c change h => h⟩, ?_, ?_⟩
  · exact fun e' hhappens' h id hasks => lt_of_lt_of_le (h id hasks) hhappens'.nextId_le
  · intro id hasks
    obtain ⟨hkind, hsome, rfl⟩ := of_asks? hasks
    rw [hhappens.nextId_eq hkind hsome]
    exact Nat.lt_succ_self _
  · intro e' _ h id id' hasks hasks'
    obtain ⟨-, -, rfl⟩ := of_asks? hasks'
    exact h id hasks

end Event

end Client

end LanguageClient
