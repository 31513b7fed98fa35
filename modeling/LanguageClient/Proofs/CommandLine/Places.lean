import LanguageClient.Proofs.Client.Documents
import LanguageClient.Proofs.CommandLine.Answer
import LanguageClient.Proofs.Number.Integer
import LanguageClient.Proofs.Protocol.Numbers
import LanguageClient.Script.Host

/-!
# What a place is counted from

```text
command line     from one       what the user types
wire             from zero      what the server is asked, and what it answers
table            from one       where diagnostics begin
panel            from zero      what a hover is about
```

What the user types is counted down on its way to the wire, and the table of diagnostics counts the
server's numbers up again.  The panel of a hover does not: it shows the numbers of the server.  So the
place that a user asks about is never shown as it was typed, though the server may give it back.  Main
statement: `hover_places`.
-/

namespace LanguageClient

/-! ## The command line -/

namespace Grammar

variable {α : Type} {g : Grammar α}

/-- The argument does not start as a flag does. -/
def IsOperand (argument : Text) : Prop := argument.head? ≠ some dash

theorem IsOperand.ne_delimiter {argument : Text} (h : IsOperand argument) :
    argument ≠ [dash, dash] := by
  rintro rfl
  exact h rfl

/-- Arguments that do not start as flags do are plain. -/
theorem roles_of_operands {arguments : List Text} (h : ∀ a ∈ arguments, IsOperand a) :
    g.roles arguments = .ok (arguments.map fun a => (a, .plain)) := by
  induction arguments with
  | nil => rfl
  | cons a arguments ih =>
      obtain ⟨ha, harguments⟩ := List.forall_mem_cons.mp h
      have hrole : g.roleOf a = .ok .plain := if_pos ha
      rw [roles, if_neg ha.ne_delimiter, hrole, ih harguments]
      rfl

/-- Where there are no flags, the operands are all there is. -/
theorem takeAll_of_plain {p : Progress α} (hplain : p.items.any (·.2.isFlag) = false) (rounds : Nat) :
    g.takeAll rounds p = g.finish p := by
  cases rounds with
  | zero => rfl
  | succ rounds => rw [takeAll, if_pos (by rw [hplain]; rfl)]

/-- An operand takes the next plain argument. -/
theorem takeOperands_one {name : Text} {set : Text → α → Except Text α} {void : α → α}
    {operands : List (Operand α)} {p : Progress α} {a : Text} {rest : List Text}
    (hitems : p.items = (a :: rest).map fun a => (a, .plain)) (ha : IsOperand a) {settings : α}
    (hset : set a p.settings = .ok settings) :
    g.takeOperands (.one name set void :: operands) p =
      g.takeOperands operands
        { p with settings := settings, items := rest.map fun a => (a, .plain) } := by
  have hdrop : ∀ rest : List Text, (rest.map fun a => (a, (.plain : Role α))).dropWhile isDelimiter =
      rest.map fun a => (a, .plain) := by
    intro rest
    cases rest <;> rfl
  have hnext : nextPlain? p.items = some (a, rest.map fun a => (a, .plain)) := by
    rw [nextPlain?, hitems, hdrop]
    simp [hdrop]
  have hvoid : isVoid p.items a = false := by
    rw [isVoid, beq_eq_false_iff_ne.mpr ha.ne_delimiter]
    rfl
  rw [takeOperands]
  simp only [hnext, hvoid, Bool.false_eq_true, if_false, put, hset]
  rfl

end Grammar

namespace Invocation

open Grammar

/-- A number above zero is written without a dash in front. -/
theorem isOperand_of_integer {value : Text} {n : Int} (hn : 0 < n) (h : integer value = .ok n) :
    IsOperand value := by
  intro hdash
  obtain ⟨rest, rfl⟩ := List.head?_eq_some_iff.mp hdash
  have hspells := Reading.int_eq_ok_iff.mp (Stopping.mapError_eq_ok_iff.mp h)
  have hplain : Reading.plain dash = '-' := by decide
  obtain ⟨cs, hcs⟩ := Cut.trim_cons (show ¬ Reading.isPadding '-' by decide) (rest.map Reading.plain)
  rw [Reading.trimmed, List.map_cons, hplain, hcs] at hspells
  exact absurd hspells.nonpos_of_minus (Int.not_le.mpr hn)

/-- The line and the column of a hover are the numbers that are typed. -/
theorem readRequest_hover {file line column : Text} {n m : Int} (hfile : IsOperand file)
    (hn : 0 < n) (hline : integer line = .ok n) (hm : 0 < m) (hcolumn : integer column = .ok m) :
    readRequest "hover" [file, line, column] = .ok (⟨file, .hover (some n) (some m)⟩, []) := by
  have hlineOperand := isOperand_of_integer hn hline
  have hcolumnOperand := isOperand_of_integer hm hcolumn
  have hoperands : ∀ a ∈ [file, line, column], IsOperand a := by
    simp [hfile, hlineOperand, hcolumnOperand]
  have hread : hoverGrammar.read ([], none, none) [file, line, column] =
      .ok ((file, some n, some m), []) := by
    rw [Grammar.read, roles_of_operands hoperands]
    dsimp only
    rw [takeAll_of_plain rfl, finish]
    simp only [hoverGrammar]
    rw [takeOperands_one rfl hfile rfl, takeOperands_one rfl hlineOperand (by rw [hline]; rfl),
      takeOperands_one rfl hcolumnOperand (by rw [hcolumn]; rfl)]
    rfl
  rw [readRequest, if_pos rfl, hread]
  rfl

end Invocation

/-! ## The wire -/

/-- A place with these numbers. -/
def Position.ofInts (line character : Int) : Position := ⟨.int line, .int character⟩

/-- The frame asks what there is to say about the place. -/
def AsksAt (frame : Bytes) (place : Position) : Prop :=
  ∃ id params position,
    frame = Frame.encode (.obj (Connection.outgoing (some id) Method.hover.wireName params)) ∧
      params.member? "position" = some position ∧ place.IsOf position

/-- The response is about this range. -/
def Message.Spans (m : Members) (r : Range) : Prop :=
  ∃ v part, m.get? "result" = some v ∧ v.member? "range" = some part ∧ r.IsOf part

theorem Position.isOf_ofInts (line character : Int) :
    (ofInts line character).IsOf (ofInts line character).payload.encode where
  line := Layout.member?_ofJson "line" (by decide +kernel) (by simp) Json.noConfusion
  character := Layout.member?_ofJson "character" (by decide +kernel) (by simp [Text.ofString_inj])
    Json.noConfusion

namespace Client

open LanguageClient.Connection

variable {σ : Type} [Peer σ]

/-- What is asked of a place gives its numbers as they are. -/
theorem says?_hover {c : Client σ} {path : Text} {line column : Int} {method : Method} {params : Json}
    (h : c.says? (.hover path ⟨.int line, .int column⟩) = some (method, params)) :
    method = .hover ∧ ∃ position, params.member? "position" = some position ∧
      (Position.ofInts line column).IsOf position := by
  rw [says?] at h
  split at h
  · obtain ⟨payload, habout, heq⟩ := Option.map_eq_some_iff.mp h
    obtain ⟨rfl, rfl⟩ := Prod.mk.inj heq
    obtain ⟨uri, -, rfl⟩ := Option.map_eq_some_iff.mp habout
    have hposition : (Layout.hoverParams.build
        [("text_document", Layout.documentIdentifier.build [("uri", uri)]),
          ("position", (Position.ofInts line column).payload)]).encode.member? "position" =
        some (Position.ofInts line column).payload.encode :=
      Layout.member?_build_required "position" (by decide +kernel) (by simp [Text.ofString_inj]) rfl
    exact ⟨rfl, _, hposition, Position.isOf_ofInts line column⟩
  · cases h

/-- All that is written is one question about the place. -/
theorem asksAt_of_mem_writes {c : Client (Watched σ)} {path : Text} {line column : Int}
    {written : Bytes × WriteOutcome}
    (h : written ∈ (c.eventOf (.hover path ⟨.int line, .int column⟩)).writes) :
    AsksAt written.1 (.ofInts line column) := by
  have hhappens := c.eventOf_happens (.hover path ⟨.int line, .int column⟩)
  cases hspeaks : c.says? (.hover path ⟨.int line, .int column⟩) with
  | none =>
      rw [Event.writes_eq_nil hhappens hspeaks] at h
      exact absurd h List.not_mem_nil
  | some said =>
      obtain ⟨method, params⟩ := said
      obtain ⟨rfl, position, hposition, hplace⟩ := says?_hover hspeaks
      obtain ⟨outcome, hwrites⟩ := Event.writes_of_says? hhappens hspeaks
      rw [hwrites, List.mem_singleton] at h
      rw [h]
      exact ⟨_, _, position, rfl, hposition, hplace⟩

/-- A response is heeded: the hover in it is the result. -/
theorem result_of_answer {c : Client (Watched σ)} {path : Text} {place : BufferPosition} {m : Members}
    (hread : m ∈ (c.eventOf (.hover path place)).read) (hanswers : Answers (.int c.nextId) m)
    (hgood : Message.hasError m = false) {h : Option Hover} (hhover : Message.hoverAnswer m = .ok h) :
    (c.eventOf (.hover path place)).result = .ok (.hover h) := by
  have hhappens := c.eventOf_happens (.hover path place)
  cases hspeaks : c.says? (.hover path place) with
  | none =>
      have hnothing : (c.eventOf (.hover path place)).read = [] := by
        rw [Event.read, (hhappens.refused_inv rfl hspeaks).1, List.drop_length]
      rw [hnothing] at hread
      exact absurd hread List.not_mem_nil
  | some said =>
      have hasks : (c.eventOf (.hover path place)).asks? = some c.nextId := by
        refine if_pos ⟨rfl, ?_⟩
        show (c.says? (.hover path place)).isSome = true
        rw [hspeaks]
        rfl
      have hheeds := (Event.asksOnce_and_heeds hhappens hasks).2.answered m hread hanswers
      have haccepted : accepted (.ok m) = .ok m := by simp [accepted, hgood]
      rw [hheeds.1]
      show Call.conclusion (.hover path place) (.ok m) = _
      simp only [Call.conclusion, Call.verdict, haccepted, hhover]
      rfl

end Client

/-! ## The panel and the table -/

namespace Block

/-- A place in words, as a user types it. -/
def placeText (line column : Int) : Text := Text.ofInt line ++ Text.ofString ":" ++ Text.ofInt column

/-- The hover has the range that the response is about. -/
theorem range_of_spans {m : Members} {h : Hover} (hhover : Message.hoverAnswer m = .ok (some h))
    {r : Range} (hspans : Message.Spans m r) : h.range = some r := by
  obtain ⟨v, part, hresult, hpart, hr⟩ := hspans
  have hdecode : Hover.decode v = .ok h := by
    rw [Message.hoverAnswer, hresult] at hhover
    split at hhover
    · cases hhover
    · rename_i heq
      cases heq
      cases hhover
    · rename_i v' _ heq
      obtain rfl := Option.some.inj heq
      split at hhover
      · rename_i found hfound
        rw [hfound, Option.some.inj (Except.ok.inj hhover)]
      · cases hhover
  have hrange := (Hover.decodes.sound v h hdecode).1.range
  generalize h.range = range at hrange
  cases hrange with
  | absent hmember =>
      rw [hmember] at hpart
      cases hpart
  | null hmember =>
      obtain rfl := Option.some.inj (hmember.symm.trans hpart)
      obtain ⟨_, hstart, -⟩ := hr.start
      cases hstart
  | given hmember _ hx =>
      obtain rfl := Option.some.inj (hmember.symm.trans hpart)
      exact congrArg some (Except.ok.inj ((Range.read_eq_ok_iff.mpr hx).symm.trans
        (Range.read_eq_ok_iff.mpr hr)))

/-- A hover is shown at the range that the response is about. -/
theorem ofHover_of_spans {m : Members} {h : Hover} (hhover : Message.hoverAnswer m = .ok (some h))
    {r : Range} (hspans : Message.Spans m r) :
    ∃ panel, ofHover (HoverText.ofHover h) = .panel panel ∧
      panel.subtitle = some (stretch r.toBuffer) := by
  refine ⟨_, rfl, ?_⟩
  show (HoverText.ofHover h).range.map stretch = _
  rw [HoverText.range_ofHover, range_of_spans hhover hspans]
  rfl

/-- The numbers of a range are shown as they were sent. -/
theorem stretch_ofInts (a b c d : Int) :
    stretch (Range.toBuffer ⟨.ofInts a b, .ofInts c d⟩) =
      placeText a b ++ Text.ofString "-" ++ placeText c d := by
  simp only [Range.toBuffer, Position.toBuffer, Position.ofInts, stretch, place, Json.worded,
    Json.shown, placeText]

theorem fromOne_int {n : Int} {t : Text} (h : fromOne (.int n) = .ok t) : t = Text.ofInt (n + 1) := by
  rw [fromOne] at h
  split at h
  · exact (Except.ok.inj h).symm
  · cases h

/-- The numbers of a diagnostic are shown one higher. -/
theorem diagnosticRow_start {d : Diagnostic} {row : List Text} (h : diagnosticRow d = .ok row)
    {line character : Int} (hstart : d.range.start = .ofInts line character) :
    row.take 2 = [Text.ofInt (line + 1), Text.ofInt (character + 1)] := by
  rw [diagnosticRow, hstart] at h
  obtain ⟨first, hfirst, h⟩ := Stopping.bind_eq_ok_iff.mp h
  obtain ⟨second, hsecond, h⟩ := Stopping.bind_eq_ok_iff.mp h
  obtain ⟨severity, -, h⟩ := Stopping.bind_eq_ok_iff.mp h
  obtain ⟨source, -, h⟩ := Stopping.bind_eq_ok_iff.mp h
  obtain ⟨message, -, h⟩ := Stopping.bind_eq_ok_iff.mp h
  obtain rfl := Except.ok.inj h
  rw [fromOne_int hfirst, fromOne_int hsecond]
  rfl

/-- A table has one row for every diagnostic. -/
theorem rows_of_ofDiagnostics {d : Diagnostics} {path : Text} {t : Table}
    (h : ofDiagnostics (some d) path = .ok (.table t)) :
    List.Forall₂ (fun diagnostic row => diagnosticRow diagnostic = .ok row) d.diagnostics t.rows := by
  by_cases hempty : d.diagnostics = []
  · rw [ofDiagnostics_of_empty hempty] at h
    cases h
  · rw [ofDiagnostics_of_ne_nil hempty] at h
    obtain ⟨rows, hrows, htable⟩ := Stopping.map_eq_ok_iff.mp h
    cases htable
    exact Stopping.mapM_eq_ok_iff.mp hrows

end Block

/-! ## Numbers that are written differently -/

theorem Text.ofNat_injective : Function.Injective Text.ofNat := by
  intro n m h
  have hdigits : Nat.toDigits 10 n = Nat.toDigits 10 m :=
    List.map_injective_iff.mpr CodePoint.ofChar_injective h
  rw [← Reading.natOfDigits_toDigits n, hdigits, Reading.natOfDigits_toDigits]

/-- The line of a place can be told from its text. -/
theorem Block.placeText_ne {a b c d : Nat} (h : a ≠ c) : placeText a b ≠ placeText c d := by
  intro htext
  have hcolon : ∀ n : Nat, CodePoint.ofChar ':' ∉ Text.ofNat n := by
    intro n hmem
    exact absurd (isDigit_of_mem_toDigits (Text.ofChar_mem_ofChars.mp hmem)) (by decide)
  have hcut : ∀ a b : Nat, Cut.at? (CodePoint.ofChar ':') (placeText a b) =
      some (Text.ofNat a, Text.ofNat b) := by
    intro a b
    have hplace : placeText a b = Text.ofNat a ++ CodePoint.ofChar ':' :: Text.ofNat b := by
      simp only [placeText, List.append_assoc]
      rfl
    rw [hplace, Cut.at?_append_cons (hcolon a)]
  have hsame := (hcut a b).symm.trans ((congrArg _ htext).trans (hcut c d))
  exact h (Text.ofNat_injective (Prod.mk.inj (Option.some.inj hsame)).1)

/-! ## From the command line to the panel -/

namespace Workbench

open Invocation Grammar

variable {η σ : Type} [Peer σ] {s : Surroundings} {language path : Text} {line column : Int}
  {w : Workbench η (Watched σ)} {session : Session (Watched σ)}

/-- A hover that the server gives is shown. -/
theorem shown_of_result (hsession : w.fleet.session? language = some session) {h : Hover}
    (hresult : (session.client.eventOf (.hover path (placeOf line column))).result =
      .ok (.hover (some h))) :
    (hover s language path line column w).2.shown =
      w.shown ++ [Block.ofHover (HoverText.ofHover h)] := by
  obtain ⟨result, session', site', hran, hperform⟩ :=
    Fleet.perform_of_some s (Client.hover path (placeOf line column)) hsession
  have hfound : result = .ok (some h) := by
    have hmap : result.map Client.Answer.hover = .ok (.hover (some h)) := by
      rw [hran.result_eq]
      exact hresult
    rcases result with stop | found
    · cases hmap
    · cases hmap
      rfl
  unfold hover
  rw [Attempt.bind_of_ok ((withFleet_apply _ _).trans (by rw [hperform, hfound]; rfl))]
  rfl

theorem placeOf_eq (hline : 1 ≤ line) (hcolumn : 1 ≤ column) :
    placeOf line column = ⟨.int (line - 1), .int (column - 1)⟩ := by
  rw [placeOf, max_eq_right (by omega), max_eq_right (by omega)]

/-- What the numbers of a place are counted from, on their way from the command line to the console. -/
structure Counted (s : Surroundings) (language path : Text) (line column : Int)
    (w : Workbench η (Watched σ)) (session : Session (Watched σ)) : Prop where
  /-- They are those that the user types. -/
  typed : ∀ file first second, IsOperand file → integer first = .ok line →
    integer second = .ok column → readRequest "hover" [file, first, second] =
      .ok (⟨file, .hover (some line) (some column)⟩, [])
  /-- The server is asked if it can be. -/
  asked : session.client.isOpen → session.client.offersHover = true →
    session.client.uri? path ≠ none → ∃ written,
      (session.client.eventOf (.hover path (placeOf line column))).writes = [written]
  /-- It is asked about a line and a column that are one less. -/
  wire : ∀ written ∈ (session.client.eventOf (.hover path (placeOf line column))).writes,
    AsksAt written.1 (.ofInts (line - 1) (column - 1))
  /-- The range in its answer is shown in the very numbers of the answer. -/
  panel : ∀ m ∈ (session.client.eventOf (.hover path (placeOf line column))).read,
    Connection.Answers (.int session.client.nextId) m → Message.hasError m = false →
      ∀ h, Message.hoverAnswer m = .ok (some h) →
        ∀ r, Message.Spans m r →
          ∃ panel, (hover s language path line column w).2.shown = w.shown ++ [.panel panel] ∧
            panel.subtitle = some (Block.stretch r.toBuffer)
  /-- These are numbers as they stand in the answer, with nothing added to them. -/
  numbers : ∀ a b c d, Block.stretch (Range.toBuffer ⟨.ofInts a b, .ofInts c d⟩) =
    Block.placeText a b ++ Text.ofString "-" ++ Block.placeText c d
  /-- The numbers in a table of diagnostics are one more than the server's. -/
  table : ∀ d path t, Block.ofDiagnostics (some d) path = .ok (.table t) →
    List.Forall₂ (fun diagnostic row => ∀ a b, diagnostic.range.start = .ofInts a b →
      row.take 2 = [Text.ofInt (a + 1), Text.ofInt (b + 1)]) d.diagnostics t.rows
  /-- So the place that was asked about is not shown as it was typed. -/
  differ : Block.placeText (line - 1) (column - 1) ≠ Block.placeText line column

/-- **What a place is counted from.**  Whatever line and column the user types, as long as they are counted
from one: the server is asked about a place that is counted from zero, and a table of diagnostics shows
the server's places counted from one.  The range of a hover is shown as the server sent it, counted from
zero.  A server that gives back the place it was asked about is therefore shown at another place than the
user has typed. -/
theorem hover_places (s : Surroundings) (hline : 1 ≤ line) (hcolumn : 1 ≤ column)
    (hsession : w.fleet.session? language = some session) :
    Counted s language path line column w session where
  typed := fun _ _ _ hfile hfirst hsecond =>
    readRequest_hover hfile (by omega) hfirst (by omega) hsecond
  asked := by
    intro hopen hoffers huri
    obtain ⟨uri, huri⟩ := Option.ne_none_iff_exists'.mp huri
    have hspeaks : ∃ params, session.client.says? (.hover path (placeOf line column)) =
        some (.hover, params) := by
      rw [Client.says?, if_pos ⟨hopen, hoffers⟩, Client.aboutDocument, huri]
      exact ⟨_, rfl⟩
    obtain ⟨params, hspeaks⟩ := hspeaks
    obtain ⟨outcome, hwrites⟩ := Client.Event.writes_of_says?
      (session.client.eventOf_happens (.hover path (placeOf line column))) hspeaks
    exact ⟨_, hwrites⟩
  wire := by
    rw [placeOf_eq hline hcolumn]
    exact fun _ => Client.asksAt_of_mem_writes
  panel := by
    intro m hread hanswers hgood h hhover r hspans
    have hresult := Client.result_of_answer hread hanswers hgood hhover
    obtain ⟨panel, hblock, hsubtitle⟩ := Block.ofHover_of_spans hhover hspans
    exact ⟨panel, hblock ▸ shown_of_result hsession hresult, hsubtitle⟩
  numbers := Block.stretch_ofInts
  table := fun _ _ _ htable => (Block.rows_of_ofDiagnostics htable).imp
    fun _ _ hrow _ _ hstart => Block.diagnosticRow_start hrow hstart
  differ := by
    obtain ⟨a, rfl⟩ := Int.eq_ofNat_of_zero_le (show 0 ≤ line by omega)
    obtain ⟨b, rfl⟩ := Int.eq_ofNat_of_zero_le (show 0 ≤ column by omega)
    have ha : ((a : Int) - 1) = ((a - 1 : Nat) : Int) := by omega
    have hb : ((b : Int) - 1) = ((b - 1 : Nat) : Int) := by omega
    rw [ha, hb]
    exact Block.placeText_ne (by omega)

/-- A server that answers every question about a place with a hover over a stretch of line 3 that begins
at column 8, both counted from zero. -/
def echoing : Script where
  start := []
  rules := [("textDocument/hover", [[.reply (.object [("contents", .ofString "x"),
    ("range", (Range.mk (.ofInts 3 8) (.ofInts 3 12)).payload.encode)])]])]

/-- A client with an open session with this server. -/
def curious : Client (Watched ScriptedServer) :=
  { Client.attach (.of (ScriptedServer.start echoing)) 1 "/WS" .zero 1 with
    phase := .initialized
    isInitialized := true
    offersHover := true }

/-- A workbench with this client. -/
def desk : Workbench Unit (Watched ScriptedServer) where
  fleet := { (Fleet.ofConfig (.standard Text) "/WS" ⟨(), ⟨[]⟩, [], []⟩) with
    sessions := [("python", ⟨curious, none⟩)] }
  shown := []
  readings := 0

/-- Where the user asks. -/
def study : Surroundings := ⟨"/", "/home", 1, "2024-01-01", "12:00:00", []⟩

/-- The user asks about line 4 and column 9.  The server answers with the place that it was asked about,
and the console shows it as line 3 and column 8. -/
theorem hover_places_echoed :
    Counted study "python" "/WS/a.py" 4 9 desk ⟨curious, none⟩ ∧
      (hover study "python" "/WS/a.py" 4 9 desk).2.shown =
        [.panel ⟨"x", none, some "3:8-3:12", "green", (0, 1), true, false⟩] :=
  ⟨hover_places _ (by decide) (by decide) rfl, by decide +kernel⟩

end Workbench

end LanguageClient
