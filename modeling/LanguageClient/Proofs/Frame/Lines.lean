import LanguageClient.Proofs.Frame.Header
import LanguageClient.Proofs.Number.Integer

/-!
# A header block line by line

A block is made of lines of any bytes, and the first line that names the length decides, whatever
stands behind it:

```text
the value of this line            what is found
an integer that is no less than 0    this length
an integer below 0                   no length
anything else                        no length
```

Without such a line no length is found.  Main statement: `contentLength_tolerant`.
-/

namespace LanguageClient

/-! ## The case of a letter -/

theorem toNat_toLower (c : Char) :
    c.toLower.toNat = if 0x41 ≤ c.toNat ∧ c.toNat ≤ 0x5A then c.toNat + 0x20 else c.toNat := by
  have hupper : (c.val ≥ 'A'.val ∧ c.val ≤ 'Z'.val) ↔ 0x41 ≤ c.toNat ∧ c.toNat ≤ 0x5A :=
    and_congr UInt32.le_iff_toNat_le UInt32.le_iff_toNat_le
  delta Char.toLower
  split
  · rename_i h
    have hrange := hupper.mp h
    have hsum : (c.val + ('a'.val - 'A'.val)).toNat = (c.toNat + 0x20) % 0x100000000 :=
      UInt32.toNat_add ..
    rw [if_pos hrange, Char.toNat, hsum]
    omega
  · rename_i h
    rw [if_neg (mt hupper.mpr h)]

theorem CodePoint.asciiLower_ofChar (c : Char) : (ofChar c).asciiLower = ofChar c.toLower := by
  have hval : (ofChar c).val = c.toNat := rfl
  have hlower : (ofChar c.toLower).val = c.toLower.toNat := rfl
  have hext : ∀ a b : CodePoint, a.val = b.val → a = b := by
    rintro ⟨a, ha⟩ ⟨b, hb⟩ rfl
    rfl
  refine hext _ _ ?_
  rw [hlower, toNat_toLower, asciiLower, hval]
  by_cases h : 0x41 ≤ c.toNat ∧ c.toNat ≤ 0x5A
  · have hlt : c.toNat + 0x20 < 0x110000 := by omega
    simp [h, CodePoint.ofNat, hlt]
  · simp [h, hval]

namespace Frame

/-! ## Lines -/

/-- A line holds neither a carriage return nor a line feed. -/
def IsLine (line : Bytes) : Prop := ∀ b ∈ line, b ∉ lineEnd

instance (line : Bytes) : Decidable (IsLine line) := List.decidableBAll _ line

/-- The lines in one block. -/
def block (lines : List Bytes) : Bytes := List.intercalate lineEnd lines

/-- What stands before the first colon; without a colon it is the whole line. -/
def nameOf (line : Bytes) : Text :=
  (Utf8.decodeAscii line).takeWhile (fun c => c != CodePoint.ofChar ':')

/-- What stands behind the first colon. -/
def valueOf (line : Bytes) : Text :=
  ((Utf8.decodeAscii line).dropWhile (fun c => c != CodePoint.ofChar ':')).tail

/-- The line gives the length of the body. -/
def GivesLength (line : Bytes) : Prop := IsLengthName (nameOf line)

instance (line : Bytes) : Decidable (GivesLength line) := inferInstanceAs (Decidable (IsLengthName _))

/-- The value of the line spells the integer, with blanks around it. -/
def Announces (line : Bytes) (z : Int) : Prop :=
  ∃ left cs right, valueOf line = left ++ Text.ofChars cs ++ right ∧
    (∀ c ∈ left ++ right, c.isBlank) ∧ Reading.SpellsInteger cs z

theorem lengthField?_decodeAscii (line : Bytes) :
    lengthField? (Utf8.decodeAscii line) =
      if GivesLength line then some (valueOf line) else none := by
  rw [lengthField?_eq, field, Cut.at?_getD]
  rfl

theorem split_block {lines : List Bytes} (hne : lines ≠ []) (hlines : ∀ line ∈ lines, IsLine line) :
    Cut.split lineEnd (block lines) = lines :=
  Cut.split_intercalate lineEnd_ne_nil hne hlines

/-! ## The line that decides -/

section Value

variable {header : Bytes} {value : Text}

theorem contentLength_eq_ok_iff
    (hvalue : ((Cut.split lineEnd header).findSome? fun line =>
      lengthField? (Utf8.decodeAscii line)) = some value) {n : Nat} :
    contentLength header = .ok n ↔ Reading.int (Text.strip value) = .ok (n : Int) := by
  simp only [contentLength, hvalue]
  split
  · rename_i hint
    rw [hint]
    constructor
    · intro h
      rw [Except.ok.inj h]
      rfl
    · intro h
      rw [Int.ofNat.inj (Except.ok.inj h)]
  · rename_i hother
    exact ⟨fun h => (by cases h), fun h => (hother n h).elim⟩

theorem contentLength_eq_error_iff
    (hvalue : ((Cut.split lineEnd header).findSome? fun line =>
      lengthField? (Utf8.decodeAscii line)) = some value) :
    contentLength header = .error ⟨header⟩ ↔
      ∀ z, Reading.int (Text.strip value) = .ok z → z < 0 := by
  simp only [contentLength, hvalue]
  split
  · rename_i n hint
    refine ⟨fun h => (by cases h), fun h => ?_⟩
    exact absurd (h _ hint) (by simp)
  · rename_i hother
    refine ⟨fun _ z hz => ?_, fun _ => rfl⟩
    cases z with
    | ofNat n => exact (hother n hz).elim
    | negSucc n => exact Int.negSucc_lt_zero n

end Value

variable {before after : List Bytes} {line : Bytes}

theorem findSome?_of_none {lines : List Bytes} (hnone : ∀ line ∈ lines, ¬ GivesLength line) :
    (lines.findSome? fun line => lengthField? (Utf8.decodeAscii line)) = none := by
  rw [List.findSome?_eq_none_iff]
  intro line hline
  rw [lengthField?_decodeAscii, if_neg (hnone line hline)]

theorem findSome?_of_first (hbefore : ∀ line ∈ before, ¬ GivesLength line) (hline : GivesLength line) :
    ((before ++ line :: after).findSome? fun line => lengthField? (Utf8.decodeAscii line)) =
      some (valueOf line) := by
  rw [List.findSome?_append, findSome?_of_none hbefore, Option.none_or, List.findSome?_cons,
    lengthField?_decodeAscii, if_pos hline]

theorem contentLength_of_none {lines : List Bytes} (hlines : ∀ line ∈ lines, IsLine line)
    (hnone : ∀ line ∈ lines, ¬ GivesLength line) :
    contentLength (block lines) = .error ⟨block lines⟩ := by
  cases lines with
  | nil => rfl
  | cons first lines =>
      simp only [contentLength, split_block (List.cons_ne_nil _ _) hlines, findSome?_of_none hnone]

/-! ## The value -/

section Value

variable {value : Text}

/-- Bytes are read as ASCII, or as the character that stands for anything else. -/
def IsAsciiText (t : Text) : Prop := ∀ c ∈ t, c.val < 0x80 ∨ c.val = 0xFFFD

theorem isAsciiText_decodeAscii (bytes : Bytes) : IsAsciiText (Utf8.decodeAscii bytes) := by
  intro c hc
  obtain ⟨b, -, rfl⟩ := List.mem_map.mp hc
  have hbyte : b.toNat < 0x110000 := Nat.lt_trans b.toNat_lt (by decide)
  by_cases h : b < 0x80
  · have hlt : b.toNat < 0x80 := UInt8.lt_iff_toNat_lt.mp h
    simp [h, CodePoint.ofNat, hbyte, hlt]
  · right
    simp only [if_neg h]
    rfl

theorem isAsciiText_valueOf (line : Bytes) : IsAsciiText (valueOf line) := fun c hc =>
  isAsciiText_decodeAscii line c
    ((List.dropWhile_suffix _).subset (List.mem_of_mem_tail hc))

/-- Nothing but ASCII counts as a character of a number. -/
theorem plain_of_ascii {c : CodePoint} (hc : c.val < 0x80 ∨ c.val = 0xFFFD) :
    Reading.plain c = if c.val < 127 then c.toChar else '?' := by
  by_cases h : c.val < 127
  · rw [Reading.plain, if_pos h, if_pos h]
  · have hval : c.val = 127 ∨ c.val = 0xFFFD := by omega
    have hdelete : Reading.plain ⟨127, by decide⟩ = '?' := by decide
    have hother : Reading.plain ⟨0xFFFD, by decide⟩ = '?' := by decide +kernel
    rw [if_neg h]
    obtain ⟨val, hlt⟩ := c
    rcases hval with rfl | rfl
    · exact hdelete
    · exact hother

theorem ofChar_toChar {c : CodePoint} (h : c.val < 127) : CodePoint.ofChar c.toChar = c := by
  obtain ⟨val, hlt⟩ := c
  have hval := CodePoint.toNat_toChar (c := ⟨val, hlt⟩) (Nat.lt_trans h (by decide))
  simp only [CodePoint.ofChar, hval]

theorem eq_ofChar_of_plain {c : CodePoint} (hc : c.val < 0x80 ∨ c.val = 0xFFFD)
    (h : Reading.plain c ≠ '?') : c = CodePoint.ofChar (Reading.plain c) := by
  rw [plain_of_ascii hc] at h ⊢
  split at h
  · rename_i hlt
    rw [if_pos hlt, ofChar_toChar hlt]
  · exact absurd rfl h

theorem isBlank_of_isPadding {c : CodePoint} (hc : c.val < 0x80 ∨ c.val = 0xFFFD)
    (h : Reading.isPadding (Reading.plain c)) : c.isBlank := by
  have hne : Reading.plain c ≠ '?' := by
    intro heq
    rw [heq] at h
    exact absurd h (by decide)
  have hval : c.val = (Reading.plain c).toNat := congrArg CodePoint.val (eq_ofChar_of_plain hc hne)
  have hspace : (' ').toNat = 0x20 := rfl
  simp only [Reading.isPadding, Bool.or_eq_true, beq_iff_eq, Bool.and_eq_true, decide_eq_true_eq] at h
  simp only [CodePoint.isBlank, Ranges.contains, List.any_cons, Bool.or_eq_true, Bool.and_eq_true,
    decide_eq_true_eq]
  rcases h with h | h
  · rw [h, hspace] at hval
    omega
  · omega

theorem eq_ofChars_of_map_plain {t : Text} (ht : IsAsciiText t) {cs : List Char}
    (h : t.map Reading.plain = cs) (hcs : '?' ∉ cs) : t = Text.ofChars cs := by
  subst h
  rw [Text.ofChars, List.map_map]
  refine (List.map_id t).symm.trans (List.map_congr_left fun c hc => ?_)
  refine eq_ofChar_of_plain (ht c hc) fun heq => hcs ?_
  rw [← heq]
  exact List.mem_map_of_mem hc

/-- What is read as an integer spells it, and has blanks around it at most. -/
theorem exists_of_int_strip (hvalue : IsAsciiText value) {z : Int}
    (h : Reading.int (Text.strip value) = .ok z) :
    ∃ left cs right, value = left ++ Text.ofChars cs ++ right ∧
      (∀ c ∈ left ++ right, c.isBlank) ∧ Reading.SpellsInteger cs z := by
  have hspells := Reading.int_eq_ok_iff.mp h
  have hascii : IsAsciiText (Text.strip value) := fun c hc =>
    hvalue c ((Text.strip_isInfix value).subset hc)
  -- the blanks go in two steps, and the second one looks at the characters that count
  obtain ⟨front, back, hvalue_eq, hfront, hback⟩ := Cut.exists_eq_trim CodePoint.isBlank value
  obtain ⟨_, _, htrim, hleft, hright⟩ :=
    Cut.exists_eq_trim Reading.isPadding ((Text.strip value).map Reading.plain)
  obtain ⟨_, right, hstrip, hmap, rfl⟩ := List.map_eq_append_iff.mp htrim
  obtain ⟨left, middle, rfl, rfl, hcs⟩ := List.map_eq_append_iff.mp hmap
  have hmiddle : middle = Text.ofChars (Reading.trimmed (Text.strip value)) := by
    refine eq_ofChars_of_map_plain (fun c hc => hascii c ?_) hcs fun hmem => ?_
    · rw [hstrip]
      exact List.mem_append_left _ (List.mem_append_right _ hc)
    · exact absurd (hspells.isDigit_or _ hmem) (by decide)
  refine ⟨front ++ left, _, right ++ back, ?_, fun c hc => ?_, hspells⟩
  · calc value = front ++ Text.strip value ++ back := hvalue_eq
      _ = front ++ (left ++ middle ++ right) ++ back := by rw [hstrip]
      _ = front ++ left ++ Text.ofChars (Reading.trimmed (Text.strip value)) ++ (right ++ back) := by
        rw [hmiddle]
        simp only [List.append_assoc]
  · simp only [List.mem_append] at hc
    rcases hc with (hc | hc) | hc | hc
    · exact hfront c hc
    · refine isBlank_of_isPadding (hascii c ?_) (hleft _ (List.mem_map_of_mem hc))
      rw [hstrip]
      exact List.mem_append_left _ (List.mem_append_left _ hc)
    · refine isBlank_of_isPadding (hascii c ?_) (hright _ (List.mem_map_of_mem hc))
      rw [hstrip]
      exact List.mem_append_right _ hc
    · exact hback c hc

theorem not_isBlank_of_spells {cs : List Char} {z : Int} (h : Reading.SpellsInteger cs z) :
    ∀ c ∈ Text.ofChars cs, ¬ CodePoint.isBlank c := by
  intro c hc
  obtain ⟨d, hd, rfl⟩ := List.mem_map.mp hc
  have hsigns : ∀ c ∈ ['_', '+', '-'], ¬ (CodePoint.ofChar c).isBlank :=
    @of_decide_eq_true _ (List.decidableBAll _ _) rfl
  exact (h.isDigit_or d hd).elim not_isBlank_of_isDigit (hsigns d)

theorem strip_between {left right : Text} (hblank : ∀ c ∈ left ++ right, c.isBlank) {middle : Text}
    (hmiddle : ∀ c ∈ middle, ¬ CodePoint.isBlank c) : Text.strip (left ++ middle ++ right) = middle := by
  rw [Text.strip, Cut.trim_append_right fun c hc => hblank c (List.mem_append_right _ hc),
    Cut.trim_append_left fun c hc => hblank c (List.mem_append_left _ hc),
    Cut.trim_of_forall_not hmiddle]

theorem int_strip_valueOf_iff {z : Int} :
    Reading.int (Text.strip (valueOf line)) = .ok z ↔ Announces line z := by
  refine ⟨exists_of_int_strip (isAsciiText_valueOf line), ?_⟩
  rintro ⟨left, cs, right, hvalue, hblank, hspells⟩
  rw [hvalue, strip_between hblank (not_isBlank_of_spells hspells), hspells.int_ofChars]

end Value

/-! ## The line as it may be written -/

section Written

/-- Nothing but spaces and tabs. -/
def IsSpaces (cs : List Char) : Prop := ∀ c ∈ cs, c = ' ' ∨ c = '\t'

instance (cs : List Char) : Decidable (IsSpaces cs) := List.decidableBAll _ cs

/-- The name of the field in any case. -/
def IsCasing (name : List Char) : Prop := name.map Char.toLower = "content-length".toList

instance (name : List Char) : Decidable (IsCasing name) := inferInstanceAs (Decidable (_ = _))

/-- A line that announces the length `n`, with blanks around the name and around the number. -/
def writtenLine (left name right inner : List Char) (n : Nat) (outer : List Char) : Bytes :=
  Utf8.ofChars (left ++ name ++ right ++ ':' :: (inner ++ Nat.toDigits 10 n ++ outer))

variable {left name right inner outer : List Char} {n : Nat}

theorem isPrintedAscii_of_casing (hname : IsCasing name) :
    ∀ c ∈ name, IsPrintedAscii c ∧ c ≠ ' ' ∧ c ≠ ':' := by
  intro c hc
  have hlower : c.toLower ∈ "content-length".toList := hname ▸ List.mem_map_of_mem hc
  have hletters : ∀ d ∈ "content-length".toList,
      d.toNat = 0x2D ∨ 0x61 ≤ d.toNat ∧ d.toNat ≤ 0x7A :=
    @of_decide_eq_true _ (List.decidableBAll _ _) rfl
  have hrange := hletters _ hlower
  rw [toNat_toLower] at hrange
  have hnot : c.toNat ≠ 0x20 ∧ c.toNat ≠ 0x3A ∧ 0x20 ≤ c.toNat ∧ c.toNat < 0x7F := by
    split at hrange <;> omega
  refine ⟨⟨hnot.2.2.1, hnot.2.2.2⟩, ?_, ?_⟩
  · rintro rfl
    exact hnot.1 rfl
  · rintro rfl
    exact hnot.2.1 rfl

theorem printed_or_tab_of_spaces {cs : List Char} (h : IsSpaces cs) :
    ∀ c ∈ cs, IsPrintedAscii c ∨ c = '\t' := by
  intro c hc
  rcases h c hc with rfl | rfl
  · exact .inl (by decide)
  · exact .inr rfl

theorem isBlank_of_spaces {cs : List Char} (h : IsSpaces cs) :
    ∀ c ∈ Text.ofChars cs, CodePoint.isBlank c := by
  intro c hc
  obtain ⟨d, hd, rfl⟩ := List.mem_map.mp hc
  rcases h d hd with rfl | rfl <;> decide

variable (hspaces : IsSpaces (left ++ right ++ inner ++ outer)) (hname : IsCasing name)
include hspaces hname

theorem printed_or_tab :
    ∀ c ∈ left ++ name ++ right ++ ':' :: (inner ++ Nat.toDigits 10 n ++ outer),
      IsPrintedAscii c ∨ c = '\t' := by
  intro c hc
  have hspaces := printed_or_tab_of_spaces hspaces c
  simp only [List.mem_append, List.mem_cons] at hc hspaces
  rcases hc with ((hc | hc) | hc) | rfl | (hc | hc) | hc
  · exact hspaces (.inl (.inl (.inl hc)))
  · exact .inl (isPrintedAscii_of_casing hname c hc).1
  · exact hspaces (.inl (.inl (.inr hc)))
  · exact .inl (by decide)
  · exact hspaces (.inl (.inr hc))
  · exact .inl (.of_isDigit (isDigit_of_mem_toDigits hc))
  · exact hspaces (.inr hc)

theorem toNat_lt_of_written :
    ∀ c ∈ left ++ name ++ right ++ ':' :: (inner ++ Nat.toDigits 10 n ++ outer), c.toNat < 0x80 := by
  intro c hc
  rcases printed_or_tab hspaces hname c hc with hc | rfl
  · exact Nat.lt_trans hc.2 (by decide)
  · decide

theorem isLine_writtenLine : IsLine (writtenLine left name right inner n outer) := by
  intro b hb
  obtain ⟨c, hc, hbyte⟩ := Utf8.exists_of_mem_ofChars (toNat_lt_of_written hspaces hname) hb
  have hnot : c.toNat ≠ 0x0D ∧ c.toNat ≠ 0x0A := by
    rcases printed_or_tab hspaces hname c hc with ⟨hlow, -⟩ | rfl
    · omega
    · decide
  simp only [lineEnd, List.mem_cons, List.not_mem_nil, or_false, not_or]
  constructor
  · rintro rfl
    exact hnot.1 hbyte.symm
  · rintro rfl
    exact hnot.2 hbyte.symm

theorem decodeAscii_writtenLine :
    Utf8.decodeAscii (writtenLine left name right inner n outer) =
      (Text.ofChars left ++ Text.ofChars name ++ Text.ofChars right) ++
        CodePoint.ofChar ':' :: (Text.ofChars inner ++ Text.ofChars (Nat.toDigits 10 n) ++
          Text.ofChars outer) := by
  rw [writtenLine, Utf8.decodeAscii_ofChars_of_lt (toNat_lt_of_written hspaces hname)]
  simp only [Text.ofChars, List.map_append, List.map_cons]

theorem ne_colon_of_named :
    ∀ c ∈ Text.ofChars left ++ Text.ofChars name ++ Text.ofChars right,
      (c != CodePoint.ofChar ':') = true := by
  intro c hc
  have hblank : ∀ c ∈ Text.ofChars (left ++ right ++ inner ++ outer), CodePoint.isBlank c :=
    isBlank_of_spaces hspaces
  simp only [Text.ofChars_append, List.mem_append] at hc hblank
  have hcolon : ¬ CodePoint.isBlank (CodePoint.ofChar ':') := by decide
  rw [bne_iff_ne]
  rintro rfl
  rcases hc with (hc | hc) | hc
  · exact hcolon (hblank _ (.inl (.inl (.inl hc))))
  · exact (isPrintedAscii_of_casing hname ':' (Text.ofChar_mem_ofChars.mp hc)).2.2 rfl
  · exact hcolon (hblank _ (.inl (.inl (.inr hc))))

theorem nameOf_writtenLine :
    nameOf (writtenLine left name right inner n outer) =
      Text.ofChars left ++ Text.ofChars name ++ Text.ofChars right := by
  rw [nameOf, decodeAscii_writtenLine hspaces hname,
    List.takeWhile_append_of_pos (ne_colon_of_named hspaces hname)]
  simp

theorem valueOf_writtenLine :
    valueOf (writtenLine left name right inner n outer) =
      Text.ofChars inner ++ Text.ofChars (Nat.toDigits 10 n) ++ Text.ofChars outer := by
  rw [valueOf, decodeAscii_writtenLine hspaces hname,
    List.dropWhile_append_of_pos (ne_colon_of_named hspaces hname)]
  simp

theorem givesLength_writtenLine : GivesLength (writtenLine left name right inner n outer) := by
  have hblank : ∀ c ∈ Text.ofChars left ++ Text.ofChars right, CodePoint.isBlank c := by
    rw [← Text.ofChars_append]
    refine isBlank_of_spaces fun c hc => hspaces c ?_
    exact List.mem_append_left _ (List.mem_append_left _ hc)
  have hmiddle : ∀ c ∈ Text.ofChars name, ¬ CodePoint.isBlank c := by
    intro c hc
    obtain ⟨d, hd, rfl⟩ := List.mem_map.mp hc
    have hprinted := isPrintedAscii_of_casing hname d hd
    rw [CodePoint.isBlank_ofChar hprinted.1]
    exact hprinted.2.1
  have hlower : (Text.ofChars name).map CodePoint.asciiLower = Text.ofChars (name.map Char.toLower) := by
    simp only [Text.ofChars, List.map_map]
    exact List.map_congr_left fun c _ => CodePoint.asciiLower_ofChar c
  rw [GivesLength, nameOf_writtenLine hspaces hname, IsLengthName, strip_between hblank hmiddle, hlower,
    hname]
  rfl

theorem announces_writtenLine (hn : Reading.IsShort n) :
    Announces (writtenLine left name right inner n outer) n := by
  refine ⟨_, _, _, valueOf_writtenLine hspaces hname, ?_, Reading.spellsInteger_toDigits hn⟩
  rw [← Text.ofChars_append]
  refine isBlank_of_spaces fun c hc => hspaces c ?_
  rcases List.mem_append.mp hc with hc | hc
  · exact List.mem_append_left _ (List.mem_append_right _ hc)
  · exact List.mem_append_right _ hc

end Written

/-! ## The block -/

section Block

variable (hlines : ∀ l ∈ before ++ line :: after, IsLine l)
  (hbefore : ∀ l ∈ before, ¬ GivesLength l) (hline : GivesLength line)
include hlines hbefore hline

theorem findSome?_block :
    ((Cut.split lineEnd (block (before ++ line :: after))).findSome? fun line =>
      lengthField? (Utf8.decodeAscii line)) = some (valueOf line) := by
  rw [split_block (by simp) hlines, findSome?_of_first hbefore hline]

theorem contentLength_block_eq_ok_iff {n : Nat} :
    contentLength (block (before ++ line :: after)) = .ok n ↔ Announces line n := by
  rw [contentLength_eq_ok_iff (findSome?_block hlines hbefore hline), int_strip_valueOf_iff]

theorem contentLength_block_eq_error_iff :
    contentLength (block (before ++ line :: after)) = .error ⟨block (before ++ line :: after)⟩ ↔
      ∀ z, Announces line z → z < 0 := by
  simp only [contentLength_eq_error_iff (findSome?_block hlines hbefore hline), int_strip_valueOf_iff]

end Block

/-- **What a header block announces.**  Lines that do not name the length, of any bytes, stand in front,
and any lines follow.  The length is found with its name in any case, and with spaces and tabs around the
name and the number; the first line that names it decides, also when its value is below 0 or no integer;
and without such a line there is none. -/
theorem contentLength_tolerant (hbefore : ∀ line ∈ before, IsLine line ∧ ¬ GivesLength line)
    (hafter : ∀ line ∈ after, IsLine line) :
    (∀ (left name right inner outer : List Char) (n : Nat),
      IsSpaces (left ++ right ++ inner ++ outer) → IsCasing name → Reading.IsShort n →
        contentLength (block (before ++ writtenLine left name right inner n outer :: after)) = .ok n) ∧
      (∀ line, IsLine line → GivesLength line →
        (∀ n, contentLength (block (before ++ line :: after)) = .ok n ↔ Announces line n) ∧
          (contentLength (block (before ++ line :: after)) =
            .error ⟨block (before ++ line :: after)⟩ ↔ ∀ z, Announces line z → z < 0)) ∧
      contentLength (block before) = .error ⟨block before⟩ := by
  have hlines : ∀ {line : Bytes}, IsLine line → ∀ l ∈ before ++ line :: after, IsLine l := by
    intro line hline l hl
    rcases List.mem_append.mp hl with hl | hl
    · exact (hbefore l hl).1
    · rcases List.mem_cons.mp hl with rfl | hl
      · exact hline
      · exact hafter l hl
  have hnot : ∀ line ∈ before, ¬ GivesLength line := fun line hline => (hbefore line hline).2
  refine ⟨fun left name right inner outer n hspaces hname hn => ?_, fun line hline hgives => ?_, ?_⟩
  · exact (contentLength_block_eq_ok_iff (hlines (isLine_writtenLine hspaces hname)) hnot
      (givesLength_writtenLine hspaces hname)).mpr (announces_writtenLine hspaces hname hn)
  · exact ⟨fun _ => contentLength_block_eq_ok_iff (hlines hline) hnot hgives,
      contentLength_block_eq_error_iff (hlines hline) hnot hgives⟩
  · exact contentLength_of_none (fun line hline => (hbefore line hline).1) hnot

/-- The length is 12, in spite of the line in front and the length behind it. -/
theorem contentLength_tolerant_between :
    let front := [Utf8.ofChars "Content-Type: a:b".toList, [0x43, 0xFF, 0x3A, 0x00]]
    let back := [Utf8.ofChars "Content-Length: 7".toList]
    (∀ line ∈ front, IsLine line ∧ ¬ GivesLength line) ∧ (∀ line ∈ back, IsLine line) ∧
      contentLength (block (front ++
        writtenLine ['\t'] "cONTENT-length".toList [' '] ['\t', ' '] 12 [' '] :: back)) = .ok 12 := by
  have hfront : ∀ line ∈ [Utf8.ofChars "Content-Type: a:b".toList, [0x43, 0xFF, 0x3A, 0x00]],
      IsLine line ∧ ¬ GivesLength line := by decide +kernel
  have hback : ∀ line ∈ [Utf8.ofChars "Content-Length: 7".toList], IsLine line := by decide +kernel
  refine ⟨hfront, hback, ?_⟩
  exact (contentLength_tolerant hfront hback).1 _ _ _ _ _ 12 (by decide) (by decide) (by decide)

end Frame

end LanguageClient
