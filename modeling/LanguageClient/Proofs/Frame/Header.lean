import LanguageClient.Frame.Header
import LanguageClient.Proofs.Number.Reading

/-!
# Announcing a length

The line that `Frame.encode` writes is read as the length it was written for, also when other
output stands in front of it, as long as this output does not spell the name of the field itself
(`NamesLength`).  What decides is the piece of the output that is on the same line:

```text
blank            the name is still the name of the field        the length is read
anything else    the name is longer, or ends at another colon   no length is found
```

In the same way a line that starts with the text of a document announces nothing.
-/

namespace LanguageClient

/-! ## Blanks -/

theorem CodePoint.isBlank_ofChar {c : Char} (h : IsPrintedAscii c) :
    (CodePoint.ofChar c).isBlank = true ↔ c = ' ' := by
  have hval : (CodePoint.ofChar c).val = c.toNat := rfl
  have hspace : c = ' ' ↔ c.toNat = 0x20 := by
    constructor
    · rintro rfl
      rfl
    · intro hc
      rw [← Char.ofNat_toNat c, hc]
  obtain ⟨hlow, hhigh⟩ := h
  simp only [isBlank, Ranges.contains, List.any_cons, List.any_nil, hval, Bool.or_eq_true,
    Bool.and_eq_true, decide_eq_true_eq, Bool.false_eq_true, or_false, hspace]
  omega

theorem not_isBlank_of_isDigit {c : Char} (h : c.isDigit) : ¬ (CodePoint.ofChar c).isBlank := by
  rw [CodePoint.isBlank_ofChar (IsPrintedAscii.of_isDigit h)]
  rintro rfl
  simp at h

namespace Text

theorem ofChars_append (a b : List Char) : ofChars (a ++ b) = ofChars a ++ ofChars b :=
  List.map_append

theorem strip_isInfix (t : Text) : strip t <:+: t := by
  have hback : Cut.dropTrailing CodePoint.isBlank (t.dropWhile CodePoint.isBlank) <+:
      t.dropWhile CodePoint.isBlank := by
    rw [Cut.dropTrailing, ← List.reverse_suffix, List.reverse_reverse]
    exact List.dropWhile_suffix _
  exact hback.isInfix.trans (List.dropWhile_suffix _).isInfix

/-- A text that starts with no blank still starts in the same way without the blanks. -/
theorem strip_cons {c : CodePoint} (hc : ¬ c.isBlank) (t : Text) : ∃ s, strip (c :: t) = c :: s :=
  Cut.trim_cons hc t

end Text

namespace Frame

/-! ## The line -/

/-- The name of the field that gives the length, as it is written. -/
def lengthName : List Char := "Content-Length".toList

/-- The line that announces a body of `n` bytes, as it is written. -/
def lengthLine (n : Nat) : List Char := lengthName ++ ':' :: ' ' :: Nat.toDigits 10 n

theorem onOneLine_lengthLine (n : Nat) : OnOneLine (lengthLine n) := by
  have hname : OnOneLine lengthName := by decide
  have hdigits := OnOneLine.toDigits n
  simp only [lengthLine, OnOneLine.append_iff, OnOneLine.cons_iff]
  exact ⟨hname, by decide, by decide, hdigits⟩

/-! ## Fields -/

/-- The name and the value of a field: what stands around the first colon. -/
def field (line : Text) : Text × Text := (Cut.at? (CodePoint.ofChar ':') line).getD (line, [])

theorem field_append_cons {name : Text} (h : CodePoint.ofChar ':' ∉ name) (value : Text) :
    field (name ++ CodePoint.ofChar ':' :: value) = (name, value) := by
  simp [field, Cut.at?_append_cons h]

theorem field_of_not_mem {line : Text} (h : CodePoint.ofChar ':' ∉ line) :
    field line = (line, []) := by
  simp [field, Cut.at?_of_not_mem h]

theorem field_isPrefix (line : Text) : (field line).1 <+: line := by
  by_cases h : CodePoint.ofChar ':' ∈ line
  · obtain ⟨name, value, rfl, hnot⟩ := List.eq_append_cons_of_mem h
    rw [field_append_cons hnot]
    exact List.prefix_append _ _
  · rw [field_of_not_mem h]

/-- The name is that of the field that gives the length: blanks and case do not matter. -/
def IsLengthName (name : Text) : Prop :=
  (Text.strip name).map CodePoint.asciiLower = Text.ofString "content-length"

instance (name : Text) : Decidable (IsLengthName name) := inferInstanceAs (Decidable (_ = _))

theorem lengthField?_eq (line : Text) :
    lengthField? line = if IsLengthName (field line).1 then some (field line).2 else none := rfl

/-- Some part of the text spells the name of the field, in any case. -/
def NamesLength (t : Text) : Prop :=
  ∃ part, part <:+: t ∧ part.map CodePoint.asciiLower = Text.ofString "content-length"

theorem NamesLength.mono {s t : Text} (h : NamesLength s) (hst : s <:+: t) : NamesLength t := by
  obtain ⟨part, hpart, hname⟩ := h
  exact ⟨part, hpart.trans hst, hname⟩

theorem IsLengthName.namesLength {name : Text} (h : IsLengthName name) : NamesLength name :=
  ⟨Text.strip name, Text.strip_isInfix name, h⟩

theorem lengthField?_of_free {line : Text} (h : ¬ NamesLength line) : lengthField? line = none := by
  rw [lengthField?_eq, if_neg]
  exact fun hname => h (hname.namesLength.mono (field_isPrefix line).isInfix)

/-- A line that starts with another character than the name gives no length. -/
theorem lengthField?_cons {c : CodePoint} (hblank : ¬ c.isBlank) (hcolon : c ≠ CodePoint.ofChar ':')
    (hc : c.asciiLower ≠ CodePoint.ofChar 'c') (line : Text) : lengthField? (c :: line) = none := by
  rw [lengthField?_eq, if_neg]
  obtain ⟨name, hname⟩ : ∃ name, (field (c :: line)).1 = c :: name := by
    by_cases h : CodePoint.ofChar ':' ∈ c :: line
    · obtain ⟨name, value, heq, hnot⟩ := List.eq_append_cons_of_mem h
      rw [heq, field_append_cons hnot]
      cases name with
      | nil => exact absurd (List.cons_eq_cons.mp heq).1 hcolon
      | cons d name =>
          obtain ⟨rfl, -⟩ := List.cons_eq_cons.mp heq
          exact ⟨name, rfl⟩
    · rw [field_of_not_mem h]
      exact ⟨line, rfl⟩
  obtain ⟨s, hs⟩ := Text.strip_cons hblank name
  intro hlength
  rw [IsLengthName, hname, hs, List.map_cons] at hlength
  exact hc (List.cons_eq_cons.mp hlength).1

/-! ## The line behind other output -/

section Behind

variable {t : Text} {n : Nat}

/-- The last character of the name keeps the blanks out. -/
theorem strip_append_lengthName (hblank : ∀ c ∈ t, c.isBlank) :
    Text.strip (t ++ Text.ofChars lengthName) = Text.ofChars lengthName := by
  rw [Text.strip, Cut.trim_append_left hblank]
  exact Cut.trim_of_not (by decide) _ (by decide)

theorem ofChars_lengthName_eq :
    Text.ofChars lengthName = Text.ofChars "Content-Lengt".toList ++ [CodePoint.ofChar 'h'] := by
  decide

theorem length_lengthName :
    (Text.ofChars lengthName).length = (Text.ofString "content-length").length := by
  decide

theorem not_mem_lengthName : CodePoint.ofChar ':' ∉ Text.ofChars lengthName := by decide

theorem ofChars_lengthLine (n : Nat) :
    Text.ofChars (lengthLine n) = Text.ofChars lengthName ++
      CodePoint.ofChar ':' :: CodePoint.ofChar ' ' :: Text.ofChars (Nat.toDigits 10 n) :=
  Text.ofChars_append _ _

theorem lengthField?_of_blank (hblank : ∀ c ∈ t, c.isBlank) :
    lengthField? (t ++ Text.ofChars (lengthLine n)) =
      some (CodePoint.ofChar ' ' :: Text.ofChars (Nat.toDigits 10 n)) := by
  have hcolon : CodePoint.ofChar ':' ∉ t ++ Text.ofChars lengthName := by
    intro h
    rcases List.mem_append.mp h with h | h
    · exact absurd (hblank _ h) (by decide)
    · exact not_mem_lengthName h
  have hname : IsLengthName (t ++ Text.ofChars lengthName) := by
    rw [IsLengthName, strip_append_lengthName hblank]
    decide
  rw [lengthField?_eq, ofChars_lengthLine, ← List.append_assoc, field_append_cons hcolon,
    if_pos hname]

theorem exists_not_blank (hblank : ¬ ∀ c ∈ t, c.isBlank) :
    ∃ blanks c s, t = blanks ++ c :: s ∧ (∀ b ∈ blanks, CodePoint.isBlank b) ∧ ¬ c.isBlank := by
  have hne : t.dropWhile CodePoint.isBlank ≠ [] := by
    rwa [Ne, List.dropWhile_eq_nil_iff]
  obtain ⟨c, s, hs⟩ := List.exists_cons_of_ne_nil hne
  refine ⟨t.takeWhile CodePoint.isBlank, c, s, ?_, fun b hb => List.mem_takeWhile_imp hb, ?_⟩
  · rw [← hs, List.takeWhile_append_dropWhile]
  · have := List.head_dropWhile_not CodePoint.isBlank (l := t) hne
    simpa [hs] using this

/-- The name behind anything but blanks is longer than that of the field. -/
theorem not_isLengthName_append (hblank : ¬ ∀ c ∈ t, c.isBlank) :
    ¬ IsLengthName (t ++ Text.ofChars lengthName) := by
  obtain ⟨blanks, c, s, rfl, hblanks, hc⟩ := exists_not_blank hblank
  obtain ⟨front, hfront⟩ : ∃ front, Text.ofChars lengthName = front ++ [CodePoint.ofChar 'h'] :=
    ⟨_, ofChars_lengthName_eq⟩
  have hstrip : Text.strip (blanks ++ c :: s ++ Text.ofChars lengthName) =
      c :: (s ++ Text.ofChars lengthName) := by
    rw [List.append_assoc, Text.strip, Cut.trim_append_left hblanks, List.cons_append]
    refine Cut.trim_of_not hc _ ?_
    -- the last letter of the name is no blank, so nothing is lost at the end either
    have hlast : (c :: (s ++ Text.ofChars lengthName)).getLast (by simp) =
        CodePoint.ofChar 'h' := by
      simp [hfront]
    rw [hlast]
    decide
  intro hname
  have hlength := congrArg List.length hname
  rw [hstrip, List.length_map, List.length_cons, List.length_append, length_lengthName] at hlength
  omega

/-- Behind anything else that does not spell the name the line gives no length. -/
theorem lengthField?_of_not_blank (hfree : ¬ NamesLength t) (hblank : ¬ ∀ c ∈ t, c.isBlank) :
    lengthField? (t ++ Text.ofChars (lengthLine n)) = none := by
  have hname : ¬ IsLengthName (field (t ++ Text.ofChars (lengthLine n))).1 := by
    by_cases hcolon : CodePoint.ofChar ':' ∈ t
    · -- the name ends inside the other output
      obtain ⟨name, value, rfl, hnot⟩ := List.eq_append_cons_of_mem hcolon
      rw [List.append_assoc, List.cons_append, field_append_cons hnot]
      exact fun hname => hfree (hname.namesLength.mono (List.prefix_append _ _).isInfix)
    · -- the name goes on to the colon of the line itself
      have hnot : CodePoint.ofChar ':' ∉ t ++ Text.ofChars lengthName := by
        rw [List.mem_append]
        exact fun h => h.elim hcolon not_mem_lengthName
      rw [ofChars_lengthLine, ← List.append_assoc, field_append_cons hnot]
      exact not_isLengthName_append hblank
  rw [lengthField?_eq, if_neg hname]

end Behind

/-! ## The block -/

theorem lineEnd_ne_nil : lineEnd ≠ [] := by decide

/-- The piece of the output behind its last line end. -/
def openLine (other : Bytes) : Bytes :=
  (Cut.split lineEnd other).getLast (Cut.split_ne_nil lineEnd_ne_nil other)

theorem openLine_isInfix (other : Bytes) : openLine other <:+: other :=
  Cut.isInfix_of_mem_split lineEnd_ne_nil (List.getLast_mem _)

theorem decodeAscii_isInfix {part other : Bytes} (h : part <:+: other) :
    Utf8.decodeAscii part <:+: Utf8.decodeAscii other := h.map _

theorem not_mem_lineEnd {line : List Char} (h : OnOneLine line) :
    ∀ b ∈ Utf8.ofChars line, b ∉ lineEnd :=
  fun _ hb => Utf8.not_mem_lineBreaks h hb (List.Subset.refl _)

/-- The lines of the other output are passed over, and its open line becomes the first part of
the line that is written behind it. -/
theorem findSome?_lengthField? {other : Bytes} (hfree : ¬ NamesLength (Utf8.decodeAscii other))
    {line : List Char} (hline : OnOneLine line) :
    ((Cut.split lineEnd (other ++ Utf8.ofChars line)).findSome? fun piece =>
      lengthField? (Utf8.decodeAscii piece)) =
        lengthField? (Utf8.decodeAscii (openLine other) ++ Text.ofChars line) := by
  have hpassed : ((Cut.split lineEnd other).dropLast.findSome? fun piece =>
      lengthField? (Utf8.decodeAscii piece)) = none := by
    rw [List.findSome?_eq_none_iff]
    intro piece hpiece
    have hinfix := Cut.isInfix_of_mem_split lineEnd_ne_nil (List.mem_of_mem_dropLast hpiece)
    exact lengthField?_of_free fun h => hfree (h.mono (decodeAscii_isInfix hinfix))
  rw [Cut.split_append lineEnd_ne_nil (not_mem_lineEnd hline), List.findSome?_append, hpassed,
    Option.none_or, List.findSome?_singleton, Utf8.decodeAscii_append,
    Utf8.decodeAscii_ofChars hline, openLine]

theorem strip_lengthValue (n : Nat) :
    Text.strip (CodePoint.ofChar ' ' :: Text.ofChars (Nat.toDigits 10 n)) =
      Text.ofChars (Nat.toDigits 10 n) := by
  have hdigits : ∀ c ∈ Text.ofChars (Nat.toDigits 10 n), ¬ CodePoint.isBlank c := by
    intro c hc
    obtain ⟨d, hd, rfl⟩ := List.mem_map.mp hc
    exact not_isBlank_of_isDigit (isDigit_of_mem_toDigits hd)
  have hblank : ∀ c ∈ [CodePoint.ofChar ' '], CodePoint.isBlank c := by decide
  rw [Text.strip, ← List.singleton_append, Cut.trim_append_left hblank,
    Cut.trim_of_forall_not hdigits]

variable {other : Bytes} {n : Nat}

/-- The announced length is found behind other output whose open line is blank. -/
theorem contentLength_of_blank (hfree : ¬ NamesLength (Utf8.decodeAscii other))
    (hblank : ∀ c ∈ Utf8.decodeAscii (openLine other), CodePoint.isBlank c)
    (hn : Reading.IsShort n) :
    contentLength (other ++ Utf8.ofChars (lengthLine n)) = .ok n := by
  rw [contentLength, findSome?_lengthField? hfree (onOneLine_lengthLine n),
    lengthField?_of_blank hblank]
  simp only [strip_lengthValue, Reading.int_toDigits hn]

theorem contentLength_of_not_blank (hfree : ¬ NamesLength (Utf8.decodeAscii other))
    (hblank : ¬ ∀ c ∈ Utf8.decodeAscii (openLine other), CodePoint.isBlank c) :
    contentLength (other ++ Utf8.ofChars (lengthLine n)) =
      .error ⟨other ++ Utf8.ofChars (lengthLine n)⟩ := by
  have hopen : ¬ NamesLength (Utf8.decodeAscii (openLine other)) :=
    fun h => hfree (h.mono (decodeAscii_isInfix (openLine_isInfix other)))
  rw [contentLength, findSome?_lengthField? hfree (onOneLine_lengthLine n),
    lengthField?_of_not_blank hopen hblank]

theorem not_namesLength_nil : ¬ NamesLength [] := by
  rintro ⟨part, hpart, hname⟩
  obtain rfl := List.infix_nil.mp hpart
  exact absurd hname (by decide)

/-- The line that announces a length is read as this length. -/
theorem contentLength_lengthLine (hn : Reading.IsShort n) :
    contentLength (Utf8.ofChars (lengthLine n)) = .ok n :=
  @contentLength_of_blank [] n not_namesLength_nil (by decide) hn

/-- A line that starts with an opening brace gives no length, whatever follows it. -/
theorem contentLength_brace {line : List Char} (hline : OnOneLine ('\x7b' :: line)) :
    contentLength (Utf8.ofChars ('\x7b' :: line)) =
      .error ⟨Utf8.ofChars ('\x7b' :: line)⟩ := by
  have hnone : lengthField? (Text.ofChars ('\x7b' :: line)) = none :=
    lengthField?_cons (by decide) (by decide) (by decide) _
  have hfield := @findSome?_lengthField? [] not_namesLength_nil _ hline
  have hopen : Utf8.decodeAscii (openLine []) = [] := rfl
  rw [hopen, List.nil_append, List.nil_append, hnone] at hfield
  rw [contentLength, hfield]

end Frame

end LanguageClient
