import LanguageClient.Text.Utf8
import Mathlib.Tactic.Common

/-!
# Text on one line of ASCII

What is printed for a wire consists of printable ASCII alone.  Such text is one byte a character,
decodes to itself in UTF-8 and in ASCII, and holds no line break, so a mark made of line breaks
is never found in it.
-/

namespace LanguageClient

/-- The character is one of printable ASCII. -/
def IsPrintedAscii (c : Char) : Prop := 0x20 ≤ c.toNat ∧ c.toNat < 0x7F

instance (c : Char) : Decidable (IsPrintedAscii c) := inferInstanceAs (Decidable (_ ∧ _))

/-- The text consists of printable ASCII, so it is on one line. -/
def OnOneLine (cs : List Char) : Prop := ∀ c ∈ cs, IsPrintedAscii c

instance (cs : List Char) : Decidable (OnOneLine cs) := List.decidableBAll IsPrintedAscii cs

theorem IsPrintedAscii.of_isDigit {c : Char} (h : c.isDigit) : IsPrintedAscii c := by
  obtain ⟨hlow, hhigh⟩ := Char.isDigit_iff_toNat.mp h
  exact ⟨Nat.le_trans (by decide) hlow, Nat.lt_of_le_of_lt hhigh (by decide)⟩

/-- The digits of a number, as it is written. -/
theorem isDigit_of_mem_toDigits {n : Nat} {c : Char} (h : c ∈ Nat.toDigits 10 n) : c.isDigit :=
  Nat.isDigit_of_mem_toDigits (by decide) (by decide) h

/-- Below the surrogates a code point is a character. -/
theorem CodePoint.toNat_toChar {c : CodePoint} (h : c.val < 0xD800) : c.toChar.toNat = c.val := by
  have hvalid : c.val.isValidChar := Or.inl h
  rw [toChar, toChar?, dif_pos hvalid]
  rfl

namespace OnOneLine

variable {a b : List Char} {c : Char}

@[simp] theorem nil : OnOneLine [] := by simp [OnOneLine]

@[simp] theorem cons_iff : OnOneLine (c :: a) ↔ IsPrintedAscii c ∧ OnOneLine a := by
  simp [OnOneLine]

@[simp] theorem append_iff : OnOneLine (a ++ b) ↔ OnOneLine a ∧ OnOneLine b := by
  simp [OnOneLine, or_imp, forall_and]

theorem flatMap {α : Type} {f : α → List Char} {l : List α} (h : ∀ x ∈ l, OnOneLine (f x)) :
    OnOneLine (l.flatMap f) := by
  intro c hc
  obtain ⟨x, hx, hcx⟩ := List.mem_flatMap.mp hc
  exact h x hx c hcx

theorem of_isDigit (h : ∀ c ∈ a, c.isDigit) : OnOneLine a :=
  fun c hc => IsPrintedAscii.of_isDigit (h c hc)

theorem replicate (n : Nat) (h : IsPrintedAscii c) : OnOneLine (List.replicate n c) := by
  intro d hd
  rw [List.eq_of_mem_replicate hd]
  exact h

theorem toDigits (n : Nat) : OnOneLine (Nat.toDigits 10 n) :=
  of_isDigit fun _ hc => isDigit_of_mem_toDigits hc

end OnOneLine

namespace Utf8

variable {cs ds : List Char}

@[simp] theorem ofChars_nil : ofChars [] = [] := rfl

@[simp] theorem ofChars_append : ofChars (cs ++ ds) = ofChars cs ++ ofChars ds :=
  List.flatMap_append

/-- Below `0x80` a character is one byte. -/
theorem ofChars_cons_of_lt {c : Char} (h : c.toNat < 0x80) :
    ofChars (c :: cs) = UInt8.ofNat c.toNat :: ofChars cs := by
  have hval : (CodePoint.ofChar c).val = c.toNat := rfl
  simp [ofChars, encodeOne, hval, h]

theorem ofChars_cons {c : Char} (h : IsPrintedAscii c) :
    ofChars (c :: cs) = UInt8.ofNat c.toNat :: ofChars cs :=
  ofChars_cons_of_lt (Nat.lt_trans h.2 (by decide))

theorem exists_of_mem_ofChars (h : ∀ c ∈ cs, c.toNat < 0x80) {b : UInt8} (hb : b ∈ ofChars cs) :
    ∃ c ∈ cs, b.toNat = c.toNat := by
  induction cs with
  | nil => simp at hb
  | cons c cs ih =>
      obtain ⟨hc, hcs⟩ := List.forall_mem_cons.mp h
      rw [ofChars_cons_of_lt hc] at hb
      rcases List.mem_cons.mp hb with rfl | hb
      · refine ⟨c, List.mem_cons_self .., ?_⟩
        simp only [UInt8.toNat_ofNat']
        omega
      · obtain ⟨d, hd, heq⟩ := ih hcs hb
        exact ⟨d, List.mem_cons_of_mem _ hd, heq⟩

theorem toNat_ofNat_toNat {c : Char} (h : IsPrintedAscii c) :
    (UInt8.ofNat c.toNat).toNat = c.toNat := by
  unfold IsPrintedAscii at h
  simp only [UInt8.toNat_ofNat']
  omega

theorem mem_ofChars (h : OnOneLine cs) {b : UInt8} (hb : b ∈ ofChars cs) :
    0x20 ≤ b.toNat ∧ b.toNat < 0x7F := by
  induction cs with
  | nil => simp at hb
  | cons c cs ih =>
      obtain ⟨hc, hcs⟩ := OnOneLine.cons_iff.mp h
      rw [ofChars_cons hc] at hb
      rcases List.mem_cons.mp hb with rfl | hb
      · rw [toNat_ofNat_toNat hc]
        exact hc
      · exact ih hcs hb

/-- No byte of a line is a carriage return or a line feed. -/
theorem not_mem_lineBreaks (h : OnOneLine cs) {b : UInt8} (hb : b ∈ ofChars cs) {mark : Bytes}
    (hmark : mark ⊆ [0x0D, 0x0A]) : b ∉ mark := by
  intro hmem
  have hrange := (mem_ofChars h hb).1
  have : b = 0x0D ∨ b = 0x0A := by simpa using hmark hmem
  rcases this with rfl | rfl <;> simp at hrange

theorem decodeFrom_ofChars (h : OnOneLine cs) (done : List Char) (position : Nat) :
    decodeFrom done position 0 (ofChars cs) = .ok (done.reverse ++ cs) := by
  induction cs generalizing done position with
  | nil => simp [decodeFrom]
  | cons c cs ih =>
      obtain ⟨hc, hcs⟩ := OnOneLine.cons_iff.mp h
      have hlt : UInt8.ofNat c.toNat < 0x80 := by
        rw [UInt8.lt_iff_toNat_lt, toNat_ofNat_toNat hc]
        exact Nat.lt_trans hc.2 (by decide)
      -- a byte below 0x80 stands for itself
      have hhead : head (UInt8.ofNat c.toNat) (ofChars cs) = .scalar c 1 := by
        unfold head
        rw [if_pos hlt, toNat_ofNat_toNat hc, Char.ofNat_toNat]
      rw [ofChars_cons hc, decodeFrom]
      simp only [hhead]
      rw [ih hcs]
      simp

theorem decode_ofChars (h : OnOneLine cs) : decode (ofChars cs) = .ok cs := by
  rw [decode, decodeFrom_ofChars h]
  rfl

theorem decodeAscii_append (a b : Bytes) : decodeAscii (a ++ b) = decodeAscii a ++ decodeAscii b :=
  List.map_append

theorem decodeAscii_ofChars_of_lt (h : ∀ c ∈ cs, c.toNat < 0x80) :
    decodeAscii (ofChars cs) = Text.ofChars cs := by
  induction cs with
  | nil => rfl
  | cons c cs ih =>
      obtain ⟨hc, hcs⟩ := List.forall_mem_cons.mp h
      have hbyte : (UInt8.ofNat c.toNat).toNat = c.toNat := by
        simp only [UInt8.toNat_ofNat']
        omega
      have hlt : UInt8.ofNat c.toNat < 0x80 := by
        rw [UInt8.lt_iff_toNat_lt, hbyte]
        exact hc
      have hone : CodePoint.ofNat c.toNat = CodePoint.ofChar c := by
        have : c.toNat < 0x110000 := Nat.lt_trans hc (by decide)
        simp [CodePoint.ofNat, CodePoint.ofChar, this]
      rw [ofChars_cons_of_lt hc, decodeAscii, List.map_cons, if_pos hlt, hbyte, hone]
      exact congrArg _ (ih hcs)

theorem decodeAscii_ofChars (h : OnOneLine cs) : decodeAscii (ofChars cs) = Text.ofChars cs :=
  decodeAscii_ofChars_of_lt fun c hc => Nat.lt_trans (h c hc).2 (by decide)

end Utf8

end LanguageClient
