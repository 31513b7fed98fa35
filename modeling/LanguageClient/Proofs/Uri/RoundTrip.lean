import LanguageClient.Proofs.Path.Normal
import LanguageClient.Uri.File
import Mathlib.Data.List.TakeWhile

/-!
# File URIs and back

The URI of a file name is read back as the normalized path (`toPath_ofPath`), whatever bytes the name
is made of.  So two paths that are normal have the same URI only if they are the same
(`ofPath_injective`).  What is read from any URI is normal, and an absolute path that is read has a URI
of its own that is read as this path (`roundTrip`).

## Strategy

An encoded path is ASCII without blanks, colons, question marks and number signs (`IsUriChar`), so
splitting leaves it as it is.  Decoding undoes the encoding byte by byte: a byte is plain, and then
it is no percent sign, or it is three characters that spell it (`percentDecodeFrom_encode`).
-/

namespace LanguageClient.Uri

open Utf8 LanguageClient.Path

/-! ## Encoded bytes -/

/-- The characters of an encoded path. -/
def IsUriChar (c : Char) : Prop :=
  0x25 ≤ c.toNat ∧ c.toNat < 0x7F ∧ c.toNat ≠ 0x3A ∧ c.toNat ≠ 0x3F

instance (c : Char) : Decidable (IsUriChar c) := inferInstanceAs (Decidable (_ ∧ _))

theorem IsUriChar.isPrintedAscii {c : Char} (h : IsUriChar c) : IsPrintedAscii c :=
  ⟨Nat.le_trans (by decide) h.1, h.2.1⟩

theorem upperDigit_spec : ∀ n : Fin 16, IsUriChar (upperDigit n) ∧
    hexValue? (UInt8.ofNat (upperDigit n).toNat) = some n.val := by
  decide

theorem isPlain_spec {b : UInt8} (h : isPlain b = true) :
    0x2D ≤ b.toNat ∧ b.toNat < 0x7F ∧ b.toNat ≠ 0x3A ∧ b.toNat ≠ 0x3F := by
  have hval : (CodePoint.ofNat b.toNat).val = b.toNat := by
    have := b.toNat_lt
    rw [CodePoint.ofNat, dif_pos (by omega)]
  have hbyte : ∀ n : UInt8, b = n ↔ b.toNat = n.toNat := fun n => UInt8.toNat_inj.symm
  simp [isPlain, CodePoint.isAsciiLetter, CodePoint.isAsciiDigit, hval, hbyte] at h
  omega

theorem upperDigit_of_lt {n : Nat} (h : n < 16) :
    IsUriChar (upperDigit n) ∧ hexValue? (UInt8.ofNat (upperDigit n).toNat) = some n :=
  upperDigit_spec ⟨n, h⟩

theorem percentEncode_of_plain {b : UInt8} (h : isPlain b = true) :
    percentEncode b = [Char.ofNat b.toNat] := by
  rw [percentEncode, if_pos h]

theorem percentEncode_of_not_plain {b : UInt8} (h : isPlain b = false) :
    percentEncode b = ['%', upperDigit (b.toNat / 16), upperDigit (b.toNat % 16)] := by
  rw [percentEncode, h]
  rfl

theorem toNat_ofNat_of_plain {b : UInt8} (h : isPlain b = true) :
    (Char.ofNat b.toNat).toNat = b.toNat := by
  have hlt := (isPlain_spec h).2.1
  exact congrArg CodePoint.val (ofChar_ofNat (n := b.toNat) (Or.inl (by omega)) (by omega))

theorem isUriChar_percentEncode {b : UInt8} {c : Char} (h : c ∈ percentEncode b) : IsUriChar c := by
  have hlt := b.toNat_lt
  cases hplain : isPlain b with
  | true =>
      rw [percentEncode_of_plain hplain, List.mem_singleton] at h
      have hspec := isPlain_spec hplain
      rw [h, IsUriChar, toNat_ofNat_of_plain hplain]
      omega
  | false =>
      rw [percentEncode_of_not_plain hplain] at h
      rcases List.mem_cons.mp h with rfl | h
      · decide
      · rcases List.mem_cons.mp h with rfl | h
        · exact (upperDigit_of_lt (by omega)).1
        · rw [List.mem_singleton.mp h]
          exact (upperDigit_of_lt (by omega)).1

theorem isUriChar_encoded {bytes : Bytes} {c : Char} (h : c ∈ bytes.flatMap percentEncode) :
    IsUriChar c := by
  obtain ⟨b, -, hc⟩ := List.mem_flatMap.mp h
  exact isUriChar_percentEncode hc

/-! ## Decoding -/

theorem percentDecodeFrom_nil (done : Bytes) : percentDecodeFrom done [] = done.reverse := rfl

theorem percentDecodeFrom_escape (done : Bytes) (a b : UInt8) (rest : Bytes) :
    percentDecodeFrom done (0x25 :: a :: b :: rest) =
      match hexValue? a, hexValue? b with
      | some high, some low => percentDecodeFrom (UInt8.ofNat (high * 16 + low) :: done) rest
      | _, _ => percentDecodeFrom (0x25 :: done) (a :: b :: rest) := rfl

theorem percentDecodeFrom_plain {b : UInt8} (h : b ≠ 0x25) (done rest : Bytes) :
    percentDecodeFrom done (b :: rest) = percentDecodeFrom (b :: done) rest := by
  rw [percentDecodeFrom]
  exact fun a c rest hb => absurd hb h

theorem percentDecodeFrom_digits {a b : UInt8} {high low : Nat} (ha : hexValue? a = some high)
    (hb : hexValue? b = some low) (done rest : Bytes) :
    percentDecodeFrom done (0x25 :: a :: b :: rest) =
      percentDecodeFrom (UInt8.ofNat (high * 16 + low) :: done) rest := by
  rw [percentDecodeFrom_escape, ha, hb]

/-- An encoded byte is read back as that byte. -/
theorem percentDecodeFrom_encode (b : UInt8) (done rest : Bytes) :
    percentDecodeFrom done (Utf8.ofChars (percentEncode b) ++ rest) =
      percentDecodeFrom (b :: done) rest := by
  have hlt := b.toNat_lt
  have hascii : ∀ {c : Char}, IsUriChar c → ∀ cs, Utf8.ofChars (c :: cs) =
      UInt8.ofNat c.toNat :: Utf8.ofChars cs := fun hc cs => ofChars_cons hc.isPrintedAscii
  cases hplain : isPlain b with
  | true =>
      have hspec := isPlain_spec hplain
      have hne : b ≠ 0x25 := by
        rintro rfl
        exact absurd hspec.1 (by decide)
      have hchar : IsUriChar (Char.ofNat b.toNat) :=
        isUriChar_percentEncode (b := b)
          (by rw [percentEncode_of_plain hplain]; exact List.mem_cons_self)
      rw [percentEncode_of_plain hplain, hascii hchar, toNat_ofNat_of_plain hplain,
        UInt8.ofNat_toNat]
      exact percentDecodeFrom_plain hne done rest
  | false =>
      obtain ⟨hhigh, hhigh'⟩ := upperDigit_of_lt (n := b.toNat / 16) (by omega)
      obtain ⟨hlow, hlow'⟩ := upperDigit_of_lt (n := b.toNat % 16) (by omega)
      rw [percentEncode_of_not_plain hplain, hascii (by decide), hascii hhigh, hascii hlow]
      refine (percentDecodeFrom_digits hhigh' hlow' done rest).trans ?_
      rw [ofNat_eq (b := b) (by omega)]

/-- **Decoding undoes the encoding.** -/
theorem percentDecode_encoded (bytes : Bytes) :
    percentDecode (Utf8.ofChars (bytes.flatMap percentEncode)) = bytes := by
  have hfrom : ∀ done, percentDecodeFrom done (Utf8.ofChars (bytes.flatMap percentEncode)) =
      done.reverse ++ bytes := by
    induction bytes with
    | nil =>
        intro done
        rw [List.append_nil]
        exact percentDecodeFrom_nil done
    | cons b bytes ih =>
        intro done
        rw [List.flatMap_cons, ofChars_append, percentDecodeFrom_encode, ih]
        simp
  exact hfrom []

/-! ## Splitting -/

/-- The characters of a line are encoded as they are. -/
theorem encode_ofChars {cs : List Char} (h : OnOneLine cs) :
    Utf8.encode (Text.ofChars cs) = .ok (Utf8.ofChars cs) := by
  have hspells : Spells (fun c => if c.isSurrogate then none else some (encodeOne c))
      (Text.ofChars cs) (Utf8.ofChars cs) := by
    induction cs with
    | nil => exact .nil
    | cons c cs ih =>
        obtain ⟨hc, hcs⟩ := OnOneLine.cons_iff.1 h
        refine (ih hcs).cons ?_
        have hsurrogate : (CodePoint.ofChar c).isSurrogate = false := by
          have hval : (CodePoint.ofChar c).val = c.toNat := rfl
          unfold IsPrintedAscii at hc
          simp [CodePoint.isSurrogate, hval]
          omega
        simp [hsurrogate]
  exact hspells [] 0

theorem isUriChar_val {cs : List Char} (h : ∀ c ∈ cs, IsUriChar c) {c : CodePoint}
    (hc : c ∈ Text.ofChars cs) : 0x25 ≤ c.val ∧ c.val ≠ 0x3F := by
  obtain ⟨a, ha, rfl⟩ := List.mem_map.mp hc
  obtain ⟨hlow, -, -, hquestion⟩ := h a ha
  exact ⟨hlow, hquestion⟩

/-- The scheme of a file URI. -/
theorem splitScheme_file (rest : Text) :
    splitScheme (Text.ofString "file" ++ CodePoint.ofChar ':' :: rest) =
      (Text.ofString "file", rest) := by
  have hcolon : CodePoint.ofChar ':' ∉ Text.ofString "file" := by decide +kernel
  have hscheme : ((Text.ofString "file").head?.any CodePoint.isAsciiLetter &&
      (Text.ofString "file").all isSchemeChar) = true := by decide +kernel
  have hlower : (Text.ofString "file").map CodePoint.asciiLower = Text.ofString "file" := by
    decide +kernel
  rw [splitScheme, Cut.at?_append_cons hcolon]
  dsimp only
  rw [if_pos hscheme, hlower]

/-- Behind two slashes, a third one ends the authority before it has begun. -/
theorem splitAuthority_slash (rest : Text) :
    splitAuthority (Text.ofString "//" ++ slash :: rest) = ([], slash :: rest) := by
  have hends : (!endsAuthority slash) = false := by decide
  rw [splitAuthority, Cut.after?_append]
  dsimp only
  rw [List.takeWhile_cons, List.dropWhile_cons, hends]
  rfl

/-- **Splitting leaves an encoded path as it is.** -/
theorem split_encoded {cs : List Char} (h : ∀ c ∈ cs, IsUriChar c) :
    split (Text.ofString "file://" ++ Text.ofChars ('/' :: cs)) =
      .ok ⟨Text.ofString "file", [], Text.ofChars ('/' :: cs)⟩ := by
  have hpath : ∀ c ∈ Text.ofChars ('/' :: cs), 0x25 ≤ c.val ∧ c.val ≠ 0x3F := fun c hc =>
    isUriChar_val (fun c hc => (List.mem_cons.mp hc).elim (· ▸ by decide) (h c)) hc
  have hscheme : ∀ c ∈ Text.ofString "file://", 0x25 ≤ c.val := by decide +kernel
  have hfile : Text.ofString "file://" =
      Text.ofString "file" ++ CodePoint.ofChar ':' :: Text.ofString "//" := by decide +kernel
  have hfront : (Text.ofString "file://" ++ Text.ofChars ('/' :: cs)).dropWhile
      (fun c => decide (c.val ≤ 0x20)) = Text.ofString "file://" ++ Text.ofChars ('/' :: cs) := by
    obtain ⟨c, rest, hcons⟩ : ∃ c rest, Text.ofString "file://" = c :: rest :=
      List.exists_cons_of_ne_nil (by decide +kernel)
    have hc := hscheme c (hcons ▸ List.mem_cons_self)
    rw [hcons, List.cons_append, List.dropWhile_cons_of_neg (by simp; omega)]
  have hkept : (Text.ofString "file://" ++ Text.ofChars ('/' :: cs)).filter
      (fun c => c.val != 0x09 && c.val != 0x0A && c.val != 0x0D) =
        Text.ofString "file://" ++ Text.ofChars ('/' :: cs) := by
    refine List.filter_eq_self.mpr fun c hc => ?_
    have hlow : 0x25 ≤ c.val := (List.mem_append.mp hc).elim (hscheme c) fun hc => (hpath c hc).1
    simp
    omega
  have hwhole : (Text.ofChars ('/' :: cs)).takeWhile (fun c => c.val != 0x23 && c.val != 0x3F) =
      Text.ofChars ('/' :: cs) := by
    refine List.takeWhile_eq_self_iff.mpr fun c hc => ?_
    obtain ⟨hlow, hquestion⟩ := hpath c hc
    simp
    omega
  unfold split
  simp only [hfront, hkept]
  rw [hfile, List.append_assoc, List.cons_append, splitScheme_file]
  dsimp only
  have hslash : Text.ofChars ('/' :: cs) = slash :: Text.ofChars cs := rfl
  rw [hslash, splitAuthority_slash, ← hslash]
  dsimp only
  rw [hwhole]
  rfl

/-! ## Round trip -/

/-- A file name has a URI. -/
theorem ofPath_decodeName (bytes : Bytes) :
    ofPath (decodeName bytes) =
      .ok (Text.ofString "file://" ++ Text.ofChars (bytes.flatMap percentEncode)) := by
  rw [ofPath, encodeName_decodeName]
  rfl

/-- **The URI of an absolute path is read back as the normalized path.** -/
theorem toPath_ofPath {path : Text} (h : isAbsolute path = true) (hname : IsName path) :
    ∃ uri, ofPath path = .ok uri ∧ toPath uri = .ok (.ok (normalize path)) := by
  -- the first byte is that of the slash
  obtain ⟨bytes, rfl⟩ : ∃ bytes, decodeName (0x2F :: bytes) = path := by
    cases path with
    | nil => cases h
    | cons c path =>
        have hc : c = slash := by simpa [isAbsolute] using h
        subst hc
        have hcut : IsName ([] ++ slash :: path) := hname
        obtain ⟨-, bytes, rfl⟩ := isName_append_slash.mp hcut
        exact ⟨bytes, decodeName_ascii (by decide) bytes⟩
  refine ⟨_, ofPath_decodeName _, ?_⟩
  have hencoded : ∀ c ∈ bytes.flatMap percentEncode, IsUriChar c := fun c => isUriChar_encoded
  have hslash : (0x2F :: bytes).flatMap percentEncode = '/' :: bytes.flatMap percentEncode := rfl
  have hline : OnOneLine ('/' :: bytes.flatMap percentEncode) := fun c hc => by
    rw [← hslash] at hc
    exact (isUriChar_encoded hc).isPrintedAscii
  rw [hslash, toPath, split_encoded hencoded]
  dsimp only
  rw [if_neg (by simp), if_neg (by simp), encode_ofChars hline, ← hslash]
  dsimp only
  rw [percentDecode_encoded]

/-- **Different paths have different URIs**, if they are normal. -/
theorem ofPath_injective {path path' uri : Text} (h : isAbsolute path = true)
    (h' : isAbsolute path' = true) (hname : IsName path) (hname' : IsName path')
    (hnormal : normalize path = path) (hnormal' : normalize path' = path')
    (huri : ofPath path = .ok uri) (huri' : ofPath path' = .ok uri) : path = path' := by
  obtain ⟨found, hfound, hread⟩ := toPath_ofPath h hname
  obtain ⟨found', hfound', hread'⟩ := toPath_ofPath h' hname'
  obtain rfl := Except.ok.inj (huri.symm.trans hfound)
  obtain rfl := Except.ok.inj (huri'.symm.trans hfound')
  have hsame := Except.ok.inj (Except.ok.inj (hread.symm.trans hread'))
  rwa [hnormal, hnormal'] at hsame

/-! ## Both ways -/

/-- The characters that stand for themselves in a path: the slash, and those that are not reserved. -/
def IsPathChar (c : Char) : Prop :=
  c = '/' ∨ c.isAlphanum = true ∨ c = '-' ∨ c = '.' ∨ c = '_' ∨ c = '~'

instance (c : Char) : Decidable (IsPathChar c) := inferInstanceAs (Decidable (_ ∨ _))

/-- The digits of an escaped byte. -/
def IsUpperDigit (c : Char) : Prop := c.isDigit = true ∨ 'A' ≤ c ∧ c ≤ 'F'

instance (c : Char) : Decidable (IsUpperDigit c) := inferInstanceAs (Decidable (_ ∨ _))

/-- There is nothing but such characters, and percent signs with two digits behind them. -/
inductive Escaped : List Char → Prop where
  | nil : Escaped []
  | plain {c : Char} {rest : List Char} (hc : IsPathChar c) (h : Escaped rest) : Escaped (c :: rest)
  | escape {high low : Char} {rest : List Char} (hhigh : IsUpperDigit high) (hlow : IsUpperDigit low)
      (h : Escaped rest) : Escaped ('%' :: high :: low :: rest)

theorem isPathChar_of_plain : ∀ n : Fin 256, isPlain (UInt8.ofNat n) = true →
    IsPathChar (Char.ofNat n) := by
  decide +kernel

theorem isUpperDigit_upperDigit : ∀ n : Fin 16, IsUpperDigit (upperDigit n) := by decide

theorem escaped_encoded (bytes : Bytes) : Escaped (bytes.flatMap percentEncode) := by
  induction bytes with
  | nil => exact .nil
  | cons b bytes ih =>
      have hlt := b.toNat_lt
      rw [List.flatMap_cons]
      cases hplain : isPlain b with
      | true =>
          rw [percentEncode_of_plain hplain]
          exact .plain (isPathChar_of_plain ⟨b.toNat, hlt⟩ (by rwa [UInt8.ofNat_toNat])) ih
      | false =>
          rw [percentEncode_of_not_plain hplain]
          exact .escape (isUpperDigit_upperDigit ⟨b.toNat / 16, by omega⟩)
            (isUpperDigit_upperDigit ⟨b.toNat % 16, by omega⟩) ih

/-- What a URI is read as is the normalized path of a name. -/
theorem exists_of_toPath {uri path : Text} (h : toPath uri = .ok (.ok path)) :
    ∃ name, IsName name ∧ path = normalize name := by
  unfold toPath at h
  cases hsplit : split uri with
  | error e => rw [hsplit] at h; cases h
  | ok parts =>
      rw [hsplit] at h
      dsimp only at h
      by_cases hscheme : parts.scheme ≠ Text.ofString "file"
      · rw [if_pos hscheme] at h
        cases h
      · rw [if_neg hscheme] at h
        by_cases hauthority : parts.authority ≠ []
        · rw [if_pos hauthority] at h
          cases h
        · rw [if_neg hauthority] at h
          cases hbytes : Utf8.encode parts.path with
          | error e => rw [hbytes] at h; cases h
          | ok bytes =>
              rw [hbytes] at h
              cases h
              exact ⟨_, ⟨_, rfl⟩, rfl⟩

/-- Nothing is read as the path of the directory itself. -/
theorem toPath_nil : toPath (Text.ofString "file://" ++ Text.ofChars []) =
    .ok (.ok (normalize [])) := by
  decide +kernel

/-- **Paths and their URIs.**  The URI of a path, be it absolute or empty, has nothing behind its
scheme but unreserved characters, slashes and escaped bytes, and is read back as the normalized path,
whatever bytes spell the path.  Whatever URI is read, the path is normal; and if it is absolute, its own
URI is read as this very path. -/
theorem roundTrip :
    (∀ path, IsName path → path = [] ∨ isAbsolute path = true →
      ∃ cs, Escaped cs ∧ ofPath path = .ok (Text.ofString "file://" ++ Text.ofChars cs) ∧
        toPath (Text.ofString "file://" ++ Text.ofChars cs) = .ok (.ok (normalize path))) ∧
    ∀ uri path, toPath uri = .ok (.ok path) → normalize path = path ∧
      (isAbsolute path = true → ∃ own, ofPath path = .ok own ∧ toPath own = .ok (.ok path)) := by
  refine ⟨fun path hname hfront => ?_, fun uri path hread => ?_⟩
  · obtain ⟨bytes, rfl⟩ := hname
    refine ⟨_, escaped_encoded bytes, ofPath_decodeName bytes, ?_⟩
    rcases hfront with hempty | habsolute
    · -- no byte spells the empty path
      have hbytes := encodeName_decodeName bytes
      rw [hempty] at hbytes ⊢
      cases hbytes
      exact toPath_nil
    · obtain ⟨uri, huri, hback⟩ := toPath_ofPath habsolute ⟨bytes, rfl⟩
      obtain rfl := Except.ok.inj ((ofPath_decodeName bytes).symm.trans huri)
      exact hback
  · obtain ⟨name, hname, rfl⟩ := exists_of_toPath hread
    refine ⟨normalize_normalize name, fun habsolute => ?_⟩
    obtain ⟨own, hown, hback⟩ := toPath_ofPath habsolute (isName_normalize hname)
    exact ⟨own, hown, by rw [hback, normalize_normalize]⟩

/-- Two slashes in front, a number sign, and a byte that is no UTF-8. -/
def oddName : Text := decodeName [0x2F, 0x2F, 0x23, 0xFF]

/-- All of it comes back. -/
theorem roundTrip_oddName :
    ofPath oddName = .ok (Text.ofString "file:////%23%FF") ∧
      toPath (Text.ofString "file:////%23%FF") = .ok (.ok oddName) ∧ normalize oddName = oddName := by
  have hown : ofPath oddName = .ok (Text.ofString "file:////%23%FF") := by decide +kernel
  have hnormal : normalize oddName = oddName := by decide +kernel
  obtain ⟨cs, -, hcs, hback⟩ := roundTrip.1 oddName ⟨_, rfl⟩ (Or.inr (by decide +kernel))
  obtain hsame := Except.ok.inj (hown.symm.trans hcs)
  rw [← hsame, hnormal] at hback
  exact ⟨hown, hback, (roundTrip.2 _ _ hback).1⟩

end LanguageClient.Uri
