import LanguageClient.Proofs.Text.Ascii

/-!
# File names

The bytes of a file name need not be UTF-8, and none is lost: what a name spells is written back as
it was (`encodeName_decodeName`).  An ASCII byte never belongs to a longer sequence, so reading a name
commutes with cutting it at one (`decodeName_append_cons`).

## Strategy

Everything is read off the first sequence of a list of bytes.  A sequence that can be read is the one
that is written for its character, and all its bytes but the first are continuation bytes
(`Reads.of_head`); a byte that begins no such sequence is no ASCII byte (`le_of_flawed`).
-/

namespace LanguageClient.Utf8

/-! ## The first sequence -/

/-- The sequence of `lead` and `more` spells the character, whatever follows it. -/
structure Reads (lead : UInt8) (more : Bytes) (c : Char) : Prop where
  head_eq : ∀ rest, head lead (more ++ rest) = .scalar c (more.length + 1)
  encodeOne_eq : encodeOne (CodePoint.ofChar c) = lead :: more
  isContinuation : ∀ b ∈ more, isContinuation b = true

theorem isContinuation_iff {b : UInt8} :
    isContinuation b = true ↔ 0x80 ≤ b.toNat ∧ b.toNat < 0xC0 := by
  simp [isContinuation, UInt8.le_iff_toNat_le, UInt8.lt_iff_toNat_lt]

theorem mayFollow_iff {lead second : UInt8} :
    mayFollow lead second = true ↔ (0x80 ≤ second.toNat ∧ second.toNat < 0xC0) ∧
      (lead.toNat = 0xE0 → 0xA0 ≤ second.toNat) ∧ (lead.toNat = 0xED → second.toNat < 0xA0) ∧
      (lead.toNat = 0xF0 → 0x90 ≤ second.toNat) ∧ (lead.toNat = 0xF4 → second.toNat < 0x90) := by
  have hlead : ∀ n : UInt8, lead = n ↔ lead.toNat = n.toNat := fun n => UInt8.toNat_inj.symm
  unfold mayFollow
  rw [Bool.and_eq_true, isContinuation_iff]
  refine and_congr Iff.rfl ?_
  simp only [hlead, UInt8.reduceToNat]
  split_ifs <;> simp [UInt8.le_iff_toNat_le, UInt8.lt_iff_toNat_lt] <;> omega

/-- The character of a number that is one is that number. -/
theorem ofChar_ofNat {n : Nat} (h : n.isValidChar) (hlt : n < 0x110000) :
    CodePoint.ofChar (Char.ofNat n) = ⟨n, hlt⟩ := by
  have hval : (Char.ofNat n).toNat = n := by
    unfold Char.ofNat
    rw [dif_pos h]
    rfl
  rw [CodePoint.ofChar, CodePoint.mk.injEq]
  exact hval

theorem ofNat_eq {b : UInt8} {n : Nat} (h : n = b.toNat) : UInt8.ofNat n = b := by
  rw [h, UInt8.ofNat_toNat]

/-- The lead bytes of sequences of more than one byte. -/
theorem not_single {lead : UInt8} (hlow : 0xC2 ≤ lead.toNat) (hhigh : lead.toNat ≤ 0xF4) :
    ¬lead < 0x80 ∧ (decide (lead < 0xC2) || decide (0xF4 < lead)) = false := by
  simp [UInt8.lt_iff_toNat_lt]
  omega

/-- An ASCII byte spells its own character. -/
theorem reads_one {lead : UInt8} (h : lead.toNat < 0x80) :
    Reads lead [] (Char.ofNat lead.toNat) where
  head_eq rest := by
    have hlead : lead < 0x80 := UInt8.lt_iff_toNat_lt.mpr h
    unfold head
    rw [if_pos hlead]
    rfl
  encodeOne_eq := by
    rw [ofChar_ofNat (Or.inl (by omega)) (by omega)]
    simp only [encodeOne, if_pos h, UInt8.ofNat_toNat]
  isContinuation := nofun

theorem reads_two {lead b₁ : UInt8} (hlow : 0xC2 ≤ lead.toNat) (hhigh : lead.toNat < 0xE0)
    (h₁ : mayFollow lead b₁ = true) : Reads lead [b₁] (combine (lead.toNat - 0xC0) [b₁]) where
  head_eq rest := by
    obtain ⟨hmany, hlead⟩ := not_single hlow (by omega)
    have htwo : lead < 0xE0 := UInt8.lt_iff_toNat_lt.mpr hhigh
    simp [head, hmany, hlead, htwo, h₁]
  encodeOne_eq := by
    obtain ⟨hrange, -⟩ := mayFollow_iff.1 h₁
    obtain ⟨n, hn⟩ : ∃ n, n = (lead.toNat - 0xC0) * 64 + (b₁.toNat - 0x80) := ⟨_, rfl⟩
    have hcombine : combine (lead.toNat - 0xC0) [b₁] = Char.ofNat n := congrArg Char.ofNat hn.symm
    rw [hcombine, ofChar_ofNat (Or.inl (by omega)) (by omega)]
    simp only [encodeOne]
    rw [if_neg (by omega), if_pos (by omega), ofNat_eq (b := lead) (by omega),
      ofNat_eq (b := b₁) (by omega)]
  isContinuation b hb := by
    rw [List.mem_singleton.mp hb]
    exact isContinuation_iff.2 (mayFollow_iff.1 h₁).1

theorem reads_three {lead b₁ b₂ : UInt8} (hlow : 0xE0 ≤ lead.toNat) (hhigh : lead.toNat < 0xF0)
    (h₁ : mayFollow lead b₁ = true) (h₂ : isContinuation b₂ = true) :
    Reads lead [b₁, b₂] (combine (lead.toNat - 0xE0) [b₁, b₂]) where
  head_eq rest := by
    have hfirst : 0xC2 ≤ lead.toNat := Nat.le_trans (by decide) hlow
    obtain ⟨hmany, hlead⟩ := not_single hfirst (by omega)
    have htwo : ¬lead < 0xE0 := mt UInt8.lt_iff_toNat_lt.mp (Nat.not_lt.mpr hlow)
    have hthree : lead < 0xF0 := UInt8.lt_iff_toNat_lt.mpr hhigh
    simp [head, hmany, hlead, htwo, hthree, h₁, h₂]
  encodeOne_eq := by
    obtain ⟨hrange₁, hE0, hED, -⟩ := mayFollow_iff.1 h₁
    have hrange₂ := isContinuation_iff.1 h₂
    obtain ⟨n, hn⟩ : ∃ n, n = ((lead.toNat - 0xE0) * 64 + (b₁.toNat - 0x80)) * 64 +
      (b₂.toNat - 0x80) := ⟨_, rfl⟩
    have hcombine : combine (lead.toNat - 0xE0) [b₁, b₂] = Char.ofNat n :=
      congrArg Char.ofNat hn.symm
    -- neither overlong nor a surrogate
    have hvalid : n.isValidChar := by
      unfold Nat.isValidChar
      omega
    rw [hcombine, ofChar_ofNat hvalid (by omega)]
    simp only [encodeOne]
    rw [if_neg (by omega), if_neg (by omega), if_pos (by omega), ofNat_eq (b := lead) (by omega),
      ofNat_eq (b := b₁) (by omega), ofNat_eq (b := b₂) (by omega)]
  isContinuation b hb := by
    rcases List.mem_cons.mp hb with rfl | hb
    · exact isContinuation_iff.2 (mayFollow_iff.1 h₁).1
    · rw [List.mem_singleton.mp hb]
      exact h₂

theorem reads_four {lead b₁ b₂ b₃ : UInt8} (hlow : 0xF0 ≤ lead.toNat) (hhigh : lead.toNat ≤ 0xF4)
    (h₁ : mayFollow lead b₁ = true) (h₂ : isContinuation b₂ = true)
    (h₃ : isContinuation b₃ = true) :
    Reads lead [b₁, b₂, b₃] (combine (lead.toNat - 0xF0) [b₁, b₂, b₃]) where
  head_eq rest := by
    have hfirst : 0xC2 ≤ lead.toNat := Nat.le_trans (by decide) hlow
    obtain ⟨hmany, hlead⟩ := not_single hfirst (by omega)
    have htwo : ¬lead < 0xE0 :=
      mt UInt8.lt_iff_toNat_lt.mp (Nat.not_lt.mpr (Nat.le_trans (by decide) hlow))
    have hthree : ¬lead < 0xF0 := mt UInt8.lt_iff_toNat_lt.mp (Nat.not_lt.mpr hlow)
    simp [head, hmany, hlead, htwo, hthree, h₁, h₂, h₃]
  encodeOne_eq := by
    obtain ⟨hrange₁, -, -, hF0, hF4⟩ := mayFollow_iff.1 h₁
    have hrange₂ := isContinuation_iff.1 h₂
    have hrange₃ := isContinuation_iff.1 h₃
    obtain ⟨n, hn⟩ : ∃ n, n = (((lead.toNat - 0xF0) * 64 + (b₁.toNat - 0x80)) * 64 +
      (b₂.toNat - 0x80)) * 64 + (b₃.toNat - 0x80) := ⟨_, rfl⟩
    have hcombine : combine (lead.toNat - 0xF0) [b₁, b₂, b₃] = Char.ofNat n :=
      congrArg Char.ofNat hn.symm
    rw [hcombine, ofChar_ofNat (Or.inr ⟨by omega, by omega⟩) (by omega)]
    simp only [encodeOne]
    rw [if_neg (by omega), if_neg (by omega), if_neg (by omega), ofNat_eq (b := lead) (by omega),
      ofNat_eq (b := b₁) (by omega), ofNat_eq (b := b₂) (by omega), ofNat_eq (b := b₃) (by omega)]
  isContinuation b hb := by
    rcases List.mem_cons.mp hb with rfl | hb
    · exact isContinuation_iff.2 (mayFollow_iff.1 h₁).1
    · rcases List.mem_cons.mp hb with rfl | hb
      · exact h₂
      · rw [List.mem_singleton.mp hb]
        exact h₃

theorem le_of_not_lt {b n : UInt8} (h : ¬b < n) : n.toNat ≤ b.toNat :=
  Nat.not_lt.mp (mt UInt8.lt_iff_toNat_lt.mpr h)

/-- **The first sequence is read as it was written**, or its first byte is no ASCII byte. -/
theorem head_cases (lead : UInt8) (rest : Bytes) :
    (∃ more rest' c, rest = more ++ rest' ∧ Reads lead more c) ∨
      0x80 ≤ lead.toNat ∧ ∃ width flaw, head lead rest = .flawed width flaw := by
  by_cases hone : lead < 0x80
  · exact Or.inl ⟨[], rest, _, rfl, reads_one (UInt8.lt_iff_toNat_lt.mp hone)⟩
  · have hmany : 0x80 ≤ lead.toNat := le_of_not_lt hone
    by_cases hlead : (decide (lead < 0xC2) || decide (0xF4 < lead)) = true
    · exact Or.inr ⟨hmany, 1, .invalidStart, by unfold head; rw [if_neg hone, if_pos hlead]⟩
    · have hrange : 0xC2 ≤ lead.toNat ∧ lead.toNat ≤ 0xF4 := by
        simpa [UInt8.lt_iff_toNat_lt] using hlead
      -- a sequence goes on as long as its bytes fit
      unfold head
      rw [if_neg hone, if_neg hlead]
      rcases rest with _ | ⟨b₁, rest⟩
      · exact Or.inr ⟨hmany, _, _, rfl⟩
      by_cases h₁ : mayFollow lead b₁ = true
      swap
      · exact Or.inr ⟨hmany, 1, .invalidContinuation, by simp [h₁]⟩
      by_cases htwo : lead < 0xE0
      · exact Or.inl ⟨[b₁], rest, _, rfl, reads_two hrange.1 (UInt8.lt_iff_toNat_lt.mp htwo) h₁⟩
      rcases rest with _ | ⟨b₂, rest⟩
      · exact Or.inr ⟨hmany, 2, .unexpectedEnd, by simp [h₁, htwo]⟩
      by_cases h₂ : isContinuation b₂ = true
      swap
      · exact Or.inr ⟨hmany, 2, .invalidContinuation, by simp [h₁, h₂, htwo]⟩
      by_cases hthree : lead < 0xF0
      · exact Or.inl ⟨[b₁, b₂], rest, _, rfl,
          reads_three (le_of_not_lt htwo) (UInt8.lt_iff_toNat_lt.mp hthree) h₁ h₂⟩
      rcases rest with _ | ⟨b₃, rest⟩
      · exact Or.inr ⟨hmany, 3, .unexpectedEnd, by simp [h₁, h₂, htwo, hthree]⟩
      by_cases h₃ : isContinuation b₃ = true
      · exact Or.inl ⟨[b₁, b₂, b₃], rest, _, rfl,
          reads_four (le_of_not_lt hthree) hrange.2 h₁ h₂ h₃⟩
      · exact Or.inr ⟨hmany, 3, .invalidContinuation, by simp [h₁, h₂, h₃, htwo, hthree]⟩

/-- Bytes are taken apart sequence by sequence. -/
theorem sequences {P : Bytes → Prop} (nil : P [])
    (reads : ∀ lead more c rest, Reads lead more c → P rest → P (lead :: more ++ rest))
    (flawed : ∀ lead rest width flaw, 0x80 ≤ lead.toNat → head lead rest = .flawed width flaw →
      P rest → P (lead :: rest)) : ∀ bytes, P bytes := by
  suffices ∀ n bytes, bytes.length ≤ n → P bytes from fun bytes => this _ bytes (Nat.le_refl _)
  intro n
  induction n with
  | zero => exact fun bytes h => List.eq_nil_of_length_eq_zero (Nat.le_zero.mp h) ▸ nil
  | succ n ih =>
      intro bytes hlength
      cases bytes with
      | nil => exact nil
      | cons lead rest =>
          have hrest : rest.length ≤ n := Nat.le_of_succ_le_succ hlength
          rcases head_cases lead rest with
            ⟨more, rest', c, rfl, hreads⟩ | ⟨hlead, width, flaw, hflawed⟩
          · rw [List.length_append] at hrest
            exact reads lead more c rest' hreads (ih rest' (by omega))
          · exact flawed lead rest width flaw hlead hflawed (ih rest hrest)

/-! ## Reading a name -/

theorem decodeNameFrom_nil (done : Text) (skip : Nat) :
    decodeNameFrom done skip [] = done.reverse := rfl

theorem decodeNameFrom_cons (done : Text) (b : UInt8) (rest : Bytes) :
    decodeNameFrom done 0 (b :: rest) =
      match head b rest with
      | .scalar c width => decodeNameFrom (CodePoint.ofChar c :: done) (width - 1) rest
      | .flawed _ _ => decodeNameFrom (CodePoint.ofNat (0xDC00 + b.toNat) :: done) 0 rest := rfl

theorem decodeNameFrom_done (done : Text) (skip : Nat) (bytes : Bytes) :
    decodeNameFrom done skip bytes = done.reverse ++ decodeNameFrom [] skip bytes := by
  induction bytes generalizing done skip with
  | nil => simp [decodeNameFrom_nil]
  | cons b rest ih =>
      cases skip with
      | succ skip => exact ih done skip
      | zero =>
          rw [decodeNameFrom_cons, decodeNameFrom_cons]
          cases head b rest with
          | scalar c width =>
              dsimp only
              rw [ih (_ :: done), ih [_]]
              simp
          | flawed width flaw =>
              dsimp only
              rw [ih (_ :: done), ih [_]]
              simp

theorem decodeNameFrom_skip (skip : Nat) (bytes : Bytes) :
    decodeNameFrom [] skip bytes = decodeName (bytes.drop skip) := by
  induction bytes generalizing skip with
  | nil => rw [List.drop_nil, decodeName, decodeNameFrom_nil, decodeNameFrom_nil]
  | cons b rest ih =>
      cases skip with
      | succ skip => exact ih skip
      | zero => rfl

theorem decodeName_of_reads {lead : UInt8} {more : Bytes} {c : Char} (h : Reads lead more c)
    (rest : Bytes) :
    decodeName (lead :: more ++ rest) = CodePoint.ofChar c :: decodeName rest := by
  rw [decodeName, List.cons_append, decodeNameFrom_cons, h.head_eq]
  dsimp only
  rw [decodeNameFrom_done, decodeNameFrom_skip]
  simp

theorem decodeName_of_flawed {lead : UInt8} {rest : Bytes} {width : Nat} {flaw : Flaw}
    (h : head lead rest = .flawed width flaw) :
    decodeName (lead :: rest) = CodePoint.ofNat (0xDC00 + lead.toNat) :: decodeName rest := by
  rw [decodeName, decodeNameFrom_cons, h]
  dsimp only
  rw [decodeNameFrom_done, decodeNameFrom_skip]
  simp

/-! ## Writing a name -/

/-- The bytes for which a code point of a file name stands. -/
def nameBytes? (c : CodePoint) : Option Bytes :=
  if isEscapedByte c then some [UInt8.ofNat (c.val - 0xDC00)]
  else if c.isSurrogate then none
  else some (encodeOne c)

/-- The text is encoded as these bytes. -/
def Spells (one : CodePoint → Option Bytes) (t : Text) (bytes : Bytes) : Prop :=
  ∀ done position, encodeFrom one done position t = .ok (done.reverse ++ bytes)

section

variable {one : CodePoint → Option Bytes} {c : CodePoint} {t : Text} {first bytes : Bytes}

theorem encodeFrom_nil (done : Bytes) (position : Nat) :
    encodeFrom one done position [] = .ok done.reverse := rfl

theorem encodeFrom_cons (done : Bytes) (position : Nat) (c : CodePoint) (rest : Text) :
    encodeFrom one done position (c :: rest) =
      match one c with
      | some bytes => encodeFrom one (bytes.reverse ++ done) (position + 1) rest
      | none => .error ⟨position, c, 1 + (rest.takeWhile CodePoint.isSurrogate).length⟩ := rfl

theorem Spells.nil : Spells one [] [] := fun done _ => by rw [encodeFrom_nil, List.append_nil]

theorem Spells.cons (hc : one c = some first) (ht : Spells one t bytes) :
    Spells one (c :: t) (first ++ bytes) := fun done position => by
  rw [encodeFrom_cons, hc]
  dsimp only
  rw [ht]
  simp

theorem encodeName_of_spells (h : Spells nameBytes? t bytes) : encodeName t = .ok bytes := h [] 0

end

theorem nameBytes?_ofChar (c : Char) :
    nameBytes? (CodePoint.ofChar c) = some (encodeOne (CodePoint.ofChar c)) := by
  have hvalid : c.toNat < 0xD800 ∨ 0xDFFF < c.toNat ∧ c.toNat < 0x110000 := c.valid
  have hval : (CodePoint.ofChar c).val = c.toNat := rfl
  have hescaped : isEscapedByte (CodePoint.ofChar c) = false := by
    simp [isEscapedByte, hval]
    omega
  have hsurrogate : (CodePoint.ofChar c).isSurrogate = false := by
    simp [CodePoint.isSurrogate, hval]
    omega
  simp [nameBytes?, hescaped, hsurrogate]

theorem nameBytes?_escape {b : UInt8} (h : 0x80 ≤ b.toNat) :
    nameBytes? (CodePoint.ofNat (0xDC00 + b.toNat)) = some [b] := by
  have hlt := b.toNat_lt
  have hval : (CodePoint.ofNat (0xDC00 + b.toNat)).val = 0xDC00 + b.toNat := by
    rw [CodePoint.ofNat, dif_pos (by omega)]
  have hescaped : isEscapedByte (CodePoint.ofNat (0xDC00 + b.toNat)) = true := by
    simp [isEscapedByte, hval]
    omega
  rw [nameBytes?, if_pos hescaped, hval, ofNat_eq (b := b) (by omega)]

/-- **No byte of a name is lost.** -/
theorem spells_decodeName (bytes : Bytes) : Spells nameBytes? (decodeName bytes) bytes := by
  induction bytes using sequences with
  | nil => exact .nil
  | reads lead more c rest hreads ih =>
      rw [decodeName_of_reads hreads]
      refine ih.cons ?_
      rw [nameBytes?_ofChar, hreads.encodeOne_eq]
  | flawed lead rest width flaw hlead hflawed ih =>
      rw [decodeName_of_flawed hflawed]
      show Spells nameBytes? _ ([lead] ++ rest)
      exact ih.cons (nameBytes?_escape hlead)

theorem encodeName_decodeName (bytes : Bytes) : encodeName (decodeName bytes) = .ok bytes :=
  encodeName_of_spells (spells_decodeName bytes)

/-! ## ASCII bytes -/

/-- An ASCII byte belongs to no sequence but its own. -/
theorem Reads.before_ascii {lead mark : UInt8} {more front back rest : Bytes} {c : Char}
    (h : Reads lead more c) (hmark : mark.toNat < 0x80)
    (hsplit : front ++ mark :: back = more ++ rest) : ∃ front', front = more ++ front' := by
  have hfree : mark ∉ more := fun hmem => by
    have := isContinuation_iff.1 (h.isContinuation mark hmem)
    omega
  rcases List.append_eq_append_iff.mp hsplit with ⟨between, rfl, hback⟩ | ⟨front', rfl, -⟩
  · cases between with
    | nil => exact ⟨[], by simp⟩
    | cons b between =>
        obtain ⟨rfl, -⟩ := List.cons.inj hback
        exact absurd (List.mem_append_right _ List.mem_cons_self) hfree
  · exact ⟨front', rfl⟩

theorem decodeName_ascii {mark : UInt8} (hmark : mark.toNat < 0x80) (back : Bytes) :
    decodeName (mark :: back) = CodePoint.ofNat mark.toNat :: decodeName back := by
  have hread := decodeName_of_reads (reads_one hmark) back
  rw [ofChar_ofNat (Or.inl (by omega)) (by omega)] at hread
  rw [CodePoint.ofNat, dif_pos (by omega)]
  exact hread

/-- **Reading a name commutes with cutting it at an ASCII byte.** -/
theorem decodeName_append_cons {mark : UInt8} (hmark : mark.toNat < 0x80) (front back : Bytes) :
    decodeName (front ++ mark :: back) =
      decodeName front ++ CodePoint.ofNat mark.toNat :: decodeName back := by
  induction front using sequences with
  | nil => exact decodeName_ascii hmark back
  | reads lead more c rest hreads ih =>
      rw [List.append_assoc, decodeName_of_reads hreads, decodeName_of_reads hreads, ih]
      rfl
  | flawed lead rest width flaw hlead hflawed ih =>
      -- what begins no sequence begins none with the byte behind it
      rcases head_cases lead (rest ++ mark :: back) with
        ⟨more, rest', c, hsplit, hreads⟩ | ⟨-, width', flaw', hflawed'⟩
      · obtain ⟨front', rfl⟩ := hreads.before_ascii hmark hsplit
        rw [hreads.head_eq] at hflawed
        cases hflawed
      · rw [List.cons_append, decodeName_of_flawed hflawed', decodeName_of_flawed hflawed, ih]
        rfl

/-- An ASCII character of a name comes from its byte. -/
theorem mem_of_mem_decodeName {mark : UInt8} (hmark : mark.toNat < 0x80) {bytes : Bytes}
    (h : CodePoint.ofNat mark.toNat ∈ decodeName bytes) : mark ∈ bytes := by
  have hval : (CodePoint.ofNat mark.toNat).val = mark.toNat := by
    rw [CodePoint.ofNat, dif_pos (by omega)]
  induction bytes using sequences with
  | nil => exact absurd h List.not_mem_nil
  | reads lead more c rest hreads ih =>
      rw [decodeName_of_reads hreads] at h
      rcases List.mem_cons.mp h with hc | hrest
      · have hone := hreads.encodeOne_eq
        rw [← hc, encodeOne] at hone
        simp only [hval, if_pos hmark, UInt8.ofNat_toNat] at hone
        rw [(List.cons.inj hone).1]
        exact List.mem_cons_self
      · exact List.mem_append_right _ (ih hrest)
  | flawed lead rest width flaw hlead hflawed ih =>
      rw [decodeName_of_flawed hflawed] at h
      rcases List.mem_cons.mp h with hc | hrest
      · have hlt := lead.toNat_lt
        have hnumber := congrArg CodePoint.val hc
        rw [hval, CodePoint.ofNat, dif_pos (by omega)] at hnumber
        dsimp only at hnumber
        omega
      · exact List.mem_cons_of_mem _ (ih hrest)

end LanguageClient.Utf8
