import LanguageClient.Proofs.Text.Name

/-!
# A stream that is read in pieces

What is written in UTF-8 is decoded as it was (`decode_ofChars_eq`), and it does not matter where it is
cut into pieces (`decodePieces_eq`): a piece that ends inside a sequence ends with a flaw of its own
kind, `unexpectedEnd`, and the bytes of that sequence are kept for the next piece.
-/

namespace LanguageClient.Utf8

/-! ## The sequence of a character -/

theorem toNat_ofNat {n : Nat} (h : n < 256) : (UInt8.ofNat n).toNat = n := by
  rw [UInt8.toNat_ofNat']
  omega

theorem isContinuation_tail (n : Nat) : isContinuation (UInt8.ofNat (0x80 + n % 64)) = true := by
  rw [isContinuation_iff, toNat_ofNat (by omega)]
  omega

theorem char_eq {c : Char} {n : Nat} (h : n = c.toNat) : Char.ofNat n = c := by
  rw [h, Char.ofNat_toNat]

/-- **Every character has a sequence that spells it.** -/
theorem exists_reads (c : Char) : ∃ lead more, Reads lead more c := by
  have hvalid : c.toNat < 0xD800 ∨ 0xDFFF < c.toNat ∧ c.toNat < 0x110000 := c.valid
  generalize hn : c.toNat = n at hvalid
  rcases Nat.lt_or_ge n 0x80 with hone | hone
  · have hlead : (UInt8.ofNat n).toNat = n := toNat_ofNat (by omega)
    have hreads : Reads (UInt8.ofNat n) [] _ := reads_one (by omega)
    rw [hlead, char_eq hn.symm] at hreads
    exact ⟨_, _, hreads⟩
  rcases Nat.lt_or_ge n 0x800 with htwo | htwo
  · have hlead : (UInt8.ofNat (0xC0 + n / 64)).toNat = 0xC0 + n / 64 := toNat_ofNat (by omega)
    have htail : (UInt8.ofNat (0x80 + n % 64)).toNat = 0x80 + n % 64 := toNat_ofNat (by omega)
    have hreads : Reads (UInt8.ofNat (0xC0 + n / 64)) [UInt8.ofNat (0x80 + n % 64)] _ :=
      reads_two (by omega) (by omega) (mayFollow_iff.mpr (by omega))
    have hchar : combine (0xC0 + n / 64 - 0xC0) [UInt8.ofNat (0x80 + n % 64)] = c := by
      simp only [combine, List.foldl_cons, List.foldl_nil, htail]
      exact char_eq (by omega)
    rw [hlead, hchar] at hreads
    exact ⟨_, _, hreads⟩
  have htail (m : Nat) : (UInt8.ofNat (0x80 + m % 64)).toNat = 0x80 + m % 64 :=
    toNat_ofNat (by omega)
  rcases Nat.lt_or_ge n 0x10000 with hthree | hthree
  · have hlead : (UInt8.ofNat (0xE0 + n / 4096)).toNat = 0xE0 + n / 4096 := toNat_ofNat (by omega)
    have hfirst := htail (n / 64)
    have hreads : Reads (UInt8.ofNat (0xE0 + n / 4096))
        [UInt8.ofNat (0x80 + n / 64 % 64), UInt8.ofNat (0x80 + n % 64)] _ :=
      reads_three (by omega) (by omega) (mayFollow_iff.mpr (by omega)) (isContinuation_tail n)
    have hchar : combine (0xE0 + n / 4096 - 0xE0)
        [UInt8.ofNat (0x80 + n / 64 % 64), UInt8.ofNat (0x80 + n % 64)] = c := by
      simp only [combine, List.foldl_cons, List.foldl_nil, htail]
      exact char_eq (by omega)
    rw [hlead, hchar] at hreads
    exact ⟨_, _, hreads⟩
  · have hlead : (UInt8.ofNat (0xF0 + n / 262144)).toNat = 0xF0 + n / 262144 :=
      toNat_ofNat (by omega)
    have hfirst := htail (n / 4096)
    have hreads : Reads (UInt8.ofNat (0xF0 + n / 262144)) [UInt8.ofNat (0x80 + n / 4096 % 64),
        UInt8.ofNat (0x80 + n / 64 % 64), UInt8.ofNat (0x80 + n % 64)] _ :=
      reads_four (by omega) (by omega) (mayFollow_iff.mpr (by omega))
        (isContinuation_tail (n / 64)) (isContinuation_tail n)
    have hchar : combine (0xF0 + n / 262144 - 0xF0) [UInt8.ofNat (0x80 + n / 4096 % 64),
        UInt8.ofNat (0x80 + n / 64 % 64), UInt8.ofNat (0x80 + n % 64)] = c := by
      simp only [combine, List.foldl_cons, List.foldl_nil, htail]
      exact char_eq (by omega)
    rw [hlead, hchar] at hreads
    exact ⟨_, _, hreads⟩

theorem ofChars_cons_eq (c : Char) (cs : List Char) :
    ofChars (c :: cs) = encodeOne (CodePoint.ofChar c) ++ ofChars cs :=
  List.flatMap_cons

/-! ## Decoding -/

theorem decodeFrom_skip (done : List Char) (position : Nat) (passed rest : Bytes) :
    decodeFrom done position passed.length (passed ++ rest) =
      decodeFrom done (position + passed.length) 0 rest := by
  induction passed generalizing position with
  | nil => rfl
  | cons b passed ih =>
      have hposition : position + (b :: passed).length = position + 1 + passed.length := by
        rw [List.length_cons]
        omega
      rw [hposition, ← ih]
      rfl

theorem decodeFrom_reads {lead : UInt8} {more : Bytes} {c : Char} (h : Reads lead more c)
    (done : List Char) (position : Nat) (rest : Bytes) :
    decodeFrom done position 0 (lead :: more ++ rest) =
      decodeFrom (c :: done) (position + (lead :: more).length) 0 rest := by
  rw [List.cons_append, decodeFrom, h.head_eq]
  dsimp only
  rw [Nat.add_sub_cancel, decodeFrom_skip, List.length_cons]
  congr 1
  omega

/-- What follows some characters is decoded as it would be alone, further on. -/
theorem decodeFrom_ofChars_append (cs : List Char) (rest : Bytes) (done : List Char)
    (position : Nat) :
    decodeFrom done position 0 (ofChars cs ++ rest) =
      decodeFrom (cs.reverse ++ done) (position + (ofChars cs).length) 0 rest := by
  induction cs generalizing done position with
  | nil => rfl
  | cons c cs ih =>
      obtain ⟨lead, more, hreads⟩ := exists_reads c
      rw [ofChars_cons_eq, hreads.encodeOne_eq, List.append_assoc, decodeFrom_reads hreads, ih,
        List.length_append, Nat.add_assoc]
      simp

theorem decode_ofChars_eq (cs : List Char) : decode (ofChars cs) = .ok cs := by
  have h := decodeFrom_ofChars_append cs [] [] 0
  rw [List.append_nil, List.append_nil] at h
  rw [decode, h, decodeFrom, List.reverse_reverse]

/-! ## Sequences that are cut -/

/-- The bytes are a part of the sequence that stands first: neither nothing of it nor all of it. -/
structure CutsFirst (part : Bytes) (cs : List Char) : Prop where
  ne_nil : part ≠ []
  exists_rest : ∃ c more, cs.head? = some c ∧ more ≠ [] ∧ encodeOne (CodePoint.ofChar c) = part ++ more

/-- The head of a sequence that has been cut asks for what is missing. -/
theorem head_of_cut {lead : UInt8} {front back : Bytes} {c : Char} (hback : back ≠ [])
    (h : head lead (front ++ back) = .scalar c (front ++ back).length.succ) :
    head lead front = .flawed (front.length + 1) .unexpectedEnd := by
  have hlength := List.length_pos_iff.mpr hback
  unfold head at h ⊢
  by_cases hone : lead < 0x80
  · rw [if_pos hone] at h
    injection h with _ hwidth
    simp only [List.length_append] at hwidth
    omega
  by_cases hlead : (decide (lead < 0xC2) || decide (0xF4 < lead)) = true
  · rw [if_neg hone, if_pos hlead] at h
    cases h
  rw [if_neg hone, if_neg hlead] at h ⊢
  rcases front with _ | ⟨b₁, front⟩
  · rfl
  by_cases h₁ : mayFollow lead b₁ = true
  swap
  · simp [h₁] at h
  by_cases htwo : lead < 0xE0
  · simp [h₁, htwo, hback] at h
  rcases front with _ | ⟨b₂, front⟩
  · simp [h₁, htwo]
  by_cases h₂ : isContinuation b₂ = true
  swap
  · simp [h₁, h₂, htwo] at h
  by_cases hthree : lead < 0xF0
  · simp [h₁, h₂, htwo, hthree, hback] at h
  rcases front with _ | ⟨b₃, front⟩
  · simp [h₁, h₂, htwo, hthree]
  by_cases h₃ : isContinuation b₃ = true
  · simp [h₁, h₂, h₃, htwo, hthree, hback] at h
  · simp [h₁, h₂, h₃, htwo, hthree] at h

theorem decodeFrom_cut {part : Bytes} {cs : List Char} (h : CutsFirst part cs) (done : List Char)
    (position : Nat) :
    decodeFrom done position 0 part = .error ⟨position, part, .unexpectedEnd⟩ := by
  obtain ⟨hne, c, missing, -, hmissing, hencode⟩ := h
  obtain ⟨lead, more, hreads⟩ := exists_reads c
  obtain ⟨first, front, rfl⟩ := List.exists_cons_of_ne_nil hne
  obtain ⟨rfl, rfl⟩ : lead = first ∧ more = front ++ missing := by
    have := hreads.encodeOne_eq.symm.trans hencode
    rw [List.cons_append] at this
    exact List.cons.inj this
  have hhead := hreads.head_eq []
  rw [List.append_nil] at hhead
  rw [decodeFrom, head_of_cut hmissing hhead]
  simp

/-- Where encoded characters are cut, whole ones come before and the rest of them behind. -/
theorem exists_cut {cs : List Char} {front back : Bytes} (h : front ++ back = ofChars cs) :
    ∃ whole later part, cs = whole ++ later ∧ front = ofChars whole ++ part ∧
      part ++ back = ofChars later ∧ (part = [] ∨ CutsFirst part later) := by
  induction cs generalizing front with
  | nil =>
      obtain ⟨rfl, rfl⟩ := List.append_eq_nil_iff.mp h
      exact ⟨[], [], [], rfl, rfl, rfl, Or.inl rfl⟩
  | cons c cs ih =>
      rw [ofChars_cons_eq] at h
      rcases List.append_eq_append_iff.mp h with ⟨missing, hone, hback⟩ | ⟨front', rfl, hcs⟩
      · by_cases hmissing : missing = []
        · subst hmissing
          rw [List.append_nil] at hone
          refine ⟨[c], cs, [], rfl, ?_, hback, Or.inl rfl⟩
          rw [ofChars_cons_eq, hone]
          simp
        · by_cases hfront : front = []
          · subst hfront
            exact ⟨[], c :: cs, [], rfl, rfl, h.trans (ofChars_cons_eq c cs).symm, Or.inl rfl⟩
          · exact ⟨[], c :: cs, front, rfl, rfl, h.trans (ofChars_cons_eq c cs).symm,
              Or.inr ⟨hfront, c, missing, rfl, hmissing, hone⟩⟩
      · obtain ⟨whole, later, part, rfl, rfl, hlater, hcut⟩ := ih hcs.symm
        refine ⟨c :: whole, later, part, rfl, ?_, hlater, hcut⟩
        rw [ofChars_cons_eq, List.append_assoc]

/-! ## Pieces -/

/-- **What was written is read, wherever it is cut.** -/
theorem decodePieces_eq (pieces : List Bytes) {cs done : List Char} {pending : Bytes}
    (hpending : pending = [] ∨ CutsFirst pending cs) (h : pending ++ pieces.flatten = ofChars cs) :
    decodePieces done pending pieces = .ok (done ++ cs) := by
  induction pieces generalizing cs done pending with
  | nil =>
      rw [List.flatten_nil, List.append_nil] at h
      rcases hpending with rfl | ⟨hne, c, more, hhead, hmore, hencode⟩
      · cases cs with
        | nil => simp [decodePieces]
        | cons c cs =>
            obtain ⟨lead, more, hreads⟩ := exists_reads c
            rw [ofChars_cons_eq, hreads.encodeOne_eq] at h
            cases h
      · -- a part of a sequence is shorter than the sequence
        cases cs with
        | nil => cases hhead
        | cons c' cs =>
            obtain rfl : c' = c := Option.some.inj hhead
            have hlength := congrArg List.length h
            rw [ofChars_cons_eq, hencode, List.append_assoc, List.length_append,
              List.length_append] at hlength
            have := List.length_pos_iff.mpr hmore
            omega
  | cons piece pieces ih =>
      rw [List.flatten_cons, ← List.append_assoc] at h
      obtain ⟨whole, later, part, rfl, hfront, hlater, hcut⟩ := exists_cut h
      rw [decodePieces, hfront]
      rcases hcut with rfl | hcut
      · rw [List.append_nil, decode_ofChars_eq]
        dsimp only
        rw [ih (Or.inl rfl) hlater, List.append_assoc]
      · have hflawed : decode (ofChars whole ++ part) =
            .error ⟨(ofChars whole).length, part, .unexpectedEnd⟩ := by
          rw [decode, decodeFrom_ofChars_append, decodeFrom_cut hcut, Nat.zero_add]
        rw [hflawed]
        simp only [ne_eq, not_true_eq_false, if_false, List.take_left, decode_ofChars_eq]
        rw [ih (Or.inr hcut) hlater, List.append_assoc]

theorem flatten_piecesOf {size : Nat} (hsize : 0 < size) {fuel : Nat} {bytes : Bytes}
    (h : bytes.length < fuel) : (piecesOf size fuel bytes).flatten = bytes := by
  induction fuel generalizing bytes with
  | zero => omega
  | succ fuel ih =>
      unfold piecesOf
      cases bytes with
      | nil => rfl
      | cons b bytes =>
          rw [if_neg (by simp), List.flatten_cons, ih, List.take_append_drop]
          rw [List.length_drop, List.length_cons] at *
          omega

/-- **A stream is decoded as it was written.** -/
theorem decodeStream_ofChars (cs : List Char) : decodeStream (ofChars cs) = .ok cs := by
  have hpieces : (piecesOf pieceSize ((ofChars cs).length + 1) (ofChars cs)).flatten = ofChars cs :=
    flatten_piecesOf (by decide) (Nat.lt_succ_self _)
  exact decodePieces_eq _ (Or.inl rfl) hpieces

end LanguageClient.Utf8
