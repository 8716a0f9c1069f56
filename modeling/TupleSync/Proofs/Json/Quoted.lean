import TupleSync.Json.Quoted

/-!
# Texts are read as they were written

**A literal has one piece or more for each character of its text, and the pieces join to the text
again.** `pieces` is the middle: what the first pass makes of an escaped character, and what the second
pass makes the character of. A control character without a short escape is one code unit; every other
character is its bytes, whether it is escaped or not.

The bytes of a character that is not escaped start no escape and end no literal: they are the character
itself if it is ASCII, and above ASCII otherwise.
-/

set_option autoImplicit false

namespace TupleSync.Json.Quoted

/-- The pieces of a character in a written literal. -/
def pieces (c : Char) : List Piece :=
  if c.toNat < 32 ∧ c ∉ ['\x08', '\t', '\n', '\x0c', '\r'] then [.unit c.toNat]
  else (String.utf8EncodeChar c).map .byte

/-! ## First pass -/

theorem mem_utf8EncodeChar {c : Char} {b : UInt8} (h : b ∈ String.utf8EncodeChar c) :
    b.toNat = c.toNat ∨ 128 ≤ b.toNat := by
  rw [String.utf8EncodeChar.eq_1] at h
  split at h
  · next hascii =>
    rw [List.mem_singleton.1 h, UInt8.toNat_ofNat']
    exact Or.inl (Nat.mod_eq_of_lt (Nat.lt_of_le_of_lt hascii (by decide)))
  · right
    split at h
    · simp only [List.mem_cons, List.not_mem_nil, or_false] at h
      rcases h with rfl | rfl <;> rw [UInt8.toNat_ofNat'] <;> omega
    · split at h
      · simp only [List.mem_cons, List.not_mem_nil, or_false] at h
        rcases h with rfl | rfl | rfl <;> rw [UInt8.toNat_ofNat'] <;> omega
      · simp only [List.mem_cons, List.not_mem_nil, or_false] at h
        rcases h with rfl | rfl | rfl | rfl <;> rw [UInt8.toNat_ofNat'] <;> omega

/-- The bytes of a character that is not escaped look like no escape and no end. -/
theorem plain_of_mem_utf8EncodeChar {c : Char} (hquote : c ≠ '\x22') (hslash : c ≠ '\\')
    (hcontrol : ¬c.toNat < 32) {b : UInt8} (h : b ∈ String.utf8EncodeChar c) :
    b ≠ 34 ∧ b ≠ 92 ∧ ¬b < 32 := by
  have hcode : b.toNat = c.toNat ∨ 128 ≤ b.toNat := mem_utf8EncodeChar h
  have hquote' : c.toNat ≠ 34 := fun h => hquote (Char.toNat_inj.1 h)
  have hslash' : c.toNat ≠ 92 := fun h => hslash (Char.toNat_inj.1 h)
  refine ⟨?_, ?_, ?_⟩
  · rintro rfl
    have : (34 : UInt8).toNat = 34 := rfl
    omega
  · rintro rfl
    have : (92 : UInt8).toNat = 92 := rfl
    omega
  · rw [UInt8.lt_iff_toNat_lt]
    have : (32 : UInt8).toNat = 32 := rfl
    omega

/-- A byte that is neither a quote nor a backslash nor a control character is a piece. -/
theorem cutOnto_byte {b : UInt8} (hquote : b ≠ 34) (hslash : b ≠ 92) (hcontrol : ¬b < 32)
    (seen : List Piece) (rest : List UInt8) :
    cutOnto seen (b :: rest) = cutOnto (.byte b :: seen) rest := by
  rw [cutOnto.eq_def]
  split
  · next h => cases h
  · next h => exact absurd (List.cons.inj h).1 hquote
  · next h => exact absurd (List.cons.inj h).1 hslash
  · next h => exact absurd (List.cons.inj h).1 hslash
  · next h => exact absurd (List.cons.inj h).1 hslash
  · next h => exact absurd (List.cons.inj h).1 hslash
  · next h =>
    obtain ⟨rfl, rfl⟩ := List.cons.inj h
    exact if_neg hcontrol

theorem cutOnto_bytes {bytes : List UInt8} (h : ∀ b ∈ bytes, b ≠ 34 ∧ b ≠ 92 ∧ ¬b < 32)
    (seen : List Piece) (rest : List UInt8) :
    cutOnto seen (bytes ++ rest) = cutOnto ((bytes.map .byte).reverse ++ seen) rest := by
  induction bytes generalizing seen with
  | nil => rfl
  | cons b bytes ih =>
    obtain ⟨⟨hquote, hslash, hcontrol⟩, hrest⟩ := List.forall_mem_cons.1 h
    rw [List.cons_append, cutOnto_byte hquote hslash hcontrol, ih hrest]
    simp

theorem hexValue?_hexDigit : ∀ n < 16, hexValue? (hexDigit n) = some n := by decide

theorem codeUnit?_hexDigits {n : Nat} (h : n < 256) :
    codeUnit? 48 48 (hexDigit (n / 16)) (hexDigit (n % 16)) = some n := by
  rw [codeUnit?, hexValue?_hexDigit _ (by omega), hexValue?_hexDigit _ (by omega)]
  show some (_ + n / 16 * 16 + n % 16) = some n
  have hzero : (0 * 16 + 0) * 256 + n / 16 * 16 + n % 16 = n := by omega
  exact congrArg some hzero

/-- **The first pass cuts an escaped character into its pieces.** -/
theorem cutOnto_escaped (c : Char) (seen : List Piece) (rest : List UInt8) :
    cutOnto seen (escaped c ++ rest) = cutOnto ((pieces c).reverse ++ seen) rest := by
  unfold escaped
  split
  · rfl
  · rfl
  · rfl
  · rfl
  · rfl
  · rfl
  · rfl
  · next hquote hslash hb ht hn hf hr =>
    split
    · next hcontrol =>
      have hunit : pieces c = [.unit c.toNat] := by
        refine if_pos ⟨hcontrol, ?_⟩
        simp only [List.mem_cons, List.not_mem_nil, or_false, not_or]
        exact ⟨hb, ht, hn, hf, hr⟩
      have hdigits := codeUnit?_hexDigits (Nat.lt_trans hcontrol (by decide : 32 < 256))
      rw [hunit, List.cons_append, List.cons_append, cutOnto.eq_def]
      simp only [List.cons_append, List.nil_append]
      rw [hdigits]
      rfl
    · next hcontrol =>
      have hbytes : pieces c = (String.utf8EncodeChar c).map .byte :=
        if_neg fun h => hcontrol h.1
      rw [hbytes]
      exact cutOnto_bytes (fun _ => plain_of_mem_utf8EncodeChar hquote hslash hcontrol) seen rest

theorem cutOnto_flatMap_escaped (cs : List Char) (seen : List Piece) (rest : List UInt8) :
    cutOnto seen (cs.flatMap escaped ++ rest) = cutOnto ((cs.flatMap pieces).reverse ++ seen) rest := by
  induction cs generalizing seen with
  | nil => rfl
  | cons c cs ih =>
    rw [List.flatMap_cons, List.flatMap_cons, List.append_assoc, cutOnto_escaped, ih,
      List.reverse_append, List.append_assoc]

/-- **A written literal is cut where it ends.** -/
theorem cut_escaped (s : String) (rest : List UInt8) :
    cut (s.toList.flatMap escaped ++ 34 :: rest) = .closed (s.toList.flatMap pieces) rest := by
  rw [cut, cutOnto_flatMap_escaped, cutOnto, List.append_nil, List.reverse_reverse]

/-! ## Second pass -/

theorem joinOnto_bytes (dangling : Fault) (bs done : List UInt8) (ps : List Piece) :
    joinOnto dangling done (bs.map .byte ++ ps) = joinOnto dangling (bs.reverse ++ done) ps := by
  induction bs generalizing done with
  | nil => rfl
  | cons b bs ih =>
    rw [List.map_cons, List.cons_append, joinOnto, ih, List.reverse_cons, List.append_assoc]
    rfl

/-- **The second pass joins the pieces of a character to the character.** -/
theorem joinOnto_pieces (dangling : Fault) (c : Char) (done : List UInt8) (ps : List Piece) :
    joinOnto dangling done (pieces c ++ ps) =
      joinOnto dangling ((String.utf8EncodeChar c).reverse ++ done) ps := by
  unfold pieces
  split
  · next hcontrol =>
    have hleading : isLeading c.toNat = false := by
      rw [isLeading, Bool.and_eq_false_iff, decide_eq_false_iff_not]
      exact Or.inl (by omega)
    have htrailing : isTrailing c.toNat = false := by
      rw [isTrailing, Bool.and_eq_false_iff, decide_eq_false_iff_not]
      exact Or.inl (by omega)
    rw [List.cons_append, List.nil_append, joinOnto.eq_def]
    simp only [hleading, htrailing, Bool.false_eq_true, if_false, Char.ofNat_toNat]
  · exact joinOnto_bytes dangling _ done ps

theorem joinOnto_flatMap_pieces (dangling : Fault) (cs : List Char) (done : List UInt8) :
    joinOnto dangling done (cs.flatMap pieces) =
      .ok (done.reverse ++ cs.flatMap String.utf8EncodeChar) := by
  induction cs generalizing done with
  | nil => rw [List.flatMap_nil, List.flatMap_nil, joinOnto, List.append_nil]
  | cons c cs ih =>
    rw [List.flatMap_cons, List.flatMap_cons, joinOnto_pieces, ih, List.reverse_append,
      List.reverse_reverse, List.append_assoc]

theorem fromUTF8?_utf8 (s : String) :
    String.fromUTF8? ⟨(s.toList.flatMap String.utf8EncodeChar).toArray⟩ = some s := by
  have hbytes : (⟨(s.toList.flatMap String.utf8EncodeChar).toArray⟩ : ByteArray) = s.toByteArray := by
    rw [← String.utf8Encode_toList, List.utf8Encode]
    exact ByteArray.ext List.data_toByteArray.symm
  rw [hbytes, String.fromUTF8?, dif_pos s.isValidUTF8]
  rfl

/-- **The pieces of a written literal are its text.** -/
theorem text_pieces (s : String) : text (s.toList.flatMap pieces) = .ok s := by
  rw [text, joinOnto_flatMap_pieces]
  dsimp only [bind, Except.bind]
  rw [List.reverse_nil, List.nil_append, fromUTF8?_utf8]

end TupleSync.Json.Quoted
