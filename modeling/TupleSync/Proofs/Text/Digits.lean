import TupleSync.Text.Digits

/-!
# Written numbers

**The digits of a number say the number, and no other digits are written.** They are digits, there is no
needless zero in front, and padding changes the width and not the value. Whole numbers in JSON and the
parts of a written time are both made of such digits.
-/

set_option autoImplicit false

namespace TupleSync.Text

theorem isDigit_eq (c : Char) : isDigit c = c.isDigit := by
  rw [Bool.eq_iff_iff, Char.isDigit_iff_toNat, isDigit, Bool.and_eq_true, decide_eq_true_eq,
    decide_eq_true_eq, Char.le_def, Char.le_def, UInt32.le_iff_toNat_le, UInt32.le_iff_toNat_le]
  rfl

theorem digitsValue_eq (ds : List Char) : digitsValue ds = Nat.ofDigitChars 10 ds 0 := by
  rw [digitsValue, Nat.ofDigitChars_eq_foldl]
  congr 1
  funext n c
  rw [Nat.mul_comm]
  rfl

theorem isDigit_of_mem_toDigits {n : Nat} {c : Char} (h : c ∈ Nat.toDigits 10 n) :
    isDigit c = true := by
  rw [isDigit_eq]
  exact Nat.isDigit_of_mem_toDigits (by decide) (by decide) h

/-- Only zero is written with a zero in front. -/
theorem eq_nil_of_toDigits_eq_cons {n : Nat} {rest : List Char}
    (h : Nat.toDigits 10 n = '0' :: rest) : rest = [] := by
  -- all digits but the last are those of the number without its last digit
  induction n using Nat.strongRecOn generalizing rest with
  | ind n ih =>
    by_cases hlt : n < 10
    · rw [Nat.toDigits_of_lt_base hlt] at h
      exact (List.cons.inj h).2.symm
    · have hge : 10 ≤ n := Nat.not_lt.1 hlt
      rw [Nat.toDigits_of_base_le (by decide) hge] at h
      cases hfront : Nat.toDigits 10 (n / 10) with
      | nil => exact absurd hfront Nat.toDigits_ne_nil
      | cons c front =>
        rw [hfront] at h
        obtain ⟨rfl, -⟩ := List.cons.inj h
        have hzero : front = [] := ih (n / 10) (by omega) hfront
        -- so the number without its last digit is zero, which is too small
        have hvalue := @Nat.ofDigitChars_ten_toDigits (n / 10)
        rw [hfront, hzero] at hvalue
        have : 0 = n / 10 := hvalue
        omega

/-! ## Padding -/

theorem isDigit_of_mem_padded {width n : Nat} {c : Char} (h : c ∈ padded width n) :
    isDigit c = true := by
  rcases List.mem_append.1 h with h | h
  · rw [(List.mem_replicate.1 h).2]
    rfl
  · exact isDigit_of_mem_toDigits h

@[simp] theorem digitsValue_padded (width n : Nat) : digitsValue (padded width n) = n := by
  rw [digitsValue_eq, padded, Nat.ofDigitChars_append, Nat.ofDigitChars_replicate_zero, Nat.mul_zero,
    Nat.ofDigitChars_ten_toDigits]

theorem length_padded {width n : Nat} (hwidth : 0 < width) (h : n < Nat.pow 10 width) :
    (padded width n).length = width := by
  have hle := (Nat.length_toDigits_le_iff (by decide) hwidth).2 h
  rw [padded, List.length_append, List.length_replicate]
  omega

theorem padded_ne_nil (width n : Nat) : padded width n ≠ [] := by
  intro h
  exact Nat.toDigits_ne_nil (List.append_eq_nil_iff.1 h).2

end TupleSync.Text
