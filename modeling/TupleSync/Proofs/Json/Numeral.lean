import TupleSync.Json.Numeral
import TupleSync.Proofs.Text.Digits

/-!
# Whole numbers are read as they were written

**The literal of a whole number is cut whole, if what follows it cannot go on with it, and has the
number for its value.** What stands behind a value in a compact text is a comma, a closing bracket or
nothing, none of which belongs to a number.

The limit of magnitude is no matter for a number of 64 bits: its digits all fit into the significand,
and rounding a significand to 53 bits at most doubles it.
-/

set_option autoImplicit false

namespace TupleSync.Json.Numeral

/-! ## Digits -/

theorem toNat_of_isDigit {c : Char} (h : Text.isDigit c = true) :
    c.toNat.toUInt8.toNat = c.toNat ∧ 48 ≤ c.toNat ∧ c.toNat ≤ 57 := by
  rw [Text.isDigit_eq, Char.isDigit_iff_toNat] at h
  have hlow : 48 ≤ c.toNat := h.1
  have hhigh : c.toNat ≤ 57 := h.2
  refine ⟨?_, hlow, hhigh⟩
  rw [Nat.toUInt8_eq, UInt8.toNat_ofNat']
  omega

theorem isDigit_iff {b : UInt8} : isDigit b = true ↔ 48 ≤ b.toNat ∧ b.toNat ≤ 57 := by
  rw [isDigit, Bool.and_eq_true, decide_eq_true_eq, decide_eq_true_eq, UInt8.le_iff_toNat_le,
    UInt8.le_iff_toNat_le]
  rfl

theorem isDigit_of_mem_digits {n : Nat} {b : UInt8} (h : b ∈ digits n) : isDigit b = true := by
  obtain ⟨c, hc, rfl⟩ := List.mem_map.1 h
  obtain ⟨hbyte, hrange⟩ := toNat_of_isDigit (Text.isDigit_of_mem_toDigits hc)
  rw [isDigit_iff, hbyte]
  exact hrange

theorem digits_ne_nil (n : Nat) : digits n ≠ [] := by
  intro h
  exact Nat.toDigits_ne_nil (List.map_eq_nil_iff.1 h)

/-- Only zero is written with a zero in front. -/
theorem eq_nil_of_digits_eq_cons {n : Nat} {rest : List UInt8} (h : digits n = 48 :: rest) :
    rest = [] := by
  obtain ⟨c, cs, hdigits, hc, rfl⟩ := List.map_eq_cons_iff.1 h
  have hdigit : Text.isDigit c = true := by
    apply Text.isDigit_of_mem_toDigits (n := n)
    rw [hdigits]
    exact List.mem_cons_self
  have hzero : c = '0' := by
    have hbyte := (toNat_of_isDigit hdigit).1
    rw [hc] at hbyte
    exact Char.toNat_inj.1 hbyte.symm
  rw [hzero] at hdigits
  rw [Text.eq_nil_of_toDigits_eq_cons hdigits]
  rfl

theorem foldl_digits (m : Nat) (cs : List Char) (h : ∀ c ∈ cs, Text.isDigit c = true) :
    (cs.map fun c => c.toNat.toUInt8).foldl (fun n d => n * 10 + digitValue d) m =
      cs.foldl (fun n c => n * 10 + Text.digitValue c) m := by
  induction cs generalizing m with
  | nil => rfl
  | cons c cs ih =>
    obtain ⟨hc, hcs⟩ := List.forall_mem_cons.1 h
    have hdigit : digitValue c.toNat.toUInt8 = Text.digitValue c := by
      rw [digitValue, (toNat_of_isDigit hc).1, Text.digitValue]
    rw [List.map_cons, List.foldl_cons, List.foldl_cons, hdigit]
    exact ih _ hcs

@[simp] theorem value_digits (n : Nat) : value (digits n) = n := by
  have hfold := foldl_digits 0 (Nat.toDigits 10 n) fun _ => Text.isDigit_of_mem_toDigits
  refine hfold.trans ?_
  show Text.digitsValue (Nat.toDigits 10 n) = n
  rw [Text.digitsValue_eq, Nat.ofDigitChars_ten_toDigits]

/-! ## Magnitude -/

theorem le_foldl_digits (m : Nat) (ds : List UInt8) :
    m ≤ ds.foldl (fun n d => n * 10 + digitValue d) m := by
  induction ds generalizing m with
  | nil => exact Nat.le_refl _
  | cons d ds ih =>
    have hone : m ≤ m * 10 + digitValue d := by omega
    exact Nat.le_trans hone (ih _)

/-- Digits of a number that fits are all taken into the significand. -/
theorem significand_eq {m : Nat} {ds : List UInt8}
    (h : ds.foldl (fun n d => n * 10 + digitValue d) m < UInt64.size) :
    significand m ds = (ds.foldl (fun n d => n * 10 + digitValue d) m, 0) := by
  induction ds generalizing m with
  | nil => rfl
  | cons d ds ih =>
    have hfits : m * 10 + digitValue d < UInt64.size := Nat.lt_of_le_of_lt (le_foldl_digits _ ds) h
    rw [significand, if_pos hfits, List.foldl_cons]
    exact ih h

/-- Rounding to 53 bits at most doubles a number. -/
theorem toBinary53_le (n : Nat) : toBinary53 n ≤ 2 * n := by
  unfold toBinary53
  split
  · omega
  · next hbig =>
    have hpos : n ≠ 0 := by
      rintro rfl
      exact hbig (by decide)
    have hunit : 1 <<< (n.log2 - 52) ≤ n := by
      rw [Nat.shiftLeft_eq, Nat.one_mul]
      exact Nat.le_trans (Nat.pow_le_pow_right (by decide) (Nat.sub_le _ _)) (Nat.log2_self_le hpos)
    have hquotient : n / 1 <<< (n.log2 - 52) * 1 <<< (n.log2 - 52) ≤ n := Nat.div_mul_le_self ..
    show (if _ then _ else _) ≤ 2 * n
    split
    · exact Nat.le_trans hquotient (Nat.le_mul_of_pos_left n (by decide))
    · rw [Nat.add_mul, Nat.one_mul, Nat.two_mul]
      exact Nat.add_le_add hquotient hunit

theorem not_overflows {negative : Bool} {n : Nat} (h : n < UInt64.size) :
    overflows ⟨negative, digits n, none, none⟩ = false := by
  have hsignificand : significand 0 (digits n) = (n, 0) := by
    have hfits : value (digits n) < UInt64.size := by rwa [value_digits]
    exact (significand_eq hfits).trans (Prod.ext (value_digits n) rfl)
  have hsmall : toBinary53 n * toBinary53 (Nat.pow 10 0) < infinityBound := by
    have hone : toBinary53 (Nat.pow 10 0) = 1 := rfl
    have hbound : 2 * UInt64.size ≤ infinityBound := by decide
    have := toBinary53_le n
    rw [hone]
    omega
  rw [overflows, hsignificand]
  show scaledOverflows n 0 = false
  rw [scaledOverflows, if_neg (by decide), if_pos (by decide), decide_eq_false_iff_not, Nat.not_le]
  exact hsmall

/-! ## Cutting -/

/-- The byte belongs to no number. -/
def EndsNumber (b : UInt8) : Prop := isDigit b = false ∧ b ≠ 46 ∧ b ≠ 101 ∧ b ≠ 69

instance (b : UInt8) : Decidable (EndsNumber b) := inferInstanceAs (Decidable (_ ∧ _))

theorem takeWhile_digits {n : Nat} {rest : List UInt8} (h : ∀ b ∈ rest.head?, EndsNumber b) :
    (digits n ++ rest).takeWhile isDigit = digits n ∧
      (digits n ++ rest).dropWhile isDigit = rest := by
  rw [List.takeWhile_append_of_pos fun _ => isDigit_of_mem_digits,
    List.dropWhile_append_of_pos fun _ => isDigit_of_mem_digits]
  cases rest with
  | nil => simp
  | cons b rest =>
    have hb : isDigit b = false := (h b rfl).1
    simp [hb]

theorem cutFraction_of_ends {l : Numeral} {rest : List UInt8}
    (h : ∀ b ∈ rest.head?, EndsNumber b) : cutFraction l rest = .closed l rest := by
  cases rest with
  | nil => rfl
  | cons b rest =>
    obtain ⟨-, hpoint, he, hE⟩ := h b rfl
    unfold cutFraction cutExponent
    simp [hpoint, he, hE]

theorem cutUnsigned_digits (negative : Bool) (n : Nat) {rest : List UInt8}
    (h : ∀ b ∈ rest.head?, EndsNumber b) :
    cutUnsigned negative (digits n ++ rest) = .closed ⟨negative, digits n, none, none⟩ rest := by
  obtain ⟨htake, hdrop⟩ := takeWhile_digits (n := n) h
  unfold cutUnsigned
  rw [htake, hdrop]
  split
  · next hnil => exact absurd hnil (digits_ne_nil n)
  · next hzero => exact absurd (eq_nil_of_digits_eq_cons hzero) (List.cons_ne_nil _ _)
  · exact cutFraction_of_ends h

/-- **The literal of a whole number is cut whole.** -/
theorem cut_ofInt (n : Int) {rest : List UInt8} (h : ∀ b ∈ rest.head?, EndsNumber b) :
    cut (ofInt n ++ rest) = .closed ⟨decide (n < 0), digits n.natAbs, none, none⟩ rest := by
  unfold ofInt
  split
  · next hneg =>
    rw [decide_eq_true hneg]
    exact cutUnsigned_digits true n.natAbs h
  · next hpos =>
    rw [decide_eq_false hpos, ← cutUnsigned_digits false n.natAbs h]
    -- the first byte is a digit and no sign
    unfold cut
    split
    · next hminus =>
      cases hdigits : digits n.natAbs with
      | nil => exact absurd hdigits (digits_ne_nil _)
      | cons d ds =>
        rw [hdigits] at hminus
        obtain ⟨rfl, -⟩ := List.cons.inj hminus
        have hdigit : isDigit 45 = true := by
          apply isDigit_of_mem_digits (n := n.natAbs)
          rw [hdigits]
          exact List.mem_cons_self
        exact absurd hdigit (by decide)
    · rfl

/-- **The literal of a whole number of 64 bits has the number for its value.** -/
theorem number_ofInt {n : Int} (h : n.natAbs < UInt64.size) :
    number ⟨decide (n < 0), digits n.natAbs, none, none⟩ = .ok (.whole n) := by
  rw [number, not_overflows h]
  simp only [value_digits, Bool.false_eq_true, if_false, decide_eq_true_eq]
  by_cases hneg : n < 0
  · have hne : n.natAbs ≠ 0 := by omega
    have habs : -(n.natAbs : Int) = n := by omega
    rw [if_pos hneg, if_neg hne, habs]
  · have habs : (n.natAbs : Int) = n := by omega
    rw [if_neg hneg, habs]

end TupleSync.Json.Numeral
