import TupleSync.Time.Instant
import TupleSync.Proofs.Text.Digits

/-!
# Written instants are read back

**The text of an instant names that instant and no other.** The reader takes the parts off the front, one
after the other. Each part ends at its width or at a character that is no digit, so no part runs into the
next, and nothing in the text is a blank that a reader might skip.
-/

set_option autoImplicit false

namespace TupleSync.Instant

open Text

theorem not_isBlank_of_isDigit {c : Char} (h : isDigit c = true) : isBlank c = false := by
  have hrange : '0'.toNat ≤ c.toNat ∧ c.toNat ≤ '9'.toNat := by
    rwa [isDigit_eq, Char.isDigit_iff_toNat] at h
  have hlow : 48 ≤ c.toNat := hrange.1
  have hhigh : c.toNat ≤ 57 := hrange.2
  simp only [isBlank, blankRanges, List.any_cons, List.any_nil, Bool.or_false, Bool.or_eq_false_iff,
    Bool.and_eq_false_iff, decide_eq_false_iff_not]
  omega

namespace Scan

variable {α β : Type} {cs ds rest : List Char} {n width most : Nat} {c : Char}

/-- The scanner takes the text off the front and reads the value from it. -/
def Takes (x : Scan α) (cs : List Char) (a : α) (rest : List Char) : Prop :=
  x (cs ++ rest) = some (a, rest)

theorem Takes.bind {x : Scan α} {f : α → Scan β} {a : α} {b : β} (hx : Takes x cs a (ds ++ rest))
    (hf : Takes (f a) ds b rest) : Takes (x >>= f) (cs ++ ds) b rest := by
  show (x (cs ++ ds ++ rest) >>= fun p => f p.1 p.2) = some (b, rest)
  rw [List.append_assoc, show x (cs ++ (ds ++ rest)) = some (a, ds ++ rest) from hx]
  exact hf

/-- The first scanner takes nothing. -/
theorem Takes.bind_left {x : Scan α} {f : α → Scan β} {a : α} {b : β}
    (hx : Takes x [] a (cs ++ rest)) (hf : Takes (f a) cs b rest) : Takes (x >>= f) cs b rest :=
  show Takes (x >>= f) ([] ++ cs) b rest from hx.bind hf

/-- The second scanner takes nothing. -/
theorem Takes.bind_right {x : Scan α} {f : α → Scan β} {a : α} {b : β}
    (hx : Takes x cs a rest) (hf : Takes (f a) [] b rest) : Takes (x >>= f) cs b rest := by
  have h : Takes (x >>= f) (cs ++ []) b rest := Takes.bind hx hf
  rwa [List.append_nil] at h

theorem Takes.map {x : Scan α} {a : α} (hx : Takes x cs a rest) (f : α → β) :
    Takes (x >>= fun a => pure (f a)) cs (f a) rest :=
  hx.bind_right rfl

theorem lift_takes {o : Option α} {a : α} (h : o = some a) :
    Takes (liftM o : Scan α) [] a rest := by
  subst h
  rfl

/-! ## Parts -/

theorem blanks_takes (h : ∀ c ∈ rest.head?, isBlank c = false) : Takes blanks [] () rest := by
  have hkept : trimStart rest = rest := by
    cases rest with
    | nil => rfl
    | cons c rest => exact List.dropWhile_cons_of_neg (Bool.eq_false_iff.1 (h c rfl))
  show some ((), trimStart rest) = _
  rw [hkept]

theorem char_takes (c : Char) : Takes (char c) [c] () rest := by
  show (if c = c then set rest else failure : Scan Unit) (c :: rest) = _
  rw [if_pos rfl]
  rfl

theorem separator_takes (hc : isBlank c = false) : Takes (separator c) [c] () rest := by
  refine Takes.bind_left (blanks_takes fun c' hc' => ?_) (char_takes c)
  obtain rfl : c = c' := Option.some.inj hc'
  exact hc

/-- The digits that a bounded run takes: all of them, if it is no longer and ends there. -/
theorem digitRun_append (hds : ∀ c ∈ ds, isDigit c = true) (hlen : ds.length ≤ most)
    (hend : ds.length = most ∨ ∀ c ∈ rest.head?, isDigit c = false) :
    ((ds ++ rest).take most).takeWhile isDigit = ds := by
  have hrest : (rest.take (most - ds.length)).takeWhile isDigit = [] := by
    rcases hend with hwidth | hstop
    · rw [hwidth, Nat.sub_self, List.take_zero, List.takeWhile_nil]
    · rcases rest with _ | ⟨c, rest⟩
      · rw [List.take_nil, List.takeWhile_nil]
      · rcases most - ds.length with _ | k
        · rw [List.take_zero, List.takeWhile_nil]
        · rw [List.take_succ_cons, List.takeWhile_cons_of_neg (Bool.eq_false_iff.1 (hstop c rfl))]
  rw [List.take_append, List.take_of_length_le hlen, List.takeWhile_append_of_pos hds, hrest,
    List.append_nil]

theorem number_takes (hds : ∀ c ∈ ds, isDigit c = true) (hne : ds ≠ []) (hlen : ds.length ≤ most)
    (hend : ds.length = most ∨ ∀ c ∈ rest.head?, isDigit c = false) :
    Takes (number most) ds (digitsValue ds) rest := by
  show (if (((ds ++ rest).take most).takeWhile isDigit).isEmpty then _ else _ : Scan Nat) _ = _
  rw [digitRun_append hds hlen hend, if_neg (by rwa [List.isEmpty_iff])]
  show some (digitsValue ds, (ds ++ rest).drop ds.length) = _
  rw [List.drop_left]

theorem number_takes_padded (hlen : (padded width n).length ≤ most)
    (hend : (padded width n).length = most ∨ ∀ c ∈ rest.head?, isDigit c = false) :
    Takes (number most) (padded width n) n rest := by
  have htakes : Takes (number most) (padded width n) (digitsValue (padded width n)) rest :=
    number_takes (fun _ => isDigit_of_mem_padded) (padded_ne_nil width n) hlen hend
  rwa [digitsValue_padded] at htakes

/-- As many digits as are asked for. -/
theorem number_takes_width (hwidth : 0 < width) (h : n < Nat.pow 10 width) :
    Takes (number width) (padded width n) n rest := by
  have hlen := length_padded hwidth h
  exact number_takes_padded (Nat.le_of_eq hlen) (Or.inl hlen)

theorem head_padded_not_blank : ∀ c ∈ (padded width n ++ rest).head?, isBlank c = false := by
  intro c hc
  cases hds : padded width n with
  | nil => exact absurd hds (padded_ne_nil width n)
  | cons d ds =>
    rw [hds] at hc
    obtain rfl : d = c := Option.some.inj hc
    exact not_isBlank_of_isDigit (isDigit_of_mem_padded (hds ▸ List.mem_cons_self))

theorem twoDigits_takes (h : n < 100) : Takes twoDigits (padded 2 n) n rest :=
  Takes.bind_left (blanks_takes head_padded_not_blank) (number_takes_width (by decide) h)

theorem anyNumber_apply (cs : List Char) : anyNumber cs = number cs.length cs := rfl

theorem anyNumber_takes_padded (hstop : ∀ c ∈ rest.head?, isDigit c = false) :
    Takes anyNumber (padded width n) n rest := by
  have hlen : (padded width n).length ≤ (padded width n ++ rest).length := by
    rw [List.length_append]
    exact Nat.le_add_right _ _
  rw [Takes, anyNumber_apply]
  exact number_takes_padded hlen (Or.inr hstop)

theorem year_minus (cs : List Char) :
    year ('-' :: cs) = (anyNumber >>= fun n => pure (-Int.ofNat n) : Scan Int) cs := rfl

theorem year_plus (cs : List Char) :
    year ('+' :: cs) = (anyNumber >>= fun n => pure (Int.ofNat n) : Scan Int) cs := rfl

/-- Without a sign there are at most four digits. -/
theorem year_of_isDigit (hc : isDigit c = true) (cs : List Char) :
    year (c :: cs) = (number 4 >>= fun n => pure (Int.ofNat n) : Scan Int) (c :: cs) := by
  have hblanks : blanks (c :: cs) = some ((), c :: cs) :=
    blanks_takes fun c' hc' => Option.some.inj hc' ▸ not_isBlank_of_isDigit hc
  generalize hstate : c :: cs = state at hblanks ⊢
  show (blanks state >>= fun p => _) = _
  rw [hblanks]
  dsimp only [bind, StateT.bind, Option.bind, get, getThe, MonadStateOf.get, StateT.get, pure]
  split
  · obtain ⟨rfl, -⟩ := List.cons.inj hstate
    exact absurd hc (by decide)
  · obtain ⟨rfl, -⟩ := List.cons.inj hstate
    exact absurd hc (by decide)
  · rfl

/-- A year is followed by a hyphen. -/
theorem year_takes (y : Int) (rest : List Char) : Takes year (yearText y) y ('-' :: rest) := by
  have hstop : ∀ c ∈ ('-' :: rest).head?, isDigit c = false := by
    intro c hc
    obtain rfl : '-' = c := Option.some.inj hc
    rfl
  have hdigits : Takes anyNumber (padded 4 y.natAbs) y.natAbs ('-' :: rest) :=
    anyNumber_takes_padded hstop
  rw [yearText]
  split
  · next hplain =>
    have hfour : Takes (number 4) (padded 4 y.natAbs) y.natAbs ('-' :: rest) :=
      number_takes_width (by decide) (show y.natAbs < 10000 by omega)
    obtain ⟨c, cs, hcs⟩ := List.exists_cons_of_ne_nil (padded_ne_nil 4 y.natAbs)
    have hc : isDigit c = true := isDigit_of_mem_padded (hcs ▸ List.mem_cons_self)
    have hread := hfour.map Int.ofNat
    rw [show Int.ofNat y.natAbs = y from Int.natAbs_of_nonneg hplain.1] at hread
    rw [hcs] at hread ⊢
    exact (year_of_isDigit hc _).trans hread
  · split
    · next hneg =>
      have hread := hdigits.map fun n => -Int.ofNat n
      rw [Int.ofNat_eq_natCast, show -(y.natAbs : Int) = y by omega] at hread
      exact (year_minus _).trans hread
    · next hpos =>
      have hread := hdigits.map Int.ofNat
      rw [show Int.ofNat y.natAbs = y from Int.natAbs_of_nonneg (Int.not_lt.1 hpos)] at hread
      exact (year_plus _).trans hread

theorem fraction_point (cs : List Char) :
    fraction ('.' :: cs) = (number 9 cs).map fun p =>
      (p.1 * Nat.pow 10 (9 - ((cs.take 9).takeWhile isDigit).length), p.2.dropWhile isDigit) := by
  show (number 9 cs >>= fun p => some _) = _
  cases number 9 cs <;> rfl

/-- Digits after a point are the front of nine. -/
theorem fraction_takes_padded {k m : Nat} (hk : 0 < k) (hk9 : k ≤ 9) (hm : m < Nat.pow 10 k)
    (hvalue : m * Nat.pow 10 (9 - k) = n) :
    Takes fraction ('.' :: padded k m) n ('Z' :: rest) := by
  have hstop : ∀ c ∈ ('Z' :: rest).head?, isDigit c = false := by
    intro c hc
    obtain rfl : 'Z' = c := Option.some.inj hc
    rfl
  have hlen := length_padded hk hm
  have hnumber : Takes (number 9) (padded k m) m ('Z' :: rest) :=
    number_takes_padded (by rwa [hlen]) (Or.inr hstop)
  have hrun : ((padded k m ++ 'Z' :: rest).take 9).takeWhile isDigit = padded k m :=
    digitRun_append (fun _ => isDigit_of_mem_padded) (by rwa [hlen]) (Or.inr hstop)
  rw [Takes, List.cons_append, fraction_point, hrun, hlen,
    show number 9 (padded k m ++ 'Z' :: rest) = some (m, 'Z' :: rest) from hnumber]
  show some (m * Nat.pow 10 (9 - k), 'Z' :: rest) = _
  rw [hvalue]

/-- A fraction is followed by the zone. -/
theorem fraction_takes (hn : n < 1000000000) : Takes fraction (fractionText n) n ('Z' :: rest) := by
  rw [fractionText]
  split
  · next hzero =>
    subst hzero
    rfl
  · split
    · next hmillis =>
      exact fraction_takes_padded (by decide) (by decide) (show n / 1000000 < 1000 by omega)
        (show n / 1000000 * 1000000 = n by omega)
    · split
      · next hmicros =>
        exact fraction_takes_padded (by decide) (by decide) (show n / 1000 < 1000000 by omega)
          (show n / 1000 * 1000 = n by omega)
      · exact fraction_takes_padded (by decide) (by decide) hn (Nat.mul_one n)

theorem mark_takes : Takes mark ['T'] () rest := rfl

theorem zone_takes : Takes zone ['Z'] 0 rest := rfl

theorem finish_takes : Takes finish [] () [] := rfl

end Scan

/-! ## The whole text -/

theorem month_lt_hundred (d : Date) : d.month < 100 := by
  obtain ⟨hpos, hle⟩ := d.day_mem
  refine Nat.not_le.1 fun hge => ?_
  have hnone : daysIn d.year d.month = 0 := by
    unfold daysIn
    split <;> omega
  omega

theorem day_lt_hundred (d : Date) : d.day < 100 := by
  obtain ⟨-, hle⟩ := d.day_mem
  have hdays : daysIn d.year d.month ≤ 31 := by
    unfold daysIn
    repeat' split
    all_goals omega
  omega

/-- Without an offset the local time is the instant's own. -/
theorem ofLocal?_zero (t : Instant) :
    ofLocal? t.date t.hour t.minute t.second t.nano 0 = some t := by
  have hhour := t.hour_lt
  have hminute := t.minute_lt
  have hbounds : t.hour < 24 ∧ t.minute < 60 ∧ t.second ≤ 60 ∧ t.nano < 1000000000 ∧
      (0 : Int).natAbs < 24 * 60 := ⟨hhour, hminute, t.second_le, t.nano_lt, by decide⟩
  have hnonneg : ¬(t.hour : Int) * 60 + t.minute - 0 < 0 := by omega
  have hday : (t.hour : Int) * 60 + t.minute - 0 < 24 * 60 := by omega
  have hminutes : (((t.hour : Int) * 60 + t.minute - 0) % (24 * 60)).toNat =
      t.hour * 60 + t.minute := by omega
  have hhourOf : (t.hour * 60 + t.minute) / 60 = t.hour := by omega
  have hminuteOf : (t.hour * 60 + t.minute) % 60 = t.minute := by omega
  rw [ofLocal?, dif_pos hbounds]
  simp only [if_neg hnonneg, if_pos hday, hminutes, hhourOf, hminuteOf]
  rfl

open Scan in
theorem read_takes (t : Instant) : Takes read t.text.toList t [] := by
  have htext : t.text.toList = yearText t.date.year ++ (['-'] ++ (padded 2 t.date.month ++ (['-'] ++
      (padded 2 t.date.day ++ (['T'] ++ (padded 2 t.hour ++ ([':'] ++ (padded 2 t.minute ++ ([':'] ++
      (padded 2 t.second ++ (fractionText t.nano ++ ['Z']))))))))))) := by
    simp [text]
  rw [htext, read]
  -- one part after the other, each up to where the next one starts
  refine (year_takes _ _).bind ?_
  refine (separator_takes rfl).bind ?_
  refine (twoDigits_takes (month_lt_hundred t.date)).bind ?_
  refine (separator_takes rfl).bind ?_
  refine (twoDigits_takes (day_lt_hundred t.date)).bind ?_
  refine mark_takes.bind ?_
  refine (twoDigits_takes (Nat.lt_trans t.hour_lt (by decide))).bind ?_
  refine (separator_takes rfl).bind ?_
  refine (twoDigits_takes (Nat.lt_trans t.minute_lt (by decide))).bind ?_
  refine (separator_takes rfl).bind ?_
  refine (twoDigits_takes (Nat.lt_of_le_of_lt t.second_le (by decide))).bind ?_
  refine (fraction_takes t.nano_lt).bind ?_
  refine (blanks_takes fun c hc => ?_).bind_left ?_
  · obtain rfl : 'Z' = c := Option.some.inj hc
    rfl
  · refine zone_takes.bind_right (finish_takes.bind_right ?_)
    refine (lift_takes (Date.of?_self t.date)).bind_right ?_
    exact lift_takes (ofLocal?_zero t)

/-- **The text of an instant names the instant.** -/
@[simp] theorem parse?_text (t : Instant) : parse? t.text = some t := by
  have hread : read t.text.toList = some (t, []) := by
    have h := read_takes t
    rwa [Scan.Takes, List.append_nil] at h
  rw [parse?, hread]
  rfl

end TupleSync.Instant
