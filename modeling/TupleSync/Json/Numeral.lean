import TupleSync.Json.Basic

/-!
# Number literals

**A number literal has one grammar and one limit.** The grammar is a sign, digits without a leading
zero, an optional fraction and an optional exponent. The limit is that a reader which wants the value
refuses a literal that binary floating point of 64 bits rounds to infinity; whole numbers are no
exception, and a reader that skips the literal does not look.

The value is exact for a whole number and the literal itself for any other: nothing in this library
computes with a fraction.
-/

set_option autoImplicit false

namespace TupleSync.Json

/-- A number literal, cut into its parts. Digits are kept as they are written. -/
structure Numeral where
  negative : Bool
  whole : List UInt8
  fraction : Option (List UInt8)
  /-- The mark (`e` or `E`), the written sign, if any, and the digits. -/
  exponent : Option (UInt8 × Option UInt8 × List UInt8)
  deriving Repr, DecidableEq

namespace Numeral

def isDigit (b : UInt8) : Bool := 48 ≤ b && b ≤ 57

def digitValue (b : UInt8) : Nat := b.toNat - 48

/-- The number written by decimal digits. -/
def value (digits : List UInt8) : Nat :=
  digits.foldl (fun n d => n * 10 + digitValue d) 0

/-- The literal as it is written. -/
def literal (n : Numeral) : List UInt8 :=
  (if n.negative then [45] else []) ++ n.whole ++
    (match n.fraction with
      | some digits => 46 :: digits
      | none => []) ++
    (match n.exponent with
      | some (mark, sign, digits) => mark :: sign.toList ++ digits
      | none => [])

/-! ## The limit of magnitude -/

/-- The nearest number of 53 significant bits, ties to even. -/
def toBinary53 (n : Nat) : Nat :=
  if n < 1 <<< 53 then n
  else
    let unit := 1 <<< (n.log2 - 52)
    let low := n % unit
    let q := n / unit
    if 2 * low < unit ∨ (2 * low = unit ∧ q % 2 = 0) then q * unit else (q + 1) * unit

/-- The least magnitude that is rounded to infinity. -/
def infinityBound : Nat := 1 <<< 1024 - 1 <<< 970

/-- The leading digits that fit into 64 bits, onto a value already read, and how many are left over. -/
def significand (n : Nat) : List UInt8 → Nat × Nat
  | [] => (n, 0)
  | d :: rest =>
    let n' := n * 10 + digitValue d
    if n' < UInt64.size then significand n' rest else (n, rest.length + 1)

/-- Whether `n · 10^e`, both factors rounded, is out of range. A power above `10^308` has no finite
rounding, so only zero stands it. -/
def scaledOverflows (n : Nat) (e : Int) : Bool :=
  if e < 0 then false
  else if e ≤ 308 then infinityBound ≤ toBinary53 n * toBinary53 (Nat.pow 10 e.toNat)
  else n != 0

/-- Whether the literal is out of the range of 64-bit floating point. -/
def overflows (l : Numeral) : Bool :=
  let (n, dropped) := significand 0 l.whole
  let (n', left) := significand n (l.fraction.getD [])
  let taken := (l.fraction.getD []).length - left
  let e : Int := (dropped : Int) - taken
  match l.exponent with
  | none => scaledOverflows n' e
  | some (_, sign, digits) =>
    let x := value digits
    if x < 1 <<< 31 then scaledOverflows n' (if sign == some 45 then e - x else e + x)
    else sign != some 45 && n' != 0

/-- The value of a literal. -/
def number (l : Numeral) : Except Fault Number :=
  if l.overflows then .error .malformed
  else match l.fraction, l.exponent with
    | none, none =>
      let n := value l.whole
      if l.negative then
        if n = 0 then .ok (.decimal "-0") else .ok (.whole (-n))
      else .ok (.whole n)
    | _, _ => .ok (.decimal (String.ofList (l.literal.map fun b => Char.ofNat b.toNat)))

/-! ## Reading -/

/-- A literal and what follows it, or the faults of a reader and of a skipper.

The two differ only where the text ends inside the literal. -/
inductive Cut where
  | closed (literal : Numeral) (rest : List UInt8)
  | stopped (read skipped : Fault)
  deriving Repr, DecidableEq

/-- Where a digit is missing before `rest`. -/
def missingDigit (rest : List UInt8) : Cut :=
  .stopped (if rest.isEmpty then .truncated else .malformed) .malformed

/-- Cuts the exponent, if there is one. -/
def cutExponent (l : Numeral) (bytes : List UInt8) : Cut :=
  match bytes with
  | mark :: rest =>
    if mark == 101 || mark == 69 then
      let (sign, rest) := match rest with
        | s :: rest' => if s == 43 || s == 45 then (some s, rest') else (none, rest)
        | [] => (none, rest)
      match rest.takeWhile isDigit with
      | [] => missingDigit rest
      | digits => .closed { l with exponent := some (mark, sign, digits) } (rest.dropWhile isDigit)
    else .closed l bytes
  | [] => .closed l bytes

/-- Cuts the fraction, if there is one, and what follows it. -/
def cutFraction (l : Numeral) (bytes : List UInt8) : Cut :=
  match bytes with
  | 46 :: rest =>
    match rest.takeWhile isDigit with
    | [] => missingDigit rest
    | digits => cutExponent { l with fraction := some digits } (rest.dropWhile isDigit)
  | _ => cutExponent l bytes

/-- Cuts a literal whose sign is already read. -/
def cutUnsigned (negative : Bool) (bytes : List UInt8) : Cut :=
  match bytes.takeWhile isDigit with
  | [] => missingDigit bytes
  | 48 :: _ :: _ => .stopped .malformed .malformed
  | digits => cutFraction ⟨negative, digits, none, none⟩ (bytes.dropWhile isDigit)

/-- Cuts a literal at the front of a text. -/
def cut (bytes : List UInt8) : Cut :=
  match bytes with
  | 45 :: rest => cutUnsigned true rest
  | _ => cutUnsigned false bytes

/-! ## Writing -/

/-- The digits of a number. -/
def digits (n : Nat) : List UInt8 :=
  (Nat.toDigits 10 n).map fun c => c.toNat.toUInt8

/-- The literal of a whole number. -/
def ofInt (n : Int) : List UInt8 :=
  if n < 0 then 45 :: digits n.natAbs else digits n.natAbs

/-! ## Cutting consumes -/

theorem length_dropWhile_of_takeWhile {p : UInt8 → Bool} {bytes : List UInt8}
    (h : bytes.takeWhile p ≠ []) : (bytes.dropWhile p).length < bytes.length := by
  cases bytes with
  | nil => simp at h
  | cons b bs =>
    by_cases hb : p b = true
    · simpa [List.dropWhile_cons, hb, Nat.lt_succ_iff] using (List.dropWhile_suffix p).length_le
    · simp [hb] at h

theorem length_of_cutExponent {l l' : Numeral} {bytes rest : List UInt8}
    (h : cutExponent l bytes = .closed l' rest) : rest.length ≤ bytes.length := by
  unfold cutExponent at h
  have drop : ∀ bs : List UInt8, (bs.dropWhile isDigit).length ≤ bs.length :=
    fun bs => (List.dropWhile_suffix _).length_le
  grind [missingDigit]

theorem length_of_cutFraction {l l' : Numeral} {bytes rest : List UInt8}
    (h : cutFraction l bytes = .closed l' rest) : rest.length ≤ bytes.length := by
  unfold cutFraction at h
  split at h
  · next r =>
    split at h
    · simp [missingDigit] at h
    · have := length_of_cutExponent h
      have := (List.dropWhile_suffix isDigit (l := r)).length_le
      simp; omega
  · exact length_of_cutExponent h

theorem length_of_cutUnsigned {negative : Bool} {l : Numeral} {bytes rest : List UInt8}
    (h : cutUnsigned negative bytes = .closed l rest) : rest.length < bytes.length := by
  unfold cutUnsigned at h
  split at h
  · simp [missingDigit] at h
  · simp at h
  · next hne _ =>
    exact Nat.lt_of_le_of_lt (length_of_cutFraction h) (length_dropWhile_of_takeWhile hne)

theorem length_of_cut {l : Numeral} {bytes rest : List UInt8}
    (h : cut bytes = .closed l rest) : rest.length < bytes.length := by
  unfold cut at h
  split at h
  · exact Nat.lt_succ_of_lt (length_of_cutUnsigned h)
  · exact length_of_cutUnsigned h

end Numeral

end TupleSync.Json
