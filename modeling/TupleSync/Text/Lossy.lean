/-!
# Text from bytes that may be no text

**Every sequence of bytes has a reading: what is UTF-8 is read as it is, and each piece that is not is
read as one replacement character.** A piece ends where no character could begin with it: it is the
longest start of a character's encoding, or a single byte that starts none.
-/

set_option autoImplicit false

namespace TupleSync.Text

def replacement : Char := '\ufffd'

/-- For a first byte: how many bytes follow, its bits, and the bounds of the second byte. -/
def leadByte (b : Nat) : Option (Nat × Nat × Nat × Nat) :=
  if 0xC2 ≤ b ∧ b ≤ 0xDF then some (1, b - 0xC0, 0x80, 0xBF)
  else if b = 0xE0 then some (2, 0, 0xA0, 0xBF)
  else if b = 0xED then some (2, 0xD, 0x80, 0x9F)
  else if 0xE1 ≤ b ∧ b ≤ 0xEF then some (2, b - 0xE0, 0x80, 0xBF)
  else if b = 0xF0 then some (3, 0, 0x90, 0xBF)
  else if b = 0xF4 then some (3, 4, 0x80, 0x8F)
  else if 0xF1 ≤ b ∧ b ≤ 0xF3 then some (3, b - 0xF0, 0x80, 0xBF)
  else none

/-- A character that has begun: how many bytes it still wants, its bits so far, and the bounds of the
next byte. -/
structure Partial where
  wanted : Nat
  bits : Nat
  low : Nat
  high : Nat

/-- Reads a byte that starts something new. -/
def startByte (b : UInt8) : List Char × Option Partial :=
  if b.toNat < 0x80 then ([Char.ofNat b.toNat], none)
  else match leadByte b.toNat with
    | some (wanted, bits, low, high) => ([], some ⟨wanted, bits, low, high⟩)
    | none => ([replacement], none)

/-- Reads bytes inside a character that may have begun. -/
def readLossy : Option Partial → List UInt8 → List Char
  | none, [] => []
  | some _, [] => [replacement]
  | none, b :: rest =>
    let (cs, p) := startByte b
    cs ++ readLossy p rest
  | some p, b :: rest =>
    if p.low ≤ b.toNat ∧ b.toNat ≤ p.high then
      let bits := p.bits * 64 + (b.toNat - 0x80)
      if p.wanted = 1 then Char.ofNat bits :: readLossy none rest
      else readLossy (some ⟨p.wanted - 1, bits, 0x80, 0xBF⟩) rest
    else
      let (cs, p) := startByte b
      replacement :: (cs ++ readLossy p rest)

/-- The text of the bytes. -/
def ofBytesLossy (bytes : List UInt8) : String := String.ofList (readLossy none bytes)

end TupleSync.Text
