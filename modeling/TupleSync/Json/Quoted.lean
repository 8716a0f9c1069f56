import TupleSync.Json.Basic

/-!
# String literals

**A string literal is read in two passes, because two kinds of reader see it differently.** The first
pass cuts the bytes between the quotes into pieces: plain bytes, and the code units of `\u` escapes. It
fails on what no reader accepts (an unknown escape, a control character, the end of the text). The
second pass joins the pieces to text, pairing the surrogates, and fails on what only a reader that wants
the text can object to (a surrogate without its partner, bytes that are not UTF-8). A reader that skips
the literal stops after the first pass.

The writer `quoted` escapes the quote, the backslash and the control characters and nothing else.
-/

set_option autoImplicit false

namespace TupleSync.Json.Quoted

/-! ## Writing -/

/-- The digit of a number below sixteen, in lower case. -/
def hexDigit (n : Nat) : UInt8 :=
  if n < 10 then 48 + n.toUInt8 else 87 + n.toUInt8

/-- How a character stands in a literal. -/
def escaped (c : Char) : List UInt8 :=
  match c with
  | '\x22' => [92, 34]
  | '\\' => [92, 92]
  | '\x08' => [92, 98]
  | '\t' => [92, 116]
  | '\n' => [92, 110]
  | '\x0c' => [92, 102]
  | '\r' => [92, 114]
  | c =>
    if c.toNat < 32 then
      [92, 117, 48, 48, hexDigit (c.toNat / 16), hexDigit (c.toNat % 16)]
    else String.utf8EncodeChar c

/-- The literal of a text, quotes included. -/
def quoted (s : String) : List UInt8 :=
  34 :: (s.toList.flatMap escaped ++ [34])

/-! ## First pass: pieces -/

/-- What a literal is made of. -/
inductive Piece where
  | byte (b : UInt8)
  /-- The code unit of a `\u` escape, below `0x10000`. -/
  | unit (u : Nat)
  deriving Repr, DecidableEq

/-- The pieces up to the closing quote and what follows it, or the pieces up to a fault. -/
inductive Cut where
  | closed (pieces : List Piece) (rest : List UInt8)
  | stopped (pieces : List Piece) (fault : Fault)
  deriving Repr, DecidableEq

/-- The value of a hexadecimal digit of either case. -/
def hexValue? (b : UInt8) : Option Nat :=
  let n := b.toNat
  if 48 ≤ n ∧ n ≤ 57 then some (n - 48)
  else if 97 ≤ n ∧ n ≤ 102 then some (n - 87)
  else if 65 ≤ n ∧ n ≤ 70 then some (n - 55)
  else none

/-- The code unit written by four hexadecimal digits. -/
def codeUnit? (a b c d : UInt8) : Option Nat := do
  return ((← hexValue? a) * 16 + (← hexValue? b)) * 256 + (← hexValue? c) * 16 + (← hexValue? d)

/-- The byte that a one-letter escape stands for. -/
def escapeValue? (b : UInt8) : Option UInt8 :=
  match b with
  | 34 => some 34
  | 92 => some 92
  | 47 => some 47
  | 98 => some 8
  | 102 => some 12
  | 110 => some 10
  | 114 => some 13
  | 116 => some 9
  | _ => none

/-- Cuts what follows an opening quote. `seen` holds the pieces so far, the last one first. -/
def cutOnto (seen : List Piece) : List UInt8 → Cut
  | [] => .stopped seen.reverse .truncated
  | 34 :: rest => .closed seen.reverse rest
  | 92 :: 117 :: a :: b :: c :: d :: rest =>
    match codeUnit? a b c d with
    | some u => cutOnto (.unit u :: seen) rest
    | none => .stopped seen.reverse .malformed
  -- The end of the text wins over a bad digit: fewer than four bytes are not looked at.
  | 92 :: 117 :: _ => .stopped seen.reverse .truncated
  | 92 :: e :: rest =>
    match escapeValue? e with
    | some b => cutOnto (.byte b :: seen) rest
    | none => .stopped seen.reverse .malformed
  | [92] => .stopped seen.reverse .truncated
  | b :: rest =>
    if b < 32 then .stopped seen.reverse .malformed else cutOnto (.byte b :: seen) rest

/-- Cuts what follows an opening quote. -/
def cut (bytes : List UInt8) : Cut := cutOnto [] bytes

/-! ## Second pass: text -/

/-- Code units that announce a partner. -/
def isLeading (u : Nat) : Bool := 0xD800 ≤ u && u < 0xDC00

/-- Code units that only follow a leading one. -/
def isTrailing (u : Nat) : Bool := 0xDC00 ≤ u && u < 0xE000

/-- The character of a surrogate pair. -/
def paired (u v : Nat) : Char := Char.ofNat ((u - 0xD800) * 0x400 + (v - 0xDC00) + 0x10000)

/-- The bytes of the pieces, surrogates paired. `dangling` is the fault of a leading surrogate that no
piece follows, and `done` holds the bytes so far, the last one first. -/
def joinOnto (dangling : Fault) (done : List UInt8) : List Piece → Except Fault (List UInt8)
  | [] => .ok done.reverse
  | .byte b :: rest => joinOnto dangling (b :: done) rest
  | .unit u :: rest =>
    if isLeading u then
      match rest with
      | [] => .error dangling
      | .unit v :: rest =>
        if isTrailing v then
          joinOnto dangling ((String.utf8EncodeChar (paired u v)).reverse ++ done) rest
        else .error .malformed
      | .byte _ :: _ => .error .malformed
    else if isTrailing u then .error .malformed
    else joinOnto dangling ((String.utf8EncodeChar (Char.ofNat u)).reverse ++ done) rest

/-- The text of the pieces of a closed literal. -/
def text (pieces : List Piece) : Except Fault String := do
  match String.fromUTF8? ⟨(← joinOnto .malformed [] pieces).toArray⟩ with
  | some s => .ok s
  | none => .error .malformed

/-- The first fault that a reader of the text meets in a literal that stops with `fault`. -/
def firstFault (pieces : List Piece) (fault : Fault) : Fault :=
  match joinOnto fault [] pieces with
  | .error f => f
  | .ok _ => fault

/-! ## Cutting consumes -/

theorem length_of_cutOnto {seen pieces : List Piece} {bytes rest : List UInt8}
    (h : cutOnto seen bytes = .closed pieces rest) : rest.length < bytes.length := by
  fun_induction cutOnto seen bytes <;> simp_all <;> omega

theorem length_of_cut {pieces : List Piece} {bytes rest : List UInt8}
    (h : cut bytes = .closed pieces rest) : rest.length < bytes.length :=
  length_of_cutOnto h

end TupleSync.Json.Quoted
