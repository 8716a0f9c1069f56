import TupleSync.Json.Quoted
import TupleSync.Json.Numeral

/-!
# Tokens

**The tokens of a text do not depend on who reads it.** A reader that wants a value and a reader that
skips it agree on where each token ends; they may disagree on whether the token is fine. So a token
carries both verdicts where they can differ, and the list of tokens ends at the first one that nobody
can read past.
-/

set_option autoImplicit false

namespace TupleSync.Json

/-- A scalar that stands where a value is wanted. -/
inductive Scalar where
  | null
  | bool (b : Bool)
  | number (n : Except Fault Number)

inductive Token where
  | openArray
  | closeArray
  | openObject
  | closeObject
  | comma
  | colon
  | scalar (s : Scalar)
  | text (t : Except Fault String)
  /-- A string literal without an end: the faults of a reader and of a skipper. -/
  | brokenText (read skipped : Fault)
  /-- A scalar that breaks off: the faults of a reader and of a skipper. -/
  | brokenScalar (read skipped : Fault)
  /-- A byte that starts no token. -/
  | stray

namespace Token

/-- Space, tab, line feed and carriage return, and no other character. -/
def isBlank (b : UInt8) : Bool := b == 32 || b == 9 || b == 10 || b == 13

/-- What is left after a word, or the fault where the text leaves it. -/
def afterWord (word : List UInt8) (bytes : List UInt8) : Except Fault (List UInt8) :=
  match word, bytes with
  | [], rest => .ok rest
  | _ :: _, [] => .error .truncated
  | w :: word, b :: rest => if w = b then afterWord word rest else .error .malformed

/-- A literal word of the given value; its first letter is already read. -/
def word (value : Scalar) (letters rest : List UInt8) : Token × List UInt8 :=
  match afterWord letters rest with
  | .ok rest => (.scalar value, rest)
  | .error f => (.brokenScalar f f, [])

/-- The first token of a text that does not start with a blank, and what follows it. -/
def next (b : UInt8) (rest : List UInt8) : Token × List UInt8 :=
  match b with
  | 91 => (.openArray, rest)
  | 93 => (.closeArray, rest)
  | 123 => (.openObject, rest)
  | 125 => (.closeObject, rest)
  | 44 => (.comma, rest)
  | 58 => (.colon, rest)
  | 110 => word .null [117, 108, 108] rest
  | 116 => word (.bool true) [114, 117, 101] rest
  | 102 => word (.bool false) [97, 108, 115, 101] rest
  | 34 =>
    match Quoted.cut rest with
    | .closed pieces rest => (.text (Quoted.text pieces), rest)
    | .stopped pieces fault => (.brokenText (Quoted.firstFault pieces fault) fault, [])
  | b =>
    if b == 45 || Numeral.isDigit b then
      match Numeral.cut (b :: rest) with
      | .closed l rest => (.scalar (.number l.number), rest)
      | .stopped read skipped => (.brokenScalar read skipped, [])
    else (.stray, [])

theorem length_of_afterWord {word bytes rest : List UInt8} (h : afterWord word bytes = .ok rest) :
    rest.length ≤ bytes.length := by
  fun_induction afterWord word bytes <;> grind

theorem length_of_word (value : Scalar) (letters rest : List UInt8) :
    (word value letters rest).2.length ≤ rest.length := by
  unfold word
  split
  · next h => exact length_of_afterWord h
  · simp

theorem length_of_next (b : UInt8) (rest : List UInt8) : (next b rest).2.length ≤ rest.length := by
  unfold next
  split <;> try exact Nat.le_refl _
  · exact length_of_word ..
  · exact length_of_word ..
  · exact length_of_word ..
  · split
    · next h => exact Nat.le_of_lt (Quoted.length_of_cut h)
    · simp
  · split
    · split
      · next h => exact Nat.le_of_lt_succ (Numeral.length_of_cut h)
      · simp
    · simp

/-- The tokens of a text. A broken token or a stray byte is the last one. -/
def ofBytes (bytes : List UInt8) : List Token :=
  match bytes with
  | [] => []
  | b :: rest =>
    if isBlank b then ofBytes rest
    else (next b rest).1 :: ofBytes (next b rest).2
termination_by bytes.length
decreasing_by
  · simp
  · exact Nat.lt_succ_of_le (length_of_next b rest)

end Token

end TupleSync.Json
