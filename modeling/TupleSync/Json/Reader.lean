import TupleSync.Json.Outline

/-!
# Readers

A reader takes the outline of a value and how many more levels of nesting it may enter.

**The first problem wins, and what counts as a problem depends on what is wanted.** A bracket where a
scalar is wanted is refused on sight; a scalar of the wrong kind is read to its end first, so a fault
inside it comes before the complaint about its kind; and a value that nobody wants is only skipped, which
forgives deep nesting, huge numbers and text that is no Unicode.
-/

set_option autoImplicit false

namespace TupleSync.Json

/-- Reads a value from its outline; the number bounds the nesting. -/
abbrev Reader (α : Type) := Nat → Outline → Except Fault α

namespace Outline

/-- The fault of a reader that wants something else than what stands here. -/
def refusal : Outline → Fault
  | .scalar (.number (.error f)) => f
  | .text (.error f) => f
  | .broken stop => stop.read
  | _ => .mistyped

mutual

/-- The fault of one who does not want the value, if there is one. -/
def skip : Outline → Except Fault Unit
  | .scalar _ => .ok ()
  | .text _ => .ok ()
  | .broken stop => .error stop.skipped
  | .array items stop => do
    skipItems items
    match stop with
    | some s => .error s.skipped
    | none => .ok ()
  | .object members stop => do
    skipMembers members
    match stop with
    | some s => .error s.skipped
    | none => .ok ()

/-- Skips the items of an array. -/
def skipItems : List Outline → Except Fault Unit
  | [] => .ok ()
  | v :: rest => do
    skip v
    skipItems rest

/-- Skips the members of an object, keys included. -/
def skipMembers : List (Except Fault String × Outline) → Except Fault Unit
  | [] => .ok ()
  | (_, v) :: rest => do
    skip v
    skipMembers rest

end

mutual

/-- Reads any value. -/
def toJson : Outline → Nat → Except Fault Json
  | .scalar .null, _ => .ok .null
  | .scalar (.bool b), _ => .ok (.bool b)
  | .scalar (.number n), _ => .number <$> n
  | .text t, _ => .text <$> t
  | .broken stop, _ => .error stop.read
  | .array _ _, 0 => .error .malformed
  | .array items stop, depth + 1 => do
    let vs ← toJsonItems items depth
    match stop with
    | some s => .error s.read
    | none => .ok (.array vs)
  | .object _ _, 0 => .error .malformed
  | .object members stop, depth + 1 => do
    let ms ← toJsonMembers members depth
    match stop with
    | some s => .error s.read
    | none => .ok (.object ms)

/-- Reads the items of an array. -/
def toJsonItems : List Outline → Nat → Except Fault (List Json)
  | [], _ => .ok []
  | v :: rest, depth => do
    let j ← toJson v depth
    let js ← toJsonItems rest depth
    .ok (j :: js)

/-- Reads the members of an object. -/
def toJsonMembers : List (Except Fault String × Outline) → Nat → Except Fault (List (String × Json))
  | [], _ => .ok []
  | (key, v) :: rest, depth => do
    let k ← key
    let j ← toJson v depth
    let js ← toJsonMembers rest depth
    .ok ((k, j) :: js)

end

end Outline

namespace Reader

/-- Any value. -/
def json : Reader Json := fun depth v => v.toJson depth

/-- A text. -/
def text : Reader String := fun _ v =>
  match v with
  | .text t => t
  | _ => .error v.refusal

/-- A whole number. -/
def int : Reader Int := fun _ v =>
  match v with
  | .scalar (.number (.ok (.whole n))) => .ok n
  | _ => .error v.refusal

/-- A whole number between the bounds, both included. -/
def intIn (low high : Int) : Reader Int := fun depth v => do
  let n ← int depth v
  if low ≤ n ∧ n ≤ high then .ok n else .error .mistyped

def int64 : Reader Int64 := fun depth v =>
  Int64.ofInt <$> intIn Int64.minValue.toInt Int64.maxValue.toInt depth v

def int16 : Reader Int16 := fun depth v =>
  Int16.ofInt <$> intIn Int16.minValue.toInt Int16.maxValue.toInt depth v

/-- Reads all items in order. -/
def items {α : Type} (r : Reader α) (depth : Nat) : List Outline → Option Stop → Except Fault (List α)
  | [], none => .ok []
  | [], some stop => .error stop.read
  | v :: rest, stop => do
    let a ← r depth v
    let as ← items r depth rest stop
    .ok (a :: as)

/-- An array of values of one kind. -/
def list {α : Type} (r : Reader α) : Reader (List α)
  | 0, .array _ _ => .error .malformed
  | depth + 1, .array vs stop => items r depth vs stop
  | _, v => .error v.refusal

end Reader

namespace Document

/-- The levels of nesting that a text may have where it is read. -/
def maxDepth : Nat := 127

/-- Reads a whole text: what follows the value is a fault, but only after the value is read. -/
def read {α : Type} (r : Reader α) (d : Document) : Except Fault α := do
  let a ← r maxDepth d.root
  if d.trailing then .error .malformed else .ok a

end Document

/-- Reads the text of a value of some kind. -/
def decode {α : Type} (r : Reader α) (bytes : List UInt8) : Except Fault α :=
  (Document.ofBytes bytes).read r

end TupleSync.Json
