import TupleSync.Log.Record
import TupleSync.Text.Digits

/-!
# Which records are written

**A filter is a list of directives, and the most specific directive that speaks of a record decides.** A
directive names the start of a target and the lowest level that passes; one without a target speaks of
all records, and a target without a level lets everything pass. Where nothing speaks of a record, it is
not written. A filter that says nothing at all lets errors pass.

A directive about spans is understood and never matters, since this program opens none.
-/

set_option autoImplicit false

namespace TupleSync.Log

/-- Which of the records that begin with the target pass: those of at most this verbosity. -/
structure Directive where
  target : String
  verbosity : Nat
  deriving Repr, DecidableEq

/-- The directives, of which those about spans are left out. -/
structure Filter where
  directives : List Directive
  deriving Repr, DecidableEq

namespace Filter

/-- The verbosity that a word stands for. -/
def verbosity? (s : String) : Option Nat :=
  match s.map Char.toLower with
  | "off" | "0" => some 0
  | "error" | "1" => some 1
  | "warn" | "2" => some 2
  | "info" | "3" => some 3
  | "debug" | "4" => some 4
  | "trace" | "5" => some 5
  | _ => none

/-- The characters of a target. -/
def isTargetChar (c : Char) : Bool := c.isAlphanum || c == '_' || c == ':' || c == '-'

/-- The directive of a text: a level, a target, or a target and a level. The inner `none` is a directive
about spans. -/
def directive? (s : String) : Option (Option Directive) :=
  match verbosity? s with
  | some v => some (some ⟨"", v⟩)
  | none =>
    let cs := s.toList
    let target := cs.takeWhile isTargetChar
    let rest := cs.dropWhile isTargetChar
    let (isSpan, rest) := match rest with
      | '[' :: more => (true, (more.dropWhile fun c => c != ']').drop 1)
      | rest => (false, rest)
    let verbosity : Option Nat := match rest with
      | [] => some 5
      | ['='] => some 5
      | '=' :: level => verbosity? (String.ofList level)
      | _ => none
    if target.isEmpty && !isSpan then none
    else verbosity.map fun v => if isSpan then none else some ⟨String.ofList target, v⟩

/-- The filter of a text, directives being set apart by commas. -/
def parse? (s : String) : Option Filter := do
  let parts := (s.splitOn ",").filter fun part => part != ""
  if parts.isEmpty then return ⟨[⟨"", 1⟩]⟩
  return ⟨(← parts.mapM directive?).filterMap id⟩

/-- The filter of this program's own parts, more or less verbose. -/
def own (verbose : Bool) : Filter :=
  let v := if verbose then Level.debug.verbosity else Level.info.verbosity
  ⟨["event_handler", "authz_sync", "auth_zanzibar", "events_bus"].map fun part => ⟨part, v⟩⟩

/-- The more specific of two directives; of two with the same target, the later one. -/
def moreSpecific (earlier : Option Directive) (later : Directive) : Option Directive :=
  match earlier with
  | none => some later
  | some d => if d.target.length ≤ later.target.length then some later else some d

/-- The directive that decides about a target. -/
def deciding? (f : Filter) (target : String) : Option Directive :=
  (f.directives.filter fun d => d.target.toList.isPrefixOf target.toList).foldl moreSpecific none

/-- Whether a record is written. -/
def passes (f : Filter) (r : Record) : Bool :=
  match f.deciding? r.target with
  | some d => r.level.verbosity ≤ d.verbosity
  | none => false

end Filter

end TupleSync.Log
