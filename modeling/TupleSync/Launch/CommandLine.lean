import TupleSync.Config.Environment
import TupleSync.Bus.Local

/-!
# The command line

**An option's value is judged late.** A value that stands behind its option is only put aside; it is
looked at when the next known option comes, or at the end. An argument that nobody knows is refused on
sight, so it is reported even behind a value that would have been refused. A value attached by an equals
sign is judged at once.

Two options fall back on variables, which are not looked at when the option is given.
-/

set_option autoImplicit false

namespace TupleSync.Launch

/-- What events come in by. -/
inductive BusKind where
  | inProcess
  | broker
  deriving Repr, DecidableEq

/-- What the command line asks for. -/
structure Options where
  bus : BusKind
  localCapacity : Nat
  verbose : Bool
  jsonLogs : Bool
  deriving Repr, DecidableEq

/-- Why a command line is not acted on. -/
inductive UsageError where
  /-- A value that is not one of the possible ones, or no value at all. -/
  | invalidValue
  /-- A value that cannot be read. -/
  | unreadableValue
  /-- A value that is no text. -/
  | notText
  | unknownArgument
  /-- An option that is given twice. -/
  | repeatedOption
  /-- A value for an option that takes none. -/
  | unwantedValue
  /-- Only help was asked for. -/
  | helpWanted
  deriving Repr, DecidableEq

/-- The options that take a value. -/
inductive ValueOption where
  | bus
  | localCapacity
  deriving Repr, DecidableEq

/-- The options that take none. -/
inductive Flag where
  | verbose
  | jsonLogs
  | help
  deriving Repr, DecidableEq

namespace CommandLine

/-- What is read so far. -/
structure Progress where
  bus : Option BusKind
  localCapacity : Option Nat
  verbose : Bool
  jsonLogs : Bool
  /-- An option whose value, if it has come, is not yet judged. -/
  pending : Option (ValueOption × Option String)
  /-- Only values may follow. -/
  valuesOnly : Bool

def Progress.start : Progress := ⟨none, none, false, false, none, false⟩

/-- The bus of that name. -/
def readBus (s : String) : Except UsageError BusKind :=
  match s with
  | "local" => .ok .inProcess
  | "nats" => .ok .broker
  | _ => .error .invalidValue

def readCapacity (s : String) : Except UsageError Nat :=
  match Text.natBelow? UInt64.size s with
  | some n => .ok n
  | none => .error .unreadableValue

/-- Gives an option its value, once. -/
def Progress.setValue (p : Progress) (o : ValueOption) (s : String) : Except UsageError Progress :=
  match o with
  | .bus =>
    if p.bus.isSome then .error .repeatedOption
    else do return { p with bus := some (← readBus s) }
  | .localCapacity =>
    if p.localCapacity.isSome then .error .repeatedOption
    else do return { p with localCapacity := some (← readCapacity s) }

/-- Judges the value that was put aside. -/
def Progress.settle (p : Progress) : Except UsageError Progress :=
  match p.pending with
  | none => .ok p
  | some (_, none) => .error .invalidValue
  | some (o, some s) => { p with pending := none }.setValue o s

/-- Sets a flag, once. -/
def Progress.setFlag (p : Progress) (f : Flag) : Except UsageError Progress := do
  let p ← p.settle
  match f with
  | .verbose => if p.verbose then .error .repeatedOption else return { p with verbose := true }
  | .jsonLogs => if p.jsonLogs then .error .repeatedOption else return { p with jsonLogs := true }
  | .help => .error .helpWanted

/-- The option of a long name. -/
def longOption? (name : String) : Option (ValueOption ⊕ Flag) :=
  match name with
  | "bus" => some (.inl .bus)
  | "local-capacity" => some (.inl .localCapacity)
  | "verbose" => some (.inr .verbose)
  | "json-logs" => some (.inr .jsonLogs)
  | "help" => some (.inr .help)
  | _ => none

/-- Takes a long option, with the value attached to it if there is one. -/
def Progress.takeLong (p : Progress) (name : String) (attached : Option String) :
    Except UsageError Progress :=
  match longOption? name, attached with
  | none, _ => .error .unknownArgument
  | some (.inl o), some s => do (← p.settle).setValue o s
  | some (.inl o), none => do return { ← p.settle with pending := some (o, none) }
  | some (.inr _), some _ => .error .unwantedValue
  | some (.inr f), none => p.setFlag f

/-- Takes one-letter options. -/
def Progress.takeShort (p : Progress) : List Char → Except UsageError Progress
  | [] => .ok p
  | 'v' :: rest => do (← p.setFlag .verbose).takeShort rest
  | 'h' :: rest => do (← p.setFlag .help).takeShort rest
  | _ => .error .unknownArgument

/-- Takes a value; only an option that waits for one has a use for it. -/
def Progress.takeValue (p : Progress) (s : String) : Except UsageError Progress :=
  match p.pending with
  | some (o, none) => .ok { p with pending := some (o, some s) }
  | _ => .error .unknownArgument

/-- Takes an argument. -/
def Progress.take (p : Progress) (arg : String) : Except UsageError Progress :=
  if p.valuesOnly then .error .unknownArgument
  else match arg.toList with
    | ['-', '-'] => .ok { p with valuesOnly := true }
    | '-' :: '-' :: cs =>
      let name := cs.takeWhile fun c => c != '='
      match cs.dropWhile fun c => c != '=' with
      | [] => p.takeLong (String.ofList name) none
      | _ :: value => p.takeLong (String.ofList name) (some (String.ofList value))
    | '-' :: c :: cs => p.takeShort (c :: cs)
    | _ => p.takeValue arg

/-- The value of a variable that stands in for an option. -/
def fallback {α : Type} (env : Environment) (name : String) (read : String → Except UsageError α)
    (given : Option α) (default : α) : Except UsageError α :=
  match given, env.bytes? name with
  | some a, _ => .ok a
  | none, none => .ok default
  | none, some _ =>
    match env.text? name with
    | some s => read s
    | none => .error .notText

/-- Reads a command line. -/
def parse (args : List String) (env : Environment) : Except UsageError Options := do
  let p ← args.foldlM Progress.take Progress.start
  let p ← p.settle
  let bus ← fallback env "EVENT_BUS" readBus p.bus .broker
  let localCapacity ←
    fallback env "LOCAL_BUS_CAPACITY" readCapacity p.localCapacity Bus.Local.defaultCapacity
  return ⟨bus, localCapacity, p.verbose, p.jsonLogs⟩

end CommandLine

/-- Whether records are written as JSON: by option, or by a variable that says so in any case. -/
def Options.jsonOutput (o : Options) (env : Environment) : Bool :=
  o.jsonLogs || (env.text? "LOG_FORMAT").any fun s => s.map Char.toLower == "json"

end TupleSync.Launch
