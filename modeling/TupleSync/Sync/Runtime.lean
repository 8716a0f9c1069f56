import TupleSync.Bus.Local
import TupleSync.Sync.Handle

/-!
# The synchronizer at work

**A synchronizer is a local bus with one handler for each of the twenty-seven events, bound to one
store.** Opening it registers the handlers and starts the bus; a bus that runs already takes no handlers,
so it cannot be bound a second time. Each event that is published is handled to its end before the next
one is published here; that the order of handling is the order of publishing is the bus's doing.
-/

set_option autoImplicit false

namespace TupleSync.Sync

open Bus Log

/-- The handlers of the synchronizer, in the order of their registration. -/
def handlers : List (Handler Unit) := EventName.all.map fun n => .of n ()

/-- What the synchronizer reports of itself. -/
inductive RuntimeNotice where
  | handlersRegistered (count : Nat)
  | running
  | stopped

def RuntimeNotice.record : RuntimeNotice → Record
  | handlersRegistered count =>
    ⟨.info, "authz_sync::wiring", "registered authorization handlers",
      [("handlers", .number count)]⟩
  | running => ⟨.info, "authz_sync::runtime", "authorization synchronizer running", []⟩
  | stopped => ⟨.info, "authz_sync::runtime", "authorization synchronizer stopped", []⟩

/-- A bus, a store, and what was reported so far. -/
structure Runtime (σ : Type) where
  bus : Local Unit
  store : σ
  log : List Record

namespace Runtime

variable {σ : Type}

/-- Writes something down. -/
def note {α : Type} (f : α → Record) (ns : List α) (r : Runtime σ) : Runtime σ :=
  { r with log := r.log ++ ns.map f }

/-- Takes a step of the bus, if it can be taken. -/
def move? (r : Runtime σ) (m : Local.Move Unit) : Option (List (Happening Unit) × Runtime σ) :=
  (r.bus.move? m).map fun (hs, bus) =>
    (hs, { r with bus, log := r.log ++ Happening.records hs })

/-- Takes a step of the bus that is not waited for. -/
def move (r : Runtime σ) (m : Local.Move Unit) : Runtime σ :=
  match r.move? m with
  | some (_, r) => r
  | none => r

/-- Registers a handler. -/
def register (r : Runtime σ) (h : Handler Unit) : Except BusError (Runtime σ) := do
  let _ ← r.bus.register h
  return r.move (.register h)

/-- Registers the handlers and starts the bus. -/
def start (r : Runtime σ) : Except BusError (Runtime σ) := do
  let r ← handlers.foldlM register r
  let r := r.note RuntimeNotice.record [.handlersRegistered handlers.length]
  let _ ← r.bus.run
  return (r.move .run).note RuntimeNotice.record [.running]

variable [TupleStore σ]

/-- Lets the handlers that were given an event do their work. -/
def serve : List (Happening Unit) → Runtime σ → Runtime σ
  | [], r => r
  | .delivered (.invoked () e) :: rest, r =>
    let (notices, store) := (handle e).run r.store
    serve rest ({ r with store }.note Notice.record notices)
  | _ :: rest, r => serve rest r

/-- One step of the worker, or of the handler that it runs. -/
def advance? (r : Runtime σ) : Option (Runtime σ) :=
  match r.move? .finish with
  | some (_, r) => some r
  | none => (r.move? .advance).map fun (hs, r) => serve hs r

/-- Takes so many steps of the worker, or fewer if it has none left. -/
def advance : Nat → Runtime σ → Runtime σ
  | 0, r => r
  | fuel + 1, r =>
    match r.advance? with
    | some r => advance fuel r
    | none => r

/-- The worker takes two steps for each handler of an event and two for the event itself, then it may
leave. -/
def drain (r : Runtime σ) : Runtime σ :=
  advance ((r.bus.queue.length + 1) * (2 * r.bus.table.length + 2) + 1) r

/-- Publishes an event and waits until it is handled. -/
def publish (e : Event) (r : Runtime σ) : Runtime σ := drain (r.move (.push e))

/-- The caller's signal fires. -/
def cancel (r : Runtime σ) : Runtime σ := drain (r.move .signal)

/-- Stops the bus. -/
def close (r : Runtime σ) : Runtime σ :=
  ((drain (r.move .shutdown)).move .join).note RuntimeNotice.record [.stopped]

end Runtime

/-- Binds a bus to a store. -/
def Runtime.open {σ : Type} (bus : Local Unit) (store : σ) : Except BusError (Runtime σ) :=
  Runtime.start ⟨bus, store, []⟩

end TupleSync.Sync
