import TupleSync.Bus.Handler
import TupleSync.Log.Record
import TupleSync.Text.Digits

/-!
# The local bus

**One bounded queue feeds one worker, and the worker runs all handlers of an event before it takes the
next.** Everybody else only puts events into the queue or asks the worker to stop. There are two ways to
ask: the caller's signal, and the bus's own stop when it is shut down. The worker looks at the signal
first, then at the stop, and only then at the queue, each time it has nothing to do; an event that it has
begun is finished. Whoever shuts the bus down waits for the worker, and can give up waiting; then the bus
does not know its worker any longer, and no later shutdown waits for it.

The bus is a step system. A `Move` is one atomic step of whoever takes it, `Local.move?` says whether the
step can be taken now and what happens, and an interleaving is a list of moves. What happened is the list
of `Happening`s, and every law of the bus is about that list.
-/

set_option autoImplicit false

namespace TupleSync.Bus

/-- Why a bus refuses. -/
inductive BusError where
  | registryFrozen
  | alreadyRunning
  /-- The broker cannot be reached. -/
  | brokerUnreachable
  /-- The connection to the broker has been closed. -/
  | connectionClosed
  /-- The broker does not open the subscription of a subject. -/
  | subscriptionRefused (subject : EventName)
  deriving Repr, DecidableEq

/-- The error in words; the words of a network error are not this library's. -/
def BusError.message : BusError → String
  | .registryFrozen => "Handler table is frozen once the bus is running"
  | .alreadyRunning => "Event bus is already running"
  | .brokerUnreachable => "Event broker connection failed"
  | .connectionClosed => "Event broker connection failed: connection closed"
  | .subscriptionRefused subject => "Event subscription failed for " ++ subject.text

/-- What the worker of a bus is doing. -/
inductive Worker (β : Type) where
  /-- It waits for a signal or an event. -/
  | idle
  /-- It serves an event: the handler that runs, if one does, and those that are still to run. -/
  | serving (e : Event) (current : Option (Handler β)) (rest : List (Handler β))

/-- Where a bus is in its life. -/
inductive Stage (β : Type) where
  /-- Handlers can be registered; events are only kept. -/
  | assembling
  | working (w : Worker β)
  /-- The worker is over, in good order or because a handler failed. -/
  | over (failed : Bool)
  /-- Nothing is kept and nothing runs. -/
  | closed

/-- A bus and its worker. -/
structure Local (β : Type) where
  /-- How many events the queue holds. -/
  capacity : Nat
  capacity_pos : 0 < capacity
  /-- The handlers in the order of their registration. -/
  table : List (Handler β)
  /-- The events that are accepted and not yet taken, the oldest first. -/
  queue : List Event
  stage : Stage β
  /-- The caller's signal has fired. -/
  signalled : Bool
  /-- The bus was asked to shut down. -/
  stopping : Bool
  /-- The bus still knows its worker. -/
  attached : Bool
  /-- A shutdown was called that has neither returned nor been given up. -/
  closing : Bool

/-- Something that happens on a bus. -/
inductive Happening (β : Type) where
  | registered (name : EventName)
  | started (handlers capacity : Nat)
  | accepted (e : Event)
  /-- The bus is closed, and the event is lost. -/
  | dropped (e : Event)
  | taken (e : Event)
  | unhandled (e : Event)
  | delivered (d : Delivery β)
  /-- The worker stops because the caller's signal has fired. -/
  | cancelled
  /-- The worker stops because the bus is shut down. -/
  | stopped
  /-- Events that were accepted and are never taken. -/
  | discarded (es : List Event)
  /-- A handler failed and took the worker with it. -/
  | failed
  /-- The end of a worker that failed is noticed. -/
  | failureSeen
  | shutDown

namespace Local

variable {β : Type}

/-- How many events a bus holds unless it is told otherwise. -/
def defaultCapacity : Nat := 1000

/-- A new bus; it holds at least one event. -/
def new (capacity : Nat) : Local β where
  capacity := max 1 capacity
  capacity_pos := by omega
  table := []
  queue := []
  stage := .assembling
  signalled := false
  stopping := false
  attached := false
  closing := false

/-- Whether a worker is known and alive. -/
def isRunning (b : Local β) : Bool :=
  match b.stage with
  | .working _ => b.attached
  | _ => false

/-- Whether there is still somebody to take events. -/
def isOpen (b : Local β) : Bool :=
  match b.stage with
  | .assembling => true
  | .working _ => true
  | _ => false

/-- Whether the queue has room. -/
def hasRoom (b : Local β) : Bool := b.queue.length < b.capacity

/-! ## What callers do -/

/-- Registers a handler; only a bus that neither ran nor was shut down takes one. -/
def register (b : Local β) (h : Handler β) : Except BusError (Local β) :=
  match b.stage with
  | .assembling => .ok { b with table := b.table ++ [h] }
  | _ => .error .registryFrozen

/-- Starts the worker, once. -/
def run (b : Local β) : Except BusError (Local β) :=
  match b.stage with
  | .assembling => .ok { b with stage := .working .idle, attached := true }
  | _ => .error .alreadyRunning

/-- Tries to publish: the event is queued, or lost if the bus is closed; without room the publisher has
to wait, and there is no result. -/
def push? (b : Local β) (e : Event) : Option (Happening β × Local β) :=
  if b.isOpen then
    if b.hasRoom then some (.accepted e, { b with queue := b.queue ++ [e] }) else none
  else some (.dropped e, b)

/-- Asks the bus to shut down. Without a worker, what was kept is lost at once. -/
def requestShutdown (b : Local β) : List (Happening β) × Local β :=
  match b.stage with
  | .assembling =>
    ([.discarded b.queue], { b with stage := .closed, queue := [], stopping := true, closing := true })
  | _ => ([], { b with stopping := true, closing := true })

/-- Nobody waits any longer, and the bus does not know its worker: the one who waited has taken it
along. -/
def forget (b : Local β) : Local β := { b with attached := false, closing := false }

/-- Shutting down returns when there is no worker left to wait for. -/
def join? (b : Local β) : Option (List (Happening β) × Local β) :=
  let seen : List (Happening β) := match b.stage with
    | .over true => if b.attached then [.failureSeen] else []
    | _ => []
  if b.closing && !b.isRunning then some (seen ++ [.shutDown], b.forget) else none

/-- Whoever waits for the worker can stop waiting. -/
def giveUp? (b : Local β) : Option (Local β) :=
  if b.closing && b.attached then some b.forget else none

/-! ## What the worker does -/

/-- The worker's next step, if it has one that does not wait for a handler. -/
def advance? (b : Local β) : Option (List (Happening β) × Local β) :=
  match b.stage with
  | .working .idle =>
    if b.signalled then
      some ([.cancelled, .discarded b.queue], { b with stage := .over false, queue := [] })
    else if b.stopping then
      some ([.stopped, .discarded b.queue], { b with stage := .over false, queue := [] })
    else match b.queue with
      | [] => none
      | e :: rest =>
        let hs := Handler.filedUnder b.table e.name
        let b := { b with queue := rest }
        if hs.isEmpty then some ([.taken e, .unhandled e], b)
        else some ([.taken e], { b with stage := .working (.serving e none hs) })
  | .working (.serving e none (h :: rest)) =>
    some ([.delivered (h.give e)], { b with stage := .working (.serving e (some h) rest) })
  | .working (.serving _ none []) => some ([], { b with stage := .working .idle })
  | _ => none

/-- The handler that runs returns. -/
def finish? (b : Local β) : Option (Local β) :=
  match b.stage with
  | .working (.serving e (some _) rest) =>
    some { b with stage := .working (.serving e none rest) }
  | _ => none

/-- The handler that runs fails. -/
def fail? (b : Local β) : Option (List (Happening β) × Local β) :=
  match b.stage with
  | .working (.serving _ (some _) _) =>
    some ([.failed, .discarded b.queue], { b with stage := .over true, queue := [] })
  | _ => none

/-! ## Moves -/

/-- One step of anyone. -/
inductive Move (β : Type) where
  | register (h : Handler β)
  | run
  | push (e : Event)
  /-- The caller's token is cancelled, or the last one is dropped. -/
  | signal
  /-- Somebody asks for a shutdown. -/
  | shutdown
  /-- A shutdown returns. -/
  | join
  /-- A shutdown that waits for the worker is given up. -/
  | giveUp
  | advance
  | finish
  | fail

/-- Takes a step, if it can be taken now. A refused call is a step that changes nothing. -/
def move? (b : Local β) : Move β → Option (List (Happening β) × Local β)
  | .register h =>
    match b.register h with
    | .ok b => some ([.registered h.name], b)
    | .error _ => some ([], b)
  | .run =>
    match b.run with
    | .ok b => some ([.started b.table.length b.capacity], b)
    | .error _ => some ([], b)
  | .push e => (b.push? e).map fun (h, b) => ([h], b)
  | .signal => some ([], { b with signalled := true })
  | .shutdown => some b.requestShutdown
  | .join => b.join?
  | .giveUp => b.giveUp?.map fun b => ([], b)
  | .advance => b.advance?
  | .finish => b.finish?.map fun b => ([], b)
  | .fail => b.fail?

/-- Takes steps in order; there is no result if one of them cannot be taken. -/
def moves? (b : Local β) : List (Move β) → Option (List (Happening β) × Local β)
  | [] => some ([], b)
  | m :: rest => do
    let (first, b) ← b.move? m
    let (more, b) ← b.moves? rest
    return (first ++ more, b)

end Local

/-! ## Records -/

namespace Happening

open Log

def place : String := "events_bus::local"

/-- The record of what happens on a bus, where it leaves one. -/
def record? {β : Type} : Happening β → Option Record
  | registered name =>
    some ⟨.debug, place, "registered local event handler", [("event", .shown name.text)]⟩
  | started handlers capacity =>
    some ⟨.info, place, "starting local event bus",
      [("handlers", .number handlers), ("capacity", .number capacity)]⟩
  | accepted _ => none
  | dropped e =>
    some ⟨.warn, place, "local event bus is closed; dropping event", [("event", .shown e.name.text)]⟩
  | taken _ => none
  | unhandled e => some ⟨.debug, place, "no handlers registered", [("event", .shown e.name.text)]⟩
  | delivered (.invoked _ _) => none
  | delivered (.misfiled expected received) =>
    some ⟨.error, "events_bus::handlers",
      "internal error: handler received an event of the wrong variant",
      [("expected", .shown expected.text), ("received", .shown received.text)]⟩
  | delivered (.undecodable subject _ size) =>
    some ⟨.warn, "events_bus::handlers", "dropping event that could not be decoded",
      [("subject", .shown subject.text), ("bytes", .number size)]⟩
  | cancelled => some ⟨.debug, place, "local event bus cancelled", []⟩
  | stopped => some ⟨.debug, place, "local event bus stopped", []⟩
  | discarded _ => none
  | failed => none
  | failureSeen => some ⟨.error, place, "local event bus worker terminated abnormally", []⟩
  | shutDown => some ⟨.info, place, "local event bus shut down", []⟩

/-- The records of what happened, in order. -/
def records {β : Type} (hs : List (Happening β)) : List Record := hs.filterMap record?

end Happening

end TupleSync.Bus
