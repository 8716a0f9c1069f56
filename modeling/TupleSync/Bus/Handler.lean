import TupleSync.Event.Payload

/-!
# Handlers

**A handler is filed under the name of one variant and takes that variant from an event, or reads it from
a payload, for itself.** Where the event is at hand it is only looked at; where a message came over the
network the bytes are read, once by every handler. A handler whose variant is filed under another's name
gets events that it cannot take; that is an error of the program, reported and passed over.

A table holds handlers in the order in which they were registered.
-/

set_option autoImplicit false

namespace TupleSync.Bus

/-- A handler of the body's kind. -/
structure Handler (β : Type) where
  /-- The name that the handler is filed under, and that it reads payloads by. -/
  name : EventName
  /-- The variant that the handler takes out of an event. -/
  extract : Event → Option Event
  body : β

namespace Handler

variable {β : Type}

/-- The handler of a variant. -/
def of (name : EventName) (body : β) : Handler β := ⟨name, Event.withName? name, body⟩

/-- The handlers of a table that are filed under the name. -/
def filedUnder (table : List (Handler β)) (name : EventName) : List (Handler β) :=
  table.filter fun h => h.name = name

end Handler

/-- What becomes of something that is given to a handler. -/
inductive Delivery (β : Type) where
  /-- The body is run with the event. -/
  | invoked (body : β) (e : Event)
  /-- The handler is filed under the name of a variant that it does not take. -/
  | misfiled (expected received : EventName)
  /-- The payload cannot be read. -/
  | undecodable (subject : EventName) (fault : Json.Fault) (size : Nat)

namespace Handler

variable {β : Type}

/-- Gives an event to a handler. -/
def give (h : Handler β) (e : Event) : Delivery β :=
  match h.extract e with
  | some e => .invoked h.body e
  | none => .misfiled h.name e.name

/-- Gives a payload to a handler. -/
def givePayload (h : Handler β) (payload : List UInt8) : Delivery β :=
  match Event.ofPayload h.name payload with
  | .ok e => .invoked h.body e
  | .error f => .undecodable h.name f payload.length

end Handler

end TupleSync.Bus
