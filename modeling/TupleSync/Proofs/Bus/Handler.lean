import TupleSync.Bus.Handler

/-!
# Handlers of one variant

**A handler that is filed under the name whose variant it takes is invoked with every event of that
name.** All handlers that are registered by their variant are of this kind, so what such a table does with
an event is told by the registrations alone: `invocations` are the bodies that were registered under the
event's name, in their order, each with the event.
-/

set_option autoImplicit false

namespace TupleSync.Bus

variable {β : Type}

/-- A handler takes an event of its own name. -/
theorem Handler.give_of_name (body : β) (e : Event) :
    (Handler.of e.name body).give e = .invoked body e := by
  have hextract : (Handler.of e.name body).extract e = some e := if_pos rfl
  rw [Handler.give, hextract]
  rfl

/-- The handlers of registrations: each is filed under the name whose variant it takes. -/
def typed (regs : List (EventName × β)) : List (Handler β) := regs.map fun r => .of r.1 r.2

/-- The bodies that are registered for an event, with the event. -/
def invocations (regs : List (EventName × β)) (e : Event) : List (Delivery β) :=
  (regs.filter fun r => r.1 = e.name).map fun r => .invoked r.2 e

theorem filedUnder_typed (regs : List (EventName × β)) (name : EventName) :
    Handler.filedUnder (typed regs) name = typed (regs.filter fun r => r.1 = name) := by
  rw [Handler.filedUnder, typed, List.filter_map]
  rfl

/-- Where every handler of an event's name is invoked with it, those that are registered for it are. -/
theorem map_filedUnder_typed (regs : List (EventName × β)) {e : Event} {f : Handler β → Delivery β}
    (hf : ∀ body, f (.of e.name body) = .invoked body e) :
    (Handler.filedUnder (typed regs) e.name).map f = invocations regs e := by
  rw [filedUnder_typed, typed, List.map_map, invocations]
  refine List.map_congr_left fun r hr => ?_
  obtain ⟨-, hname⟩ := List.mem_filter.1 hr
  rw [Function.comp_apply, of_decide_eq_true hname]
  exact hf r.2

/-- Given an event, the handlers of its name are invoked as they are registered. -/
theorem map_give_filedUnder_typed (regs : List (EventName × β)) (e : Event) :
    ((Handler.filedUnder (typed regs) e.name).map fun h => h.give e) = invocations regs e :=
  map_filedUnder_typed regs (Handler.give_of_name · e)

end TupleSync.Bus
