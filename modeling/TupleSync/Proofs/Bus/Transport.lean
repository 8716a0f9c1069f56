import TupleSync.Proofs.Bus.Handler
import TupleSync.Proofs.Bus.Messages
import TupleSync.Proofs.Bus.Publication
import TupleSync.Proofs.Event.Payload
import TupleSync.Proofs.Sync.Dispatch
import TupleSync.Store.Memory
import TupleSync.Store.Observed

/-!
# Both buses deliver the same

**Whichever bus carries the events, the same handlers are invoked with the same events in the same
order.** The local bus gives each handler the event; over the broker a handler is given the event's payload
and reads it under its own name. A registered handler takes the variant of the name that it is filed
under, so the first always finds its event, and the second reads it back.

A run of either bus may be interleaved in any way and serve other callers on the side. What is asked of it
is that the handlers were registered, that the events came in, in order, and that they went out in the
same order.
-/

set_option autoImplicit false

namespace TupleSync.Bus

open Handler (filedUnder)

variable {β : Type}

/-- A handler reads the payload of an event of its name as the event. -/
theorem Handler.givePayload_of_name (body : β) (e : Event) :
    (Handler.of e.name body).givePayload e.payloadBytes = .invoked body e := by
  rw [givePayload, show (Handler.of e.name body).name = e.name from rfl,
    Event.ofPayload_payloadBytes]
  rfl

theorem Local.delivers_typed_iff {regs : List (EventName × β)} {capacity : Nat} {es : List Event}
    {ds : List (Delivery β)} :
    Delivers capacity (typed regs) es ds ↔ ds = es.flatMap (invocations regs) := by
  have hgiven : (fun e => (filedUnder (typed regs) e.name).map fun h => h.give e) =
      invocations regs := funext (map_give_filedUnder_typed regs)
  rw [delivers_iff, hgiven]

theorem Broker.delivers_typed_iff {regs : List (EventName × β)} {config : BrokerConfig}
    {es : List Event} {ds : List (Delivery β)} :
    Delivers config (typed regs) es ds ↔ ds = es.flatMap (invocations regs) := by
  have hgiven : (fun e => fanout (typed regs) (message e)) = invocations regs :=
    funext fun e => map_filedUnder_typed regs (Handler.givePayload_of_name · e)
  rw [delivers_iff, hgiven]

/-- The registrations of the synchronizer. -/
def syncRegistrations : List (EventName × Unit) := EventName.all.map fun n => (n, ())

theorem typed_syncRegistrations : typed syncRegistrations = Sync.handlers := by
  rw [typed, syncRegistrations, List.map_map]
  rfl

theorem flatMap_invocations_sync (es : List Event) :
    es.flatMap (invocations syncRegistrations) = es.map (.invoked ()) := by
  have hone : invocations syncRegistrations = fun e => [.invoked () e] := by
    funext e
    rw [← map_give_filedUnder_typed, typed_syncRegistrations, Sync.filedUnder_handlers,
      List.map_singleton, Handler.give_of_name]
  rw [hone]
  exact List.map_eq_flatMap.symm

/-- **The transport does not matter.** For all registrations and events a local bus and a broker bus
deliver one and the same: each event, in order, to the bodies that are registered under its name, in the
order of their registration. With the handlers of the synchronizer both therefore make the same calls to
a store and leave the same store, those of handling the events in order. -/
theorem transports_agree (regs : List (EventName × β)) (capacity : Nat) (config : BrokerConfig)
    (es : List Event) {σ : Type} [TupleStore σ] (o : Observed σ) :
    (∀ ds, Local.Delivers capacity (typed regs) es ds ↔ ds = es.flatMap (invocations regs)) ∧
      (∀ ds, Broker.Delivers config (typed regs) es ds ↔ ds = es.flatMap (invocations regs)) ∧
      ∀ ds ds', Local.Delivers capacity Sync.handlers es ds →
        Broker.Delivers config Sync.handlers es ds' →
        let left := ((Sync.respondAll ds).run o).2
        let right := ((Sync.respondAll ds').run o).2
        left.calls = right.calls ∧ left.store = right.store ∧
          left = ((Sync.handleAll es).run o).2 := by
  refine ⟨fun ds => Local.delivers_typed_iff, fun ds => Broker.delivers_typed_iff, ?_⟩
  intro ds ds' hlocal hbroker left right
  rw [← typed_syncRegistrations] at hlocal hbroker
  have hds : ds = es.map (.invoked ()) :=
    (Local.delivers_typed_iff.1 hlocal).trans (flatMap_invocations_sync es)
  have hds' : ds' = es.map (.invoked ()) :=
    (Broker.delivers_typed_iff.1 hbroker).trans (flatMap_invocations_sync es)
  have hleft : left = ((Sync.handleAll es).run o).2 := by
    show ((Sync.respondAll ds).run o).2 = _
    rw [hds, Sync.respondAll_invoked]
  have hright : right = ((Sync.handleAll es).run o).2 := by
    show ((Sync.respondAll ds').run o).2 = _
    rw [hds', Sync.respondAll_invoked]
  exact ⟨by rw [hleft, hright], by rw [hleft, hright], hleft⟩

/-- A deletion with two handlers after an event without one, and what the synchronizer makes of both. -/
theorem transports_agree_twoHandlers :
    let regs : List (EventName × Nat) := [(.delete .user, 1), (.create .user, 2), (.delete .user, 3)]
    let es : List Event := [.linked (.ownerOfService 5 7), .deleted .user 7]
    let ds : List (Delivery Nat) :=
      [.invoked 1 (.deleted .user 7), .invoked 3 (.deleted .user 7)]
    let o : Observed MemoryStore := ⟨MemoryStore.empty, [], []⟩
    Local.Delivers 1 (typed regs) es ds ∧ Broker.Delivers .default (typed regs) es ds ∧
      ∃ left right, Local.Delivers 1 Sync.handlers es left ∧
        Broker.Delivers .default Sync.handlers es right ∧
        ((Sync.respondAll left).run o).2.calls = ((Sync.respondAll right).run o).2.calls ∧
        ((Sync.respondAll left).run o).2.store = ((Sync.respondAll right).run o).2.store := by
  intro regs es ds o
  obtain ⟨hlocal, hbroker, hsync⟩ := transports_agree regs 1 .default es o
  obtain ⟨left, hleft⟩ := Local.exists_delivers 1 Sync.handlers es
  obtain ⟨right, hright⟩ := Broker.exists_delivers .default Sync.handlers es
  obtain ⟨hcalls, hstore, -⟩ := hsync left right hleft hright
  exact ⟨(hlocal ds).2 rfl, (hbroker ds).2 rfl, left, right, hleft, hright, hcalls, hstore⟩

end TupleSync.Bus
