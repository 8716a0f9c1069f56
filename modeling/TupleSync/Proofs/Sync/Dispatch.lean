import TupleSync.Proofs.Bus.Handler
import TupleSync.Sync.Runtime

/-!
# Events and the handlers that are registered for them

**Each of the twenty-seven names has exactly one handler, and it takes what it is given.** To send an
event to the handlers that the synchronizer registers is therefore to handle it once, and a run of events
through the table is a run of `handle`. The table decides nothing else, so the laws of handling are
stated about `handle` and reach the registered handlers through `dispatchAll_handlers`.
-/

set_option autoImplicit false

namespace TupleSync

namespace Sync

open Bus

variable {σ : Type} [TupleStore σ]

/-- What a handler of the synchronizer does with what it is given: an event that reaches it is handled,
and everything else is only reported. -/
def respond : Delivery Unit → StateM σ Unit
  | .invoked () e => do
    let _ ← handle e
  | .misfiled _ _ => return
  | .undecodable _ _ _ => return

/-- What the handlers do with all that they are given, in order. -/
def respondAll (ds : List (Delivery Unit)) : StateM σ Unit := ds.forM respond

/-- Gives an event to the handlers of a table that are filed under its name, one after the other. -/
def dispatch (table : List (Handler Unit)) (e : Event) : StateM σ Unit :=
  (Handler.filedUnder table e.name).forM fun h => respond (h.give e)

/-- Gives events to the handlers of a table in order. -/
def dispatchAll (table : List (Handler Unit)) (events : List Event) : StateM σ Unit :=
  events.forM (dispatch table)

theorem filedUnder_handlers (n : EventName) : Handler.filedUnder handlers n = [.of n ()] := by
  rcases n with k | k | k | k | k <;> cases k <;> rfl

/-- Handles an event and drops the report. -/
def handleSilently (e : Event) : StateM σ Unit := do
  let _ ← handle e

/-- To be given events is to handle them. -/
theorem respondAll_invoked (events : List Event) :
    (respondAll (events.map (.invoked ())) : StateM σ Unit) = handleAll events := by
  rw [respondAll, List.forM_eq_forM, List.forM_map]
  rfl

theorem dispatch_handlers (e : Event) :
    (dispatch handlers e : StateM σ Unit) = handleSilently e := by
  rw [dispatch, filedUnder_handlers, List.forM_eq_forM, List.forM_cons, Handler.give_of_name]
  rfl

theorem dispatchAll_handlers (events : List Event) :
    (dispatchAll handlers events : StateM σ Unit) = handleAll events := by
  have hsame : dispatch handlers = (handleSilently : Event → StateM σ Unit) :=
    funext dispatch_handlers
  rw [dispatchAll, hsame]
  rfl

end Sync
end TupleSync
