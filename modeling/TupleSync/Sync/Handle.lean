import TupleSync.Sync.Notice

/-!
# Handling events

**To handle an event is to carry out its effects on a store, one after the other, and to report how each
went.** No effect waits for another to succeed: an update of a component instance attempts its second
link whatever became of the first.
-/

set_option autoImplicit false

namespace TupleSync.Sync

variable {σ : Type} [TupleStore σ]

/-- Carries out one effect for an event of the name. -/
def Effect.perform (event : EventName) : Effect → StateM σ (List Notice)
  | .add tuples => do
    match ← (TupleStore.addBulk tuples).run with
    | .ok () => return tuples.map (.added event)
    | .error e => return tuples.map (.addFailed event · e)
  | .remove t => do
    match ← (TupleStore.remove t).run with
    | .ok () => return [.removed event t]
    | .error e => return [.removeFailed event t e]
  | .replace stale fresh => do
    let outcome ← TupleStore.replace stale fresh
    let last : Notice := match outcome.error? with
      | none => .replaced event fresh
      | some e => .replaceFailed event stale fresh e
    return replacementNotices stale fresh outcome ++ [last]
  | .sweep kind id => do
    match ← (TupleStore.removeBulk (sweepPatterns kind id)).run with
    | .ok () => return [.swept event kind id]
    | .error e => return [.sweepFailed event kind id e]
  | .nothingToUpdate kind id => return [.nothingToUpdate event kind id]
  | .keepLink l => return [.linkKept event l]
  | .nothingToSweep kind => return [.nothingToSweep event kind]

/-- Carries out effects in order. -/
def performAll (event : EventName) : List Effect → StateM σ (List Notice)
  | [] => return []
  | e :: rest => do
    let first ← e.perform event
    let more ← performAll event rest
    return first ++ more

/-- Handles an event. -/
def handle (e : Event) : StateM σ (List Notice) := performAll e.name (effects e)

/-- Handles events in order and drops the reports. -/
def handleAll (events : List Event) : StateM σ Unit :=
  events.forM fun e => do
    let _ ← handle e

end TupleSync.Sync
