import TupleSync.Proofs.Bus.Publication
import TupleSync.Proofs.Sync.Dispatch
import TupleSync.Proofs.Sync.Step

/-!
# The synchronizer at work

**To publish an event to a synchronizer is to handle it on the synchronizer's store.** The worker takes
the event, gives it to the one handler of its name, and waits again; the bus is then as it was before, so
what holds of one event holds of any number of them. Nothing here asks how the store answered: a handler
that reports failures returns like any other.
-/

set_option autoImplicit false

namespace TupleSync
namespace Sync

open Bus

namespace Runtime

variable {σ : Type} {r : Runtime σ}

/-- The bus runs, all handlers are registered on it, and it waits for an event. -/
structure Waiting (r : Runtime σ) : Prop where
  ready : Local.Ready handlers r.bus
  attached : r.bus.attached = true

theorem Waiting.isRunning (h : r.Waiting) : r.bus.isRunning = true := by
  rw [Local.isRunning, h.ready.stage]
  exact h.attached

/-! ## Opening -/

/-- A synchronizer whose bus was not run takes a handler. -/
theorem register_eq {b : Local Unit} (store : σ) (log : List Log.Record) (k : Handler Unit)
    (hstage : b.stage = .assembling) :
    ∃ log', register ⟨b, store, log⟩ k = .ok ⟨{ b with table := b.table ++ [k] }, store, log'⟩ := by
  have hbus : b.register k = .ok { b with table := b.table ++ [k] } := by
    rw [Local.register, hstage]
  have hmove : b.move? (.register k) =
      some ([.registered k.name], { b with table := b.table ++ [k] }) := by
    rw [Local.move?, hbus]
  refine ⟨log ++ Happening.records [(.registered k.name : Happening Unit)], ?_⟩
  rw [register, hbus]
  show Except.ok (move ⟨b, store, log⟩ (.register k)) = _
  rw [move, move?, hmove]
  rfl

theorem foldlM_register (hs : List (Handler Unit)) {b : Local Unit} (store : σ)
    (log : List Log.Record) (hstage : b.stage = .assembling) :
    ∃ log', hs.foldlM register ⟨b, store, log⟩ =
      .ok ⟨{ b with table := b.table ++ hs }, store, log'⟩ := by
  induction hs generalizing b log with
  | nil =>
    refine ⟨log, ?_⟩
    rw [List.append_nil]
    rfl
  | cons k hs ih =>
    obtain ⟨log₁, hfirst⟩ := register_eq store log k hstage
    obtain ⟨log₂, hrest⟩ := ih (b := { b with table := b.table ++ [k] }) log₁ hstage
    refine ⟨log₂, ?_⟩
    rw [List.append_assoc] at hrest
    rw [List.foldlM_cons, hfirst]
    exact hrest

/-- A synchronizer can be opened on a new bus and any store, and then waits for events. -/
theorem exists_open (capacity : Nat) (store : σ) :
    ∃ r, Runtime.open (Local.new capacity) store = .ok r ∧ r.Waiting ∧ r.store = store := by
  obtain ⟨log, hregister⟩ := foldlM_register handlers (b := Local.new capacity) store [] rfl
  let b : Local Unit := Local.new capacity
  let running : Local Unit :=
    { b with table := b.table ++ handlers, stage := .working .idle, attached := true }
  have hopen : ∃ log', Runtime.open b store = .ok ⟨running, store, log'⟩ := by
    rw [Runtime.open, start, hregister]
    exact ⟨_, rfl⟩
  obtain ⟨log', hopen⟩ := hopen
  exact ⟨_, hopen, ⟨⟨rfl, rfl, rfl, rfl, rfl⟩, rfl⟩, rfl⟩

/-! ## Publishing -/

section Publish

variable [TupleStore σ] {b b' : Local Unit} {store : σ} {log : List Log.Record}
  {hs : List (Happening Unit)}

theorem advance_of_some {r' : Runtime σ} (fuel : Nat) (h : r.advance? = some r') :
    advance (fuel + 1) r = advance fuel r' := by
  rw [advance, h]

theorem advance_of_none (fuel : Nat) (h : r.advance? = none) : advance fuel r = r := by
  cases fuel with
  | zero => rfl
  | succ fuel => rw [advance, h]

/-- A handler that runs is let finish. -/
theorem advance?_of_finish (hfinish : b.finish? = some b') :
    advance? (⟨b, store, log⟩ : Runtime σ) = some ⟨b', store, log⟩ := by
  have hmove : move? (⟨b, store, log⟩ : Runtime σ) .finish = some ([], ⟨b', store, log ++ []⟩) := by
    rw [move?, Local.move?, hfinish]
    rfl
  rw [advance?, hmove, List.append_nil]

/-- Where no handler runs, the worker takes its next step, and what it delivers is served. -/
theorem advance?_of_advance (hfinish : b.finish? = none) (hadvance : b.advance? = some (hs, b')) :
    advance? (⟨b, store, log⟩ : Runtime σ) =
      some (serve hs ⟨b', store, log ++ Happening.records hs⟩) := by
  have hnone : move? (⟨b, store, log⟩ : Runtime σ) .finish = none := by
    rw [move?, Local.move?, hfinish]
    rfl
  have hmove : move? (⟨b, store, log⟩ : Runtime σ) .advance =
      some (hs, ⟨b', store, log ++ Happening.records hs⟩) := by
    rw [move?, Local.move?, hadvance]
    rfl
  rw [advance?, hnone, hmove]
  rfl

theorem advance?_of_idle (hfinish : b.finish? = none) (hadvance : b.advance? = none) :
    advance? (⟨b, store, log⟩ : Runtime σ) = none := by
  rw [advance?, move?, Local.move?, hfinish, move?, Local.move?, hadvance]
  rfl

/-- What handling an event reports, from a store. -/
def reports (e : Event) (store : σ) : List Log.Record :=
  ((handle e).run store).1.map Notice.record

/-- The worker gives an event to its handler, which handles it, and waits again. -/
theorem advance_serving (hqueue : b.queue = []) (hstage : b.stage = .working .idle)
    (hasked : b.signalled = false ∧ b.stopping = false) (e : Event) (fuel : Nat) :
    advance (fuel + 3) (⟨{ b with stage := .working (.serving e none [.of e.name ()]) }, store, log⟩ :
      Runtime σ) = ⟨b, after e store, log ++ reports e store⟩ := by
  have hgive : advance? (⟨{ b with stage := .working (.serving e none [.of e.name ()]) }, store,
      log⟩ : Runtime σ) = some ⟨{ b with stage := .working (.serving e (some (.of e.name ())) []) },
        after e store, log ++ reports e store⟩ := by
    refine (advance?_of_advance rfl rfl).trans ?_
    rw [Handler.give_of_name]
    show some (⟨_, after e store, log ++ [] ++ reports e store⟩ : Runtime σ) = _
    rw [List.append_nil]
  have hfinish : advance? (⟨{ b with stage := .working (.serving e (some (.of e.name ())) []) },
      after e store, log ++ reports e store⟩ : Runtime σ) =
      some ⟨{ b with stage := .working (.serving e none []) }, after e store,
        log ++ reports e store⟩ := advance?_of_finish rfl
  have hend : advance? (⟨{ b with stage := .working (.serving e none []) }, after e store,
      log ++ reports e store⟩ : Runtime σ) = some ⟨b, after e store, log ++ reports e store⟩ := by
    refine (advance?_of_advance rfl rfl).trans ?_
    show some (⟨{ b with stage := .working .idle }, after e store, log ++ reports e store ++ []⟩ :
      Runtime σ) = _
    rw [List.append_nil, ← hstage]
  have hidle : advance? (⟨b, after e store, log ++ reports e store⟩ : Runtime σ) = none := by
    refine advance?_of_idle ?_ ?_
    · rw [Local.finish?, hstage]
    · rw [Local.advance?, hstage]
      simp [hasked, hqueue]
  rw [advance_of_some _ hgive, advance_of_some _ hfinish, advance_of_some _ hend,
    advance_of_none _ hidle]

/-- **To publish an event is to handle it.** The bus is afterwards as it was before. -/
theorem Waiting.publish_eq (h : r.Waiting) (e : Event) :
    r.publish e = ⟨r.bus, after e r.store, r.log ++ reports e r.store⟩ := by
  obtain ⟨b, store, log⟩ := r
  have hready : Local.Ready handlers b := h.ready
  have hpush : move (⟨b, store, log⟩ : Runtime σ) (.push e) =
      ⟨{ b with queue := [e] }, store, log⟩ := by
    rw [move, move?, hready.move?_push]
    show (⟨_, store, log ++ []⟩ : Runtime σ) = _
    rw [List.append_nil]
  have htaken : { b with queue := [e] : Local Unit }.advance? = some ([.taken e],
      { b with stage := .working (.serving e none [.of e.name ()]) }) := by
    have hfiled : Handler.filedUnder b.table e.name = [.of e.name ()] := by
      rw [hready.table, filedUnder_handlers]
    simp [Local.advance?, hready.stage, hready.unasked, hfiled, hready.queue]
  have htake : advance? (⟨{ b with queue := [e] }, store, log⟩ : Runtime σ) =
      some ⟨{ b with stage := .working (.serving e none [.of e.name ()]) }, store, log⟩ := by
    refine (advance?_of_advance ?_ htaken).trans ?_
    · rw [Local.finish?, hready.stage]
    · show some (⟨_, store, log ++ []⟩ : Runtime σ) = _
      rw [List.append_nil]
  have hfuel : ([e].length + 1) * (2 * b.table.length + 2) + 1 =
      4 * b.table.length + 1 + 3 + 1 := by
    rw [List.length_singleton]
    omega
  rw [publish, hpush]
  show advance (([e].length + 1) * (2 * b.table.length + 2) + 1) _ = _
  rw [hfuel, advance_of_some _ htake]
  exact advance_serving hready.queue hready.stage hready.unasked e _

theorem Waiting.publish (h : r.Waiting) (e : Event) : (r.publish e).Waiting := by
  rw [h.publish_eq]
  exact ⟨h.ready, h.attached⟩

/-- Publishes events one after the other. -/
def publishAll (events : List Event) (r : Runtime σ) : Runtime σ :=
  events.foldl (fun r e => r.publish e) r

/-- **Every event that is published is handled**, in order, and the synchronizer waits for the next. -/
theorem Waiting.publishAll (events : List Event) (h : r.Waiting) :
    (r.publishAll events).Waiting ∧ (r.publishAll events).store = afterAll events r.store := by
  induction events generalizing r with
  | nil => exact ⟨h, rfl⟩
  | cons e events ih =>
    obtain ⟨hwaiting, hstore⟩ := ih (h.publish e)
    refine ⟨hwaiting, hstore.trans ?_⟩
    rw [h.publish_eq, afterAll_cons]

end Publish

end Runtime

end Sync
end TupleSync
