import TupleSync.Proofs.Store.Run
import TupleSync.Store.Observed

/-!
# Calls on an observed store

**A call is written down whether or not it is made, and a refused one leaves the store behind it alone.**
So each operation of an observed store has two equations, and `bind_call_apply` is what follows a call in
either case.

Nothing that is done to an observed store looks at the calls that are written down: `Oblivious` says that
of an action, and is kept when actions are put together.
-/

set_option autoImplicit false

namespace TupleSync
namespace Observed

variable {σ α : Type} {o : Observed σ} {c : StoreCall} {op : StoreM σ α}

/-- The store with one more call written down, and with what it came to. -/
def note (o : Observed σ) (c : StoreCall) (s : σ) : Observed σ :=
  { o with store := s, calls := o.calls ++ [c] }

theorem run_call_of_refused (h : c.method ∈ o.refused) :
    (call c op).run o = (.error refusal, o.note c o.store) := by
  show (ite (c.method ∈ o.refused) _ _ : StoreM (Observed σ) α).run (o.note c o.store) = _
  rw [if_pos h]
  rfl

theorem run_call_of_allowed (h : c.method ∉ o.refused) :
    (call c op).run o = ((op.run o.store).1, o.note c (op.run o.store).2) := by
  show (ite (c.method ∈ o.refused) _ _ : StoreM (Observed σ) α).run (o.note c o.store) = _
  rw [if_neg h]
  rfl

/-- A call that the store itself does not refuse fails for its method or not at all. -/
theorem bind_call_apply {β : Type} {a : α} {s : σ} (h : op.run o.store = (.ok a, s))
    (f : Except StoreError α → StateM (Observed σ) β) :
    ((call c op).run >>= f) o =
      if c.method ∈ o.refused then f (.error refusal) (o.note c o.store)
      else f (.ok a) (o.note c s) := by
  rw [stateM_bind_apply]
  split
  · next hrefused => rw [run_call_of_refused hrefused]
  · next hallowed => rw [run_call_of_allowed hallowed, h]

/-! ## Earlier calls -/

/-- The store with calls written down that were made before all others. -/
def withEarlier (o : Observed σ) (earlier : List StoreCall) : Observed σ :=
  { o with calls := earlier ++ o.calls }

theorem note_withEarlier (earlier : List StoreCall) (s : σ) :
    (o.withEarlier earlier).note c s = (o.note c s).withEarlier earlier := by
  rw [note, note, withEarlier, withEarlier, List.append_assoc]

/-- The action does the same whatever was called before it. -/
def Oblivious (x : StateM (Observed σ) α) : Prop :=
  ∀ o earlier, x (o.withEarlier earlier) = ((x o).1, (x o).2.withEarlier earlier)

theorem oblivious_pure (a : α) : Oblivious (pure a : StateM (Observed σ) α) := fun _ _ => rfl

theorem Oblivious.bind {β : Type} {x : StateM (Observed σ) α} {f : α → StateM (Observed σ) β}
    (hx : Oblivious x) (hf : ∀ a, Oblivious (f a)) : Oblivious (x >>= f) := by
  intro o earlier
  rw [stateM_bind_apply, stateM_bind_apply, hx o earlier]
  exact hf _ _ earlier

theorem oblivious_call (c : StoreCall) (op : StoreM σ α) : Oblivious (call c op).run := by
  intro o earlier
  by_cases h : c.method ∈ o.refused
  · have hrun : (call c op).run (o.withEarlier earlier) = _ :=
      run_call_of_refused (o := o.withEarlier earlier) h
    rw [hrun, run_call_of_refused h, note_withEarlier]
    rfl
  · have hrun : (call c op).run (o.withEarlier earlier) = _ :=
      run_call_of_allowed (o := o.withEarlier earlier) h
    rw [hrun, run_call_of_allowed h, note_withEarlier]
    rfl

/-! ## Nothing refused -/

theorem run_call_of_nil (c : StoreCall) (op : StoreM σ α) (s : σ) (calls : List StoreCall) :
    (call c op).run ⟨s, calls, []⟩ = ((op.run s).1, ⟨(op.run s).2, calls ++ [c], []⟩) :=
  run_call_of_allowed List.not_mem_nil

/-- The first action does on an observed store, of which nothing is refused, what the second does on the
store behind it. -/
def Shows (x : StoreM (Observed σ) α) (y : StoreM σ α) : Prop :=
  ∀ s calls, ∃ calls', x.run ⟨s, calls, []⟩ = ((y.run s).1, ⟨(y.run s).2, calls', []⟩)

theorem shows_pure (a : α) : Shows (pure a : StoreM (Observed σ) α) (pure a) :=
  fun _ calls => ⟨calls, rfl⟩

theorem shows_call (c : StoreCall) (op : StoreM σ α) : Shows (call c op) op :=
  fun s calls => ⟨calls ++ [c], run_call_of_nil c op s calls⟩

theorem Shows.bind {β : Type} {x : StoreM (Observed σ) α} {y : StoreM σ α}
    {f : α → StoreM (Observed σ) β} {g : α → StoreM σ β} (hx : Shows x y)
    (hf : ∀ a, Shows (f a) (g a)) : Shows (x >>= f) (y >>= g) := by
  intro s calls
  obtain ⟨calls', hrun⟩ := hx s calls
  rcases hy : y.run s with ⟨e | a, s'⟩
  · rw [hy] at hrun
    refine ⟨calls', ?_⟩
    rw [storeM_bind_of_error hrun, storeM_bind_of_error hy]
  · rw [hy] at hrun
    rw [storeM_bind_of_ok hrun, storeM_bind_of_ok hy]
    exact hf a s' calls'

end Observed
end TupleSync
