import TupleSync.Store.Basic

/-!
# Running operations one after the other

**What comes second starts in the state the first one left, whether or not the first one failed.** The
equations below say that once for the two ways operations are put together, so that a proof about a run
goes from state to state and never opens a monad.
-/

set_option autoImplicit false

namespace TupleSync

variable {σ α β : Type}

theorem stateM_bind_apply (x : StateM σ α) (f : α → StateM σ β) (s : σ) :
    (x >>= f) s = f (x s).1 (x s).2 := rfl

theorem storeM_bind_of_ok {x : StoreM σ α} {f : α → StoreM σ β} {s s' : σ} {a : α}
    (h : x.run s = (.ok a, s')) : (x >>= f).run s = (f a).run s' := by
  rw [ExceptT.run_bind, stateM_bind_apply, h]

theorem storeM_bind_of_error {x : StoreM σ α} {f : α → StoreM σ β} {s s' : σ} {e : StoreError}
    (h : x.run s = (.error e, s')) : (x >>= f).run s = (.error e, s') := by
  rw [ExceptT.run_bind, stateM_bind_apply, h]
  rfl

theorem storeM_liftM_of_eq {x : StateM σ α} {s s' : σ} {a : α} (h : x s = (a, s')) :
    (liftM x : StoreM σ α).run s = (.ok a, s') := by
  show (x >>= fun a => pure (Except.ok a)) s = _
  rw [stateM_bind_apply, h]
  rfl

/-! ## Replacing -/

section Replace

variable {removeBulk : List Tuple → StoreM σ Unit} {add : Tuple → StoreM σ Unit}
variable {stale fresh : Tuple} {s s' s'' : σ} {e : StoreError}

theorem replaceByTwoCalls_of_done (hr : (removeBulk [stale]).run s = (.ok (), s'))
    (ha : (add fresh).run s' = (.ok (), s'')) :
    replaceByTwoCalls removeBulk add stale fresh s = (.done, s'') := by
  rw [replaceByTwoCalls, stateM_bind_apply, hr]
  show (bind _ _ : StateM σ Replaced) s' = _
  rw [stateM_bind_apply, ha]
  rfl

theorem replaceByTwoCalls_of_removeFailed (hr : (removeBulk [stale]).run s = (.error e, s')) :
    replaceByTwoCalls removeBulk add stale fresh s = (.removeFailed e, s') := by
  rw [replaceByTwoCalls, stateM_bind_apply, hr]
  rfl

theorem replaceByTwoCalls_of_addFailed (hr : (removeBulk [stale]).run s = (.ok (), s'))
    (ha : (add fresh).run s' = (.error e, s'')) :
    replaceByTwoCalls removeBulk add stale fresh s = (.addFailed e, s'') := by
  rw [replaceByTwoCalls, stateM_bind_apply, hr]
  show (bind _ _ : StateM σ Replaced) s' = _
  rw [stateM_bind_apply, ha]
  rfl

end Replace

end TupleSync
