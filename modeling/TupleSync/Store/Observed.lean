import TupleSync.Store.Basic

/-!
# Observed stores

**A store that writes down each call before it is made, and refuses those of some methods.** With it one
can say which calls a program makes, in which order and with which arguments, and what becomes of the
tuples when some of them fail. A replacement is not a call of its own: it shows as the two it is made of.
-/

set_option autoImplicit false

namespace TupleSync

/-- The operations of a store, without their arguments. -/
inductive StoreMethod where
  | check
  | add
  | addBulk
  | remove
  | removeBulk
  | removeAll
  | list
  | accessible
  deriving Repr, DecidableEq

/-- The operations of a store with their arguments. -/
inductive StoreCall where
  | check (t : Tuple)
  | add (t : Tuple)
  | addBulk (ts : List Tuple)
  | remove (t : Tuple)
  | removeBulk (patterns : List Tuple)
  | removeAll
  | list (pattern : Tuple)
  | accessible (t : Tuple)
  deriving Repr, DecidableEq

def StoreCall.method : StoreCall → StoreMethod
  | .check _ => .check
  | .add _ => .add
  | .addBulk _ => .addBulk
  | .remove _ => .remove
  | .removeBulk _ => .removeBulk
  | .removeAll => .removeAll
  | .list _ => .list
  | .accessible _ => .accessible

/-- A store under observation. -/
structure Observed (σ : Type) where
  store : σ
  /-- The calls so far, in order. -/
  calls : List StoreCall
  /-- The methods whose calls are refused. -/
  refused : List StoreMethod

namespace Observed

/-- What a refused call answers. -/
def refusal : StoreError := .backend 503 "unavailable"

/-- Runs an operation of the observed store as it is. -/
def lift {σ α : Type} (op : StoreM σ α) : StoreM (Observed σ) α :=
  ExceptT.mk fun o =>
    let (r, store) := op.run o.store
    (r, { o with store })

/-- Writes a call down and makes it, unless its method is refused. -/
def call {σ α : Type} (c : StoreCall) (op : StoreM σ α) : StoreM (Observed σ) α := do
  modify fun o => { o with calls := o.calls ++ [c] }
  if c.method ∈ (← get).refused then throw refusal
  lift op

instance {σ : Type} [TupleStore σ] : TupleStore (Observed σ) where
  check t := call (.check t) (TupleStore.check t)
  add t := call (.add t) (TupleStore.add t)
  addBulk ts := call (.addBulk ts) (TupleStore.addBulk ts)
  remove t := call (.remove t) (TupleStore.remove t)
  removeBulk patterns := call (.removeBulk patterns) (TupleStore.removeBulk patterns)
  removeAll := call .removeAll TupleStore.removeAll
  list pattern := call (.list pattern) (TupleStore.list pattern)
  accessible t := call (.accessible t) (TupleStore.accessible t)

end Observed

end TupleSync
