import TupleSync.Proofs.Store.Run

/-!
# Runs of operations

**The calls that change or list tuples, as data, so that one run can be made on two stores.** An operation
that fails is not the end of a run: the next one is made on the store that the failure left.

A replacement answers with the error of the call it failed in. `replace_eq_bind` says that this is what
the two calls answer, one after the other.
-/

set_option autoImplicit false

namespace TupleSync

/-- A call that changes or lists tuples. -/
inductive Operation where
  | add (t : Tuple)
  | addBulk (ts : List Tuple)
  | remove (t : Tuple)
  | removeBulk (patterns : List Tuple)
  | removeAll
  | replace (stale fresh : Tuple)
  | list (pattern : Tuple)
  deriving Repr, DecidableEq

namespace Operation

variable {σ : Type} [TupleStore σ]

/-- Makes the call; one that lists nothing answers with no tuples. -/
def perform : Operation → StoreM σ (List Tuple)
  | add t => do
    TupleStore.add t
    return []
  | addBulk ts => do
    TupleStore.addBulk ts
    return []
  | remove t => do
    TupleStore.remove t
    return []
  | removeBulk patterns => do
    TupleStore.removeBulk patterns
    return []
  | removeAll => do
    TupleStore.removeAll
    return []
  | replace stale fresh => do
    let outcome ← (liftM (TupleStore.replace stale fresh : StateM σ Replaced) : StoreM σ Replaced)
    match outcome.error? with
    | some e => throw e
    | none => return []
  | list pattern => TupleStore.list pattern

/-- Makes the calls in order, and gives the answer to each. -/
def performAll : List Operation → σ → List (Except StoreError (List Tuple)) × σ
  | [], s => ([], s)
  | op :: rest, s =>
    let (r, s) := op.perform.run s
    let (more, s) := performAll rest s
    (r :: more, s)

/-- The tuples that the call names one by one, to be written or removed. -/
def named : Operation → List Tuple
  | add t => [t]
  | addBulk ts => ts
  | remove t => [t]
  | replace _ fresh => [fresh]
  | _ => []

end Operation

/-- **A replacement answers as its two calls do, one after the other.** -/
theorem replace_eq_bind {σ : Type} (removeBulk : List Tuple → StoreM σ Unit)
    (add : Tuple → StoreM σ Unit) (stale fresh : Tuple) :
    (do
      let outcome ← (liftM (replaceByTwoCalls removeBulk add stale fresh) : StoreM σ Replaced)
      match outcome.error? with
      | some e => throw e
      | none => return ([] : List Tuple)) =
    (do
      removeBulk [stale]
      add fresh
      return []) := by
  funext s
  show StateT.run (ExceptT.run _) s = StateT.run (ExceptT.run _) s
  rcases hr : (removeBulk [stale]).run s with ⟨e | _, s'⟩
  · have hrun : replaceByTwoCalls removeBulk add stale fresh s = (.removeFailed e, s') :=
      replaceByTwoCalls_of_removeFailed hr
    refine (storeM_bind_of_ok (storeM_liftM_of_eq hrun)).trans ?_
    exact (storeM_bind_of_error hr).symm
  · rcases ha : (add fresh).run s' with ⟨e | _, s''⟩
    · have hrun : replaceByTwoCalls removeBulk add stale fresh s = (.addFailed e, s'') :=
        replaceByTwoCalls_of_addFailed hr ha
      refine (storeM_bind_of_ok (storeM_liftM_of_eq hrun)).trans ?_
      exact ((storeM_bind_of_ok hr).trans (storeM_bind_of_error ha)).symm
    · have hrun : replaceByTwoCalls removeBulk add stale fresh s = (.done, s'') :=
        replaceByTwoCalls_of_done hr ha
      refine (storeM_bind_of_ok (storeM_liftM_of_eq hrun)).trans ?_
      exact ((storeM_bind_of_ok hr).trans (storeM_bind_of_ok ha)).symm

end TupleSync
