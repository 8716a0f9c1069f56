import TupleSync.Config.Error
import TupleSync.Tuple.Key

/-!
# Tuple stores

**A store answers or fails, and either way there is a store afterwards.** An operation is a state
transition whose error, if it has one, comes beside the next state and not instead of it: whether a
failed operation left the tuples alone is a question that can be asked.

Replacing is the one operation made of others. It first removes what a pattern matches and then adds a
tuple, two calls, so it has a middle in which it can fail; `replaceByTwoCalls` says how far it came.
-/

set_option autoImplicit false

namespace TupleSync

/-- Why a store did not do what it was asked. -/
inductive StoreError where
  /-- The store could not be reached, or its reply could not be read. -/
  | transport
  /-- The store refused. -/
  | backend (status : Nat) (message : String)
  /-- A tuple with empty fields cannot be written. -/
  | incompleteTuple (t : Tuple)
  /-- A pattern that is open in every field is no pattern to remove by. -/
  | openPattern
  /-- A listing of resources that does not say for whom, by what relation, or of what type. -/
  | openListing (t : Tuple)
  | modelSource
  | serialization
  | configuration (e : ConfigError)
  deriving Repr, DecidableEq

/-- The error in words; the words of a network error are not this library's. -/
def StoreError.message : StoreError → String
  | .transport => "Authorization backend unreachable"
  | .backend status message =>
    "Authorization backend returned " ++ toString status ++ ": " ++ message
  | .incompleteTuple t => "Tuple has empty fields and cannot be written: " ++ t.text
  | .openPattern =>
    "Invalid relation filter: an empty filter matches every tuple; use remove_all_relations"
  | .openListing t =>
    "Invalid relation filter: listing resources needs a user, relation and object type: " ++ t.text
  | .modelSource => "Authorization model source could not be loaded"
  | .serialization => "Serialization error"
  | .configuration e => "Configuration error: " ++ e.message

/-- A store operation: the state goes on whether it succeeds or fails. -/
abbrev StoreM (σ : Type) := ExceptT StoreError (StateM σ)

/-- How a replacement ended. -/
inductive Replaced where
  /-- There was nothing to do and nothing to tell. -/
  | silently
  | done
  /-- The stale tuples are still there, and nothing was added. -/
  | removeFailed (e : StoreError)
  /-- The stale tuples are gone, and nothing was added. -/
  | addFailed (e : StoreError)
  deriving Repr, DecidableEq

/-- The error of a replacement that did not come to its end. -/
def Replaced.error? : Replaced → Option StoreError
  | .silently => none
  | .done => none
  | .removeFailed e => some e
  | .addFailed e => some e

/-- Removes by `removeBulk` what the pattern matches and then adds by `add`. -/
def replaceByTwoCalls {σ : Type} (removeBulk : List Tuple → StoreM σ Unit)
    (add : Tuple → StoreM σ Unit) (stale fresh : Tuple) : StateM σ Replaced := do
  match ← (removeBulk [stale]).run with
  | .error e => return .removeFailed e
  | .ok () =>
    match ← (add fresh).run with
    | .error e => return .addFailed e
    | .ok () => return .done

/-- Stores of tuples. -/
class TupleStore (σ : Type) where
  /-- Whether the subject has the relation on the object. -/
  check : Tuple → StoreM σ Bool
  /-- Writes one tuple; one that is there already is written once. -/
  add : Tuple → StoreM σ Unit
  addBulk : List Tuple → StoreM σ Unit
  /-- Removes one tuple, or all that a pattern matches. -/
  remove : Tuple → StoreM σ Unit
  /-- Removes all tuples that one of the patterns matches. -/
  removeBulk : List Tuple → StoreM σ Unit
  removeAll : StoreM σ Unit
  /-- All tuples that the pattern matches. -/
  list : Tuple → StoreM σ (List Tuple)
  /-- The objects of the tuple's object type that its subject reaches by its relation. -/
  accessible : Tuple → StoreM σ (List Resource)
  /-- Removes what the first matches and adds the second. -/
  replace : Tuple → Tuple → StateM σ Replaced := replaceByTwoCalls removeBulk add

end TupleSync
