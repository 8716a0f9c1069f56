import TupleSync.Sync.Link

/-!
# What an event does

**What an event does is known before any store is asked**: a list of effects, computed from the event
alone. Nothing is read first and nothing depends on an earlier answer, which is why events about
different records can be handled in any order.
-/

set_option autoImplicit false

namespace TupleSync.Sync

/-- A step of handling an event. -/
inductive Effect where
  | add (tuples : List Tuple)
  | remove (t : Tuple)
  | replace (stale fresh : Tuple)
  /-- Removes every tuple that names the record. -/
  | sweep (kind : EntityKind) (id : Int64)
  /-- An update of a record without foreign keys changes nothing. -/
  | nothingToUpdate (kind : EntityKind) (id : Int64)
  /-- An update that does not set a foreign key leaves its link alone. -/
  | keepLink (l : Link)
  /-- A deletion without an id removes nothing. -/
  | nothingToSweep (kind : EntityKind)
  deriving Repr, DecidableEq

/-- What an update does about one foreign key. -/
def Link.update (l : Link) : Effect :=
  if IsSet l.parent then .replace (l.kind.stale l.child) l.tuple else .keepLink l

/-- The tuples that come with a new record. -/
def createdTuples (e : Entity) : List Tuple :=
  creatorRole e :: ((links e).filter fun l => IsSet l.parent).map Link.tuple

/-- What an event does. -/
def effects : Event → List Effect
  | .created e => [.add (createdTuples e)]
  | .updated e =>
    match links e with
    | [] => [.nothingToUpdate e.kind e.id]
    | ls => ls.map Link.update
  | .deleted kind id => if IsSet id then [.sweep kind id] else [.nothingToSweep kind]
  | .linked m => [.add [affiliationTuple m]]
  | .unlinked m => [.remove (affiliationTuple m)]

/-- The patterns of the tuples that name a record: as object, and as subject. -/
def sweepPatterns (kind : EntityKind) (id : Int64) : List Tuple :=
  [Tuple.any.withObject kind.type.text (idText id), Tuple.any.withUser kind.type.text (idText id)]

end TupleSync.Sync
