import TupleSync.Sync.Effect
import TupleSync.Store.Basic
import TupleSync.Log.Record

/-!
# What handling reports

**Handling never fails; it reports.** Each effect says for each tuple whether it was written or removed,
and with which error it was not. A replacement also reports on its two calls.
-/

set_option autoImplicit false

namespace TupleSync.Sync

open Log

/-- What the handling of an event reports. -/
inductive Notice where
  | added (event : EventName) (t : Tuple)
  | addFailed (event : EventName) (t : Tuple) (e : StoreError)
  | removed (event : EventName) (t : Tuple)
  | removeFailed (event : EventName) (t : Tuple) (e : StoreError)
  | replaced (event : EventName) (fresh : Tuple)
  | replaceFailed (event : EventName) (stale fresh : Tuple) (e : StoreError)
  | swept (event : EventName) (kind : EntityKind) (id : Int64)
  | sweepFailed (event : EventName) (kind : EntityKind) (id : Int64) (e : StoreError)
  | nothingToUpdate (event : EventName) (kind : EntityKind) (id : Int64)
  | linkKept (event : EventName) (l : Link)
  | nothingToSweep (event : EventName) (kind : EntityKind)
  /-- Both calls of a replacement succeeded. -/
  | bothCallsDone (stale fresh : Tuple)
  /-- The first call of a replacement failed. -/
  | firstCallFailed (stale : Tuple) (e : StoreError)
  /-- The second call of a replacement failed. -/
  | secondCallFailed (fresh : Tuple) (e : StoreError)

namespace Notice

/-- The tuple in three fields. -/
def tupleFields (event : EventName) (t : Tuple) : List (String × Value) :=
  [("event", .shown event.text), ("user", .shown t.user.text), ("relation", .shown t.relation),
   ("object", .shown t.object.text)]

/-- The record as a reference. -/
def entityText (kind : EntityKind) (id : Int64) : String := kind.type.text ++ ":" ++ idText id

/-- The field that holds the id of a record. -/
def idField : EntityKind → String
  | .user => "user_id"
  | kind => kind.type.text

/-- What is said where a foreign key is not set. -/
def keptMessage : LinkKind → String
  | .owningGroup => "no support group set; nothing to update"
  | .component => "no component set; nothing to update"
  | .relatedService => "no service set; keeping service relation"
  | .deployedVersion => "no version set; keeping version relation"
  | .matchedInstance => "no component instance set; nothing to update"

/-- The part of the program that handles records of the kind. -/
def place (kind : EntityKind) : String := "authz_sync::handlers::" ++ kind.type.text

def errorField (e : StoreError) : String × Value := ("error", .shown e.message)

/-- A replacement goes by a name of its own. -/
def replacementField : String × Value := ("event", .quoted "HandleUpdateAuthzRelation")

def record : Notice → Record
  | added event t =>
    ⟨.info, "authz_sync::handlers", "added relation", tupleFields event t⟩
  | addFailed event t e =>
    ⟨.error, "authz_sync::handlers", "failed to add relation", tupleFields event t ++ [errorField e]⟩
  | removed event t =>
    ⟨.info, "authz_sync::handlers", "removed relation", tupleFields event t⟩
  | removeFailed event t e =>
    ⟨.error, "authz_sync::handlers", "failed to remove relation",
      tupleFields event t ++ [errorField e]⟩
  | replaced event fresh =>
    ⟨.info, "authz_sync::handlers", "updated relation", tupleFields event fresh⟩
  | replaceFailed event stale fresh e =>
    ⟨.error, "authz_sync::handlers", "failed to update relation",
      tupleFields event fresh ++ [("filter", .shown stale.text), errorField e]⟩
  | swept event kind id =>
    ⟨.info, "authz_sync::handlers", "removed all relations",
      [("event", .shown event.text), ("object", .shown (entityText kind id))]⟩
  | sweepFailed event kind id e =>
    ⟨.error, "authz_sync::handlers", "failed to remove relations",
      [("event", .shown event.text), ("user", .shown (entityText kind id)),
       ("object", .shown (entityText kind id)), errorField e]⟩
  | nothingToUpdate event kind id =>
    ⟨.debug, place kind, "no relations to update",
      [("event", .shown event.text), (idField kind, .number id.toInt)]⟩
  | linkKept event l =>
    ⟨.debug, place l.kind.child, keptMessage l.kind,
      [("event", .shown event.text), (idField l.kind.child, .number l.child.toInt)]⟩
  | nothingToSweep event kind =>
    ⟨.debug, "authz_sync::handlers", "delete event without an id; nothing to remove",
      [("event", .shown event.text), ("object_type", .quoted kind.type.text)]⟩
  | bothCallsDone stale fresh =>
    ⟨.info, "auth_zanzibar::authorization", "updated relation",
      [replacementField, ("filter", .shown stale.text), ("tuple", .shown fresh.text)]⟩
  | firstCallFailed stale e =>
    ⟨.error, "auth_zanzibar::authorization", "failed to remove stale relations",
      [replacementField, ("step", .quoted "remove"), ("filter", .shown stale.text), errorField e]⟩
  | secondCallFailed fresh e =>
    ⟨.error, "auth_zanzibar::authorization", "failed to add updated relation",
      [replacementField, ("step", .quoted "add"), ("tuple", .shown fresh.text), errorField e]⟩

end Notice

/-- What the store reports of a replacement. -/
def replacementNotices (stale fresh : Tuple) : Replaced → List Notice
  | .silently => []
  | .done => [.bothCallsDone stale fresh]
  | .removeFailed e => [.firstCallFailed stale e]
  | .addFailed e => [.secondCallFailed fresh e]

end TupleSync.Sync
