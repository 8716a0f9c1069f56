import TupleSync.Entity.Basic

/-!
# Domain events

**A record is created, updated or deleted, and an affiliation begins or ends: twenty-seven events.** A
creation and an update carry the whole new record, a deletion only the kind and the id. Affiliations are
not columns of any record, so they have events of their own.

The name of an event says what happened to what kind of thing. It is what handlers are filed under, and
the subject of the event's messages.
-/

set_option autoImplicit false

namespace TupleSync

/-- A link between two records that no column of either holds. -/
inductive Affiliation where
  | userInSupportGroup (group user : Int64)
  | serviceInSupportGroup (group service : Int64)
  | ownerOfService (service owner : Int64)
  deriving Repr, DecidableEq

/-- The kinds of affiliations. -/
inductive AffiliationKind where
  | userInSupportGroup
  | serviceInSupportGroup
  | ownerOfService
  deriving Repr, DecidableEq

/-- Something that happened to the records. -/
inductive Event where
  | created (e : Entity)
  | updated (e : Entity)
  | deleted (kind : EntityKind) (id : Int64)
  | linked (m : Affiliation)
  | unlinked (m : Affiliation)
  deriving DecidableEq

/-- What kind of thing happened. -/
inductive EventName where
  | create (kind : EntityKind)
  | update (kind : EntityKind)
  | delete (kind : EntityKind)
  | link (kind : AffiliationKind)
  | unlink (kind : AffiliationKind)
  deriving Repr, DecidableEq

def Affiliation.kind : Affiliation → AffiliationKind
  | .userInSupportGroup .. => .userInSupportGroup
  | .serviceInSupportGroup .. => .serviceInSupportGroup
  | .ownerOfService .. => .ownerOfService

/-- The name that an event goes by. -/
def Event.name : Event → EventName
  | .created e => .create e.kind
  | .updated e => .update e.kind
  | .deleted kind _ => .delete kind
  | .linked m => .link m.kind
  | .unlinked m => .unlink m.kind

namespace EventName

/-- All names: kind by kind, then affiliation by affiliation. -/
def all : List EventName :=
  (EntityKind.all.flatMap fun k => [.create k, .update k, .delete k]) ++
    ([.userInSupportGroup, .serviceInSupportGroup, .ownerOfService].flatMap fun m =>
      [.link m, .unlink m])

/-- The text of a name. -/
def text : EventName → String
  | .create kind => "Create" ++ kind.title
  | .update kind => "Update" ++ kind.title
  | .delete kind => "Delete" ++ kind.title
  | .link .userInSupportGroup => "AddUserToSupportGroup"
  | .unlink .userInSupportGroup => "RemoveUserFromSupportGroup"
  | .link .serviceInSupportGroup => "AddServiceToSupportGroup"
  | .unlink .serviceInSupportGroup => "RemoveServiceFromSupportGroup"
  | .link .ownerOfService => "AddOwnerToService"
  | .unlink .ownerOfService => "RemoveOwnerFromService"

/-- The name that is written like this. -/
def ofText? (s : String) : Option EventName := all.find? fun n => n.text == s

theorem mem_all (n : EventName) : n ∈ all := by
  rcases n with k | k | k | k | k <;> cases k <;> decide

end EventName

namespace Event

/-- The event, if it is one of that name. -/
def withName? (n : EventName) (e : Event) : Option Event :=
  if e.name = n then some e else none

end Event

end TupleSync
