import TupleSync.Time.Instant

/-!
# Entities

**The records whose changes the synchronizer follows: seven kinds, each with an id of its own.** Foreign
keys are ids too, and a key that is not positive stands for "not set". Every record carries the same
audit columns; of them only the creator is ever acted on.
-/

set_option autoImplicit false

namespace TupleSync

/-- The kinds of records. -/
inductive EntityKind where
  | supportGroup
  | service
  | component
  | componentVersion
  | componentInstance
  | issueMatch
  | user
  deriving Repr, DecidableEq

/-- Who made and last changed a record, and when. -/
structure Audit where
  createdBy : Int64
  createdAt : Option Instant
  updatedBy : Int64
  updatedAt : Option Instant
  deriving DecidableEq

structure SupportGroup where
  id : Int64
  ccrn : String
  audit : Audit
  deriving DecidableEq

structure Service where
  id : Int64
  ccrn : String
  /-- The support group that owns the service. -/
  supportGroup : Int64
  audit : Audit
  deriving DecidableEq

structure Component where
  id : Int64
  ccrn : String
  type : String
  audit : Audit
  deriving DecidableEq

structure ComponentVersion where
  id : Int64
  version : String
  component : Int64
  audit : Audit
  deriving DecidableEq

structure ComponentInstance where
  id : Int64
  ccrn : String
  count : Int16
  /-- The deployed version. -/
  componentVersion : Int64
  /-- The service that the instance belongs to. -/
  service : Int64
  audit : Audit
  deriving DecidableEq

structure IssueMatch where
  id : Int64
  status : String
  issue : Int64
  /-- The instance in which the issue was found. -/
  componentInstance : Int64
  user : Int64
  audit : Audit
  deriving DecidableEq

structure User where
  id : Int64
  uniqueUserId : String
  name : String
  audit : Audit
  deriving DecidableEq

/-- A record of any kind. -/
inductive Entity where
  | supportGroup (r : SupportGroup)
  | service (r : Service)
  | component (r : Component)
  | componentVersion (r : ComponentVersion)
  | componentInstance (r : ComponentInstance)
  | issueMatch (r : IssueMatch)
  | user (r : User)
  deriving DecidableEq

namespace Entity

def kind : Entity → EntityKind
  | .supportGroup _ => .supportGroup
  | .service _ => .service
  | .component _ => .component
  | .componentVersion _ => .componentVersion
  | .componentInstance _ => .componentInstance
  | .issueMatch _ => .issueMatch
  | .user _ => .user

def id : Entity → Int64
  | .supportGroup r => r.id
  | .service r => r.id
  | .component r => r.id
  | .componentVersion r => r.id
  | .componentInstance r => r.id
  | .issueMatch r => r.id
  | .user r => r.id

def audit : Entity → Audit
  | .supportGroup r => r.audit
  | .service r => r.audit
  | .component r => r.audit
  | .componentVersion r => r.audit
  | .componentInstance r => r.audit
  | .issueMatch r => r.audit
  | .user r => r.audit

/-- The id of the user who made the record. -/
def creator (e : Entity) : Int64 := e.audit.createdBy

end Entity

namespace EntityKind

def all : List EntityKind :=
  [.supportGroup, .service, .component, .componentVersion, .componentInstance, .issueMatch, .user]

/-- The name of the kind in event names and payloads. -/
def title : EntityKind → String
  | .supportGroup => "SupportGroup"
  | .service => "Service"
  | .component => "Component"
  | .componentVersion => "ComponentVersion"
  | .componentInstance => "ComponentInstance"
  | .issueMatch => "IssueMatch"
  | .user => "User"

theorem mem_all (k : EntityKind) : k ∈ all := by cases k <;> decide

end EntityKind

end TupleSync
