import TupleSync.Event.Basic
import TupleSync.Tuple.Basic
import TupleSync.Tuple.Vocabulary
import TupleSync.Text.Digits

/-!
# From records to tuples

**Every tuple the synchronizer writes is of one of three families**: the creator's role on a record, the
link between a record and a parent that its foreign key names, or an affiliation.

A link replaces itself: its child has one parent at a time, so a link comes with the pattern of all links
of its kind that the child has. In three kinds of links the child is the object and in two it is the
subject; the pattern always names the child and leaves the parent's id open.
-/

set_option autoImplicit false

namespace TupleSync

/-- The type that records of the kind have in tuples. -/
def EntityKind.type : EntityKind → TypeName
  | .supportGroup => .supportGroup
  | .service => .service
  | .component => .component
  | .componentVersion => .componentVersion
  | .componentInstance => .componentInstance
  | .issueMatch => .issueMatch
  | .user => .user

namespace Sync

/-- An id as it stands in a tuple. -/
def idText (id : Int64) : String := Text.ofInt id.toInt

/-- A foreign key that names a record. -/
def IsSet (id : Int64) : Prop := 0 < id

instance (id : Int64) : Decidable (IsSet id) := inferInstanceAs (Decidable (0 < id))

/-- A tuple between two records. -/
def tupleOf (userType : TypeName) (userId : Int64) (relation : RelationName)
    (objectType : TypeName) (objectId : Int64) : Tuple :=
  ⟨userType.text, idText userId, relation.text, objectType.text, idText objectId⟩

/-- `role:creator role kind:id` -/
def creatorRole (e : Entity) : Tuple :=
  tupleOf .role e.creator .role e.kind.type e.id

/-- The kinds of links that foreign keys make. -/
inductive LinkKind where
  /-- `support_group:parent owning_support_group service:child` -/
  | owningGroup
  /-- `component_version:child component_version component:parent` -/
  | component
  /-- `service:parent related_service component_instance:child` -/
  | relatedService
  /-- `component_instance:child role component_version:parent` -/
  | deployedVersion
  /-- `component_instance:parent component_instance issue_match:child` -/
  | matchedInstance
  deriving Repr, DecidableEq

/-- A foreign key of a record. -/
structure Link where
  kind : LinkKind
  child : Int64
  parent : Int64
  deriving Repr, DecidableEq

namespace LinkKind

def child : LinkKind → EntityKind
  | .owningGroup => .service
  | .component => .componentVersion
  | .relatedService => .componentInstance
  | .deployedVersion => .componentInstance
  | .matchedInstance => .issueMatch

def parent : LinkKind → EntityKind
  | .owningGroup => .supportGroup
  | .component => .component
  | .relatedService => .service
  | .deployedVersion => .componentVersion
  | .matchedInstance => .componentInstance

def relation : LinkKind → RelationName
  | .owningGroup => .owningSupportGroup
  | .component => .componentVersion
  | .relatedService => .relatedService
  | .deployedVersion => .role
  | .matchedInstance => .componentInstance

/-- Whether the child stands on the left of the tuple. -/
def childIsUser : LinkKind → Bool
  | .owningGroup => false
  | .component => true
  | .relatedService => false
  | .deployedVersion => true
  | .matchedInstance => false

/-- The pattern of all links of the kind that a child has. -/
def stale (k : LinkKind) (child : Int64) : Tuple :=
  if k.childIsUser then
    Tuple.any.withUser k.child.type.text (idText child)
      |>.withRelation k.relation.text |>.withObjectType k.parent.type.text
  else
    Tuple.any.withUserType k.parent.type.text
      |>.withRelation k.relation.text |>.withObject k.child.type.text (idText child)

end LinkKind

/-- The tuple of a link. -/
def Link.tuple (l : Link) : Tuple :=
  if l.kind.childIsUser then
    tupleOf l.kind.child.type l.child l.kind.relation l.kind.parent.type l.parent
  else
    tupleOf l.kind.parent.type l.parent l.kind.relation l.kind.child.type l.child

/-- The links that the foreign keys of a record make, set or not. -/
def links : Entity → List Link
  | .supportGroup _ => []
  | .service r => [⟨.owningGroup, r.id, r.supportGroup⟩]
  | .component _ => []
  | .componentVersion r => [⟨.component, r.id, r.component⟩]
  | .componentInstance r =>
    [⟨.relatedService, r.id, r.service⟩, ⟨.deployedVersion, r.id, r.componentVersion⟩]
  | .issueMatch r => [⟨.matchedInstance, r.id, r.componentInstance⟩]
  | .user _ => []

/-- The tuple of an affiliation. -/
def affiliationTuple : Affiliation → Tuple
  | .userInSupportGroup group user => tupleOf .user user .member .supportGroup group
  | .serviceInSupportGroup group service => tupleOf .supportGroup group .supportGroup .service service
  | .ownerOfService service owner => tupleOf .user owner .owner .service service

end Sync

end TupleSync
