/-!
# The authorization model's words

**Eight types and ten relations.** The synchronizer writes no others; some of the relations it never
writes, they are granted by hand.
-/

set_option autoImplicit false

namespace TupleSync

/-- The types of subjects and objects. -/
inductive TypeName where
  | user
  | role
  | supportGroup
  | service
  | component
  | componentVersion
  | componentInstance
  | issueMatch
  deriving Repr, DecidableEq

namespace TypeName

def all : List TypeName :=
  [.user, .role, .supportGroup, .service, .component, .componentVersion, .componentInstance,
   .issueMatch]

def text : TypeName → String
  | .user => "user"
  | .role => "role"
  | .supportGroup => "support_group"
  | .service => "service"
  | .component => "component"
  | .componentVersion => "component_version"
  | .componentInstance => "component_instance"
  | .issueMatch => "issue_match"

end TypeName

/-- The relations. -/
inductive RelationName where
  | canView
  | role
  | member
  | owner
  | admin
  | supportGroup
  /-- The one group that the record of a service names. -/
  | owningSupportGroup
  | relatedService
  | componentVersion
  | componentInstance
  deriving Repr, DecidableEq

namespace RelationName

def all : List RelationName :=
  [.canView, .role, .member, .owner, .admin, .supportGroup, .owningSupportGroup, .relatedService,
   .componentVersion, .componentInstance]

def text : RelationName → String
  | .canView => "can_view"
  | .role => "role"
  | .member => "member"
  | .owner => "owner"
  | .admin => "admin"
  | .supportGroup => "support_group"
  | .owningSupportGroup => "owning_support_group"
  | .relatedService => "related_service"
  | .componentVersion => "component_version"
  | .componentInstance => "component_instance"

end RelationName

end TupleSync
