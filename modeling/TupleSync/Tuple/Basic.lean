import TupleSync.Tuple.Ref

/-!
# Relationship tuples

**One tuple says that a subject has a relation on an object, and one with empty fields is a pattern.**
Only a tuple with all five fields set may be stored. A pattern leaves open what is empty and compares the
rest: its own ids as they are written, those of the candidate as references, so that the userset
`support_group:3#member` is found by a pattern that asks for `support_group` and `3`.

Tuples are ordered field by field, each field character by character.
-/

set_option autoImplicit false

namespace TupleSync

/-- `userType:userId` has `relation` on `objectType:objectId`. -/
structure Tuple where
  userType : String
  userId : String
  relation : String
  objectType : String
  objectId : String
  deriving Repr, DecidableEq, Hashable

namespace Tuple

/-- The fields in their order. -/
def fields (t : Tuple) : List String :=
  [t.userType, t.userId, t.relation, t.objectType, t.objectId]

/-- One tuple stands before another: the first field that differs is the smaller one. -/
def before (s t : Tuple) : Bool := s.fields.lex t.fields

/-- Tuples in order. -/
def sort (ts : List Tuple) : List Tuple := ts.mergeSort fun s t => !t.before s

/-- The pattern that every tuple matches. -/
def any : Tuple := ⟨"", "", "", "", ""⟩

/-- Every field is set. -/
def IsComplete (t : Tuple) : Prop := ∀ s ∈ t.fields, s ≠ ""

instance (t : Tuple) : Decidable t.IsComplete :=
  inferInstanceAs (Decidable (∀ s ∈ t.fields, s ≠ ""))

/-- The subject as a reference. -/
def user (t : Tuple) : Ref := .ofParts t.userType t.userId

/-- The object as a reference. -/
def object (t : Tuple) : Ref := .ofParts t.objectType t.objectId

/-- An open field of a pattern accepts every value, any other only its own. -/
def FieldMatches (wanted value : String) : Prop := wanted = "" ∨ wanted = value

instance (wanted value : String) : Decidable (FieldMatches wanted value) :=
  inferInstanceAs (Decidable (_ ∨ _))

/-- The candidate is one of those that the pattern stands for. -/
def Matches (pattern candidate : Tuple) : Prop :=
  FieldMatches pattern.userType candidate.user.kind ∧
  FieldMatches pattern.userId candidate.user.id ∧
  FieldMatches pattern.relation candidate.relation ∧
  FieldMatches pattern.objectType candidate.object.kind ∧
  FieldMatches pattern.objectId candidate.object.id

instance (pattern candidate : Tuple) : Decidable (pattern.Matches candidate) :=
  inferInstanceAs (Decidable (_ ∧ _))

/-- The tuple as a sentence. -/
def text (t : Tuple) : String :=
  t.userType ++ ":" ++ t.userId ++ " " ++ t.relation ++ " " ++ t.objectType ++ ":" ++ t.objectId

/-! ## Narrowing a pattern -/

def withUser (kind id : String) (t : Tuple) : Tuple := { t with userType := kind, userId := id }

def withUserType (kind : String) (t : Tuple) : Tuple := { t with userType := kind }

def withRelation (relation : String) (t : Tuple) : Tuple := { t with relation := relation }

def withObject (kind id : String) (t : Tuple) : Tuple := { t with objectType := kind, objectId := id }

def withObjectType (kind : String) (t : Tuple) : Tuple := { t with objectType := kind }

end Tuple

end TupleSync
