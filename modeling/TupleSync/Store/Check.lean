import TupleSync.Tuple.Basic

/-!
# The permission check

**A subject has a relation on an object if a tuple says so, or if a tuple gives the relation to a userset
that the subject belongs to.** The search goes through usersets depth first. It ends because it enters
each node at most once, and it is cut off after ten usersets on a path.

One list of visited nodes serves all branches, and the tuples are taken in the order of the store. A node
that a long path reached first, too deep to follow, is not looked at again from a shorter one.
-/

set_option autoImplicit false

namespace TupleSync.Check

/-- A relation on an object: what a userset is the set of subjects of. Where a search starts, the object
may itself be written as a userset. -/
structure Node where
  relation : String
  object : Ref
  deriving Repr, DecidableEq

/-- The tuple that gives the subject the node's relation. -/
def direct (subject : Ref) (n : Node) : Tuple :=
  ⟨subject.kind, subject.idText, n.relation, n.object.kind, n.object.id⟩

/-- What stands for a visited node. -/
def mark (subject : Ref) (n : Node) : String :=
  subject.text ++ " " ++ n.relation ++ " " ++ n.object.text

/-- The node of a userset; a plain subject has none. -/
def Node.ofUserset? (r : Ref) : Option Node :=
  r.relation.map fun relation => ⟨relation, { r with relation := none }⟩

/-- The tuple gives someone the node's relation on its object. -/
def Node.Has (n : Node) (t : Tuple) : Prop :=
  t.relation = n.relation ∧ t.objectType = n.object.kind ∧ t.objectId = n.object.id

instance (n : Node) (t : Tuple) : Decidable (n.Has t) := inferInstanceAs (Decidable (_ ∧ _))

/-- The usersets that have the node's relation on its object. -/
def usersets (tuples : List Tuple) (n : Node) : List Node :=
  (tuples.filter fun t => n.Has t).filterMap fun t => Node.ofUserset? t.user

/-- Tries one after the other, handing on what is visited, until one succeeds. -/
def tryEach (f : Node → List String → Bool × List String) :
    List Node → List String → Bool × List String
  | [], seen => (false, seen)
  | n :: rest, seen =>
    match f n seen with
    | (true, seen) => (true, seen)
    | (false, seen) => tryEach f rest seen

/-- Searches from a node with so many levels left. Gives what is visited besides the answer. -/
def search (tuples : List Tuple) (subject : Ref) : Nat → Node → List String → Bool × List String
  | 0, _, seen => (false, seen)
  | levels + 1, n, seen =>
    if mark subject n ∈ seen then (false, seen)
    else if direct subject n ∈ tuples then (true, mark subject n :: seen)
    else tryEach (search tuples subject levels) (usersets tuples n) (mark subject n :: seen)

/-- How many usersets a path may go through. -/
def maxHops : Nat := 10

/-- Whether the subject reaches the relation on the object. -/
def holds (tuples : List Tuple) (subject : Ref) (relation : String) (object : Ref) : Bool :=
  (search tuples subject (maxHops + 1) ⟨relation, object⟩ []).1

end TupleSync.Check
