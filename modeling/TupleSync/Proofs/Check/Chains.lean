import TupleSync.Proofs.Tuple.Identifiers
import TupleSync.Store.Check

/-!
# Chains of usersets

**A subject has a relation on an object if a chain of usersets leads from the relation to a tuple that
names the subject.** That is what a permission check is about, said without a search: no order of the
tuples, no bound, nothing that is visited.

A chain is the list of the nodes it goes through after the first one, so its length is the number of its
userset hops. `mem_usersets_iff` says in tuples what a hop is, and `direct_user` what the last step is.
-/

set_option autoImplicit false

namespace TupleSync

namespace Check

variable {tuples : List Tuple} {subject : Ref} {n m : Node}

/-- From the node through those of the list, each a userset of the one before it, to a tuple that gives
the subject the last relation. -/
def GrantsThrough (tuples : List Tuple) (subject : Ref) : Node → List Node → Prop
  | n, [] => direct subject n ∈ tuples
  | n, m :: rest => m ∈ usersets tuples n ∧ GrantsThrough tuples subject m rest

/-- A userset is the node with its relation behind its object. -/
theorem ofUserset?_eq_some_iff {r : Ref} :
    Node.ofUserset? r = some m ↔
      m.object.relation = none ∧ r = { m.object with relation := some m.relation } := by
  obtain ⟨kind, id, relation⟩ := r
  obtain ⟨wanted, kind', id', relation'⟩ := m
  cases relation with
  | none => simp [Node.ofUserset?]
  | some relation =>
    simp only [Node.ofUserset?, Option.map_some, Option.some.injEq, Node.mk.injEq, Ref.mk.injEq]
    constructor
    · intro hboth
      obtain ⟨rfl, rfl, rfl, rfl⟩ := hboth
      exact ⟨rfl, rfl, rfl, rfl⟩
    · intro hboth
      obtain ⟨rfl, rfl, rfl, rfl⟩ := hboth
      exact ⟨rfl, rfl, rfl, rfl⟩

/-- A hop is a stored tuple that gives the first node to the subjects of the second. -/
theorem mem_usersets_iff :
    m ∈ usersets tuples n ↔
      m.object.relation = none ∧ ∃ t ∈ tuples, t.relation = n.relation ∧
        t.objectType = n.object.kind ∧ t.objectId = n.object.id ∧
          t.user = { m.object with relation := some m.relation } := by
  rw [usersets, List.mem_filterMap]
  constructor
  · intro hboth
    obtain ⟨t, ht, hm⟩ := hboth
    obtain ⟨hmem, hhas⟩ := List.mem_filter.1 ht
    obtain ⟨hrel, htype, hid⟩ := of_decide_eq_true hhas
    obtain ⟨hnone, huser⟩ := ofUserset?_eq_some_iff.1 hm
    exact ⟨hnone, t, hmem, hrel, htype, hid, huser⟩
  · intro hboth
    obtain ⟨hnone, t, hmem, hrel, htype, hid, huser⟩ := hboth
    refine ⟨t, List.mem_filter.2 ⟨hmem, decide_eq_true ⟨hrel, htype, hid⟩⟩, ?_⟩
    exact ofUserset?_eq_some_iff.2 ⟨hnone, huser⟩

/-- The tuple that ends a chain for a subject is written with the subject's own text. -/
theorem direct_user (t : Tuple) (n : Node) :
    direct t.user n = ⟨t.userType, t.userId, n.relation, n.object.kind, n.object.id⟩ := by
  rw [direct, Tuple.user, Ref.idText_ofParts, Ref.kind_ofParts]

end Check
end TupleSync
