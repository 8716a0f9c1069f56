import TupleSync.Proofs.Tuple.Matching
import TupleSync.Sync.Effect

/-!
# What the synchronizer's patterns match

**A pattern that is made from ids matches by references, so it says something about any tuple at all**,
written by the synchronizer or not. There are two kinds of patterns: those of a sweep ask for one end of
a tuple, those of a link ask for the child, the relation and the type of the parent.

The last section is about tuples between records: they are complete, they differ where one of their five
parts differs, and their ends are read back as they were written.
-/

set_option autoImplicit false

namespace TupleSync

namespace Tuple

@[simp] theorem fieldMatches_type {a : TypeName} {value : String} :
    FieldMatches a.text value ↔ value = a.text := fieldMatches_iff a.text_ne_empty

@[simp] theorem fieldMatches_relation {a : RelationName} {value : String} :
    FieldMatches a.text value ↔ value = a.text := fieldMatches_iff a.text_ne_empty

@[simp] theorem fieldMatches_idText {id : Int64} {value : String} :
    FieldMatches (Sync.idText id) value ↔ value = Sync.idText id :=
  fieldMatches_iff (Sync.idText_ne_empty id)

end Tuple

namespace Sync

/-- The reference is to the record, or to a userset of it. -/
def RefersTo (r : Ref) (kind : EntityKind) (id : Int64) : Prop :=
  r.kind = kind.type.text ∧ r.id = idText id

/-- The tuple has the record at one of its ends. -/
def Names (t : Tuple) (kind : EntityKind) (id : Int64) : Prop :=
  RefersTo t.object kind id ∨ RefersTo t.user kind id

/-- The tuple has the shape of a link of the kind with that child; its parent is anyone of the right
type. -/
def LinkKind.Covers (k : LinkKind) (child : Int64) (t : Tuple) : Prop :=
  t.relation = k.relation.text ∧
    if k.childIsUser then RefersTo t.user k.child child ∧ t.object.kind = k.parent.type.text
    else RefersTo t.object k.child child ∧ t.user.kind = k.parent.type.text

/-! ## Any tuple -/

theorem exists_sweepPatterns_iff {kind : EntityKind} {id : Int64} {t : Tuple} :
    (∃ p ∈ sweepPatterns kind id, p.Matches t) ↔ Names t kind id := by
  simp [sweepPatterns, Tuple.Matches, Tuple.any, Tuple.withObject, Tuple.withUser, Names, RefersTo]

theorem matches_stale_iff {k : LinkKind} {child : Int64} {t : Tuple} :
    (k.stale child).Matches t ↔ k.Covers child t := by
  unfold LinkKind.stale LinkKind.Covers
  split
  · simp only [Tuple.Matches, Tuple.any, Tuple.withUser, Tuple.withRelation, Tuple.withObjectType,
      Tuple.fieldMatches_type, Tuple.fieldMatches_idText, Tuple.fieldMatches_relation,
      Tuple.fieldMatches_open, RefersTo]
    constructor
    · intro hboth
      obtain ⟨hkind, hid, hrel, hparent, -⟩ := hboth
      exact ⟨hrel, ⟨hkind, hid⟩, hparent⟩
    · intro hboth
      obtain ⟨hrel, ⟨hkind, hid⟩, hparent⟩ := hboth
      exact ⟨hkind, hid, hrel, hparent, trivial⟩
  · simp only [Tuple.Matches, Tuple.any, Tuple.withUserType, Tuple.withRelation, Tuple.withObject,
      Tuple.fieldMatches_type, Tuple.fieldMatches_idText, Tuple.fieldMatches_relation,
      Tuple.fieldMatches_open, RefersTo]
    constructor
    · intro hboth
      obtain ⟨hparent, -, hrel, hkind, hid⟩ := hboth
      exact ⟨hrel, ⟨hkind, hid⟩, hparent⟩
    · intro hboth
      obtain ⟨hrel, ⟨hkind, hid⟩, hparent⟩ := hboth
      exact ⟨hparent, trivial, hrel, hkind, hid⟩

/-- No pattern of the synchronizer is open in every field, so none is ever refused. -/
theorem any_not_mem_sweepPatterns (kind : EntityKind) (id : Int64) :
    Tuple.any ∉ sweepPatterns kind id := by
  intro h
  rcases List.mem_cons.1 h with h | h
  · exact idText_ne_empty id (congrArg Tuple.objectId h).symm
  · exact idText_ne_empty id (congrArg Tuple.userId (List.mem_singleton.1 h)).symm

theorem stale_ne_any (k : LinkKind) (child : Int64) : k.stale child ≠ Tuple.any := by
  intro h
  have hrel : (k.stale child).relation = k.relation.text := by
    unfold LinkKind.stale
    split <;> rfl
  rw [h] at hrel
  exact k.relation.text_ne_empty hrel.symm

/-! ## Tuples between records -/

theorem isComplete_tupleOf (a : TypeName) (i : Int64) (r : RelationName) (b : TypeName) (j : Int64) :
    (tupleOf a i r b j).IsComplete := by
  intro s hs
  simp only [tupleOf, Tuple.fields, List.mem_cons, List.not_mem_nil, or_false] at hs
  rcases hs with rfl | rfl | rfl | rfl | rfl
  · exact a.text_ne_empty
  · exact idText_ne_empty i
  · exact r.text_ne_empty
  · exact b.text_ne_empty
  · exact idText_ne_empty j

theorem tupleOf_inj {a b a' b' : TypeName} {i j i' j' : Int64} {r r' : RelationName} :
    tupleOf a i r b j = tupleOf a' i' r' b' j' ↔
      a = a' ∧ i = i' ∧ r = r' ∧ b = b' ∧ j = j' := by
  simp only [tupleOf, Tuple.mk.injEq, TypeName.text_inj, RelationName.text_inj, idText_inj]

@[simp] theorem user_tupleOf (a : TypeName) (i : Int64) (r : RelationName) (b : TypeName) (j : Int64) :
    (tupleOf a i r b j).user = ⟨a.text, idText i, none⟩ := by
  rw [Tuple.user, tupleOf, Ref.ofParts_idText]

@[simp] theorem object_tupleOf (a : TypeName) (i : Int64) (r : RelationName) (b : TypeName)
    (j : Int64) : (tupleOf a i r b j).object = ⟨b.text, idText j, none⟩ := by
  rw [Tuple.object, tupleOf, Ref.ofParts_idText]

theorem names_tupleOf_iff {a b : TypeName} {i j id : Int64} {r : RelationName} {kind : EntityKind} :
    Names (tupleOf a i r b j) kind id ↔ (b = kind.type ∧ j = id) ∨ (a = kind.type ∧ i = id) := by
  simp only [Names, RefersTo, user_tupleOf, object_tupleOf, TypeName.text_inj, idText_inj]

/-- A tuple between two records names these two. -/
theorem names_between_iff {k k' kind : EntityKind} {i j id : Int64} {r : RelationName} :
    Names (tupleOf k.type i r k'.type j) kind id ↔ (kind, id) = (k', j) ∨ (kind, id) = (k, i) := by
  rw [names_tupleOf_iff, EntityKind.type_inj, EntityKind.type_inj, Prod.mk.injEq, Prod.mk.injEq,
    @eq_comm _ kind k', @eq_comm _ kind k, @eq_comm _ id j, @eq_comm _ id i]

theorem covers_tupleOf_iff {a b : TypeName} {i j child : Int64} {r : RelationName} {k : LinkKind} :
    k.Covers child (tupleOf a i r b j) ↔
      r = k.relation ∧
        if k.childIsUser then (a = k.child.type ∧ i = child) ∧ b = k.parent.type
        else (b = k.child.type ∧ j = child) ∧ a = k.parent.type := by
  simp only [LinkKind.Covers, RefersTo, user_tupleOf, object_tupleOf, TypeName.text_inj, idText_inj]
  rw [show (tupleOf a i r b j).relation = r.text from rfl, RelationName.text_inj]

end Sync
end TupleSync
