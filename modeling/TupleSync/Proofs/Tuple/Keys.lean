import TupleSync.Proofs.Tuple.Identifiers
import TupleSync.Tuple.Key

/-!
# Keys and tuples

**A key that names a tuple is the key of that tuple, and a tuple whose types have no colon is named by its
key.** So among such tuples no two share a key, and a set of them can be kept as a set of keys.
-/

set_option autoImplicit false

namespace TupleSync

/-- A tuple that its key names, and whose object is no userset. -/
structure Tuple.IsPlain (t : Tuple) : Prop where
  userType : ':' ∉ t.userType.toList
  objectType : ':' ∉ t.objectType.toList
  objectId : '#' ∉ t.objectId.toList

namespace Tuple

variable {s t : Tuple}

/-- **A tuple whose types have no colon is what its key names.** -/
theorem tuple?_key (huser : ':' ∉ t.userType.toList) (hobject : ':' ∉ t.objectType.toList) :
    t.key.tuple? = some t := by
  simp only [TupleKey.tuple?, key, Text.cutAt_append_colon huser, Text.cutAt_append_colon hobject]
  rfl

theorem IsPlain.tuple?_key (h : t.IsPlain) : t.key.tuple? = some t :=
  Tuple.tuple?_key h.userType h.objectType

theorem IsPlain.key_inj (hs : s.IsPlain) (ht : t.IsPlain) (h : s.key = t.key) : s = t := by
  have hsome : some s = some t := by rw [← hs.tuple?_key, ← ht.tuple?_key, h]
  exact Option.some.inj hsome

theorem IsPlain.object_eq (h : t.IsPlain) : t.object = ⟨t.objectType, t.objectId, none⟩ :=
  Ref.ofParts_of_not_mem h.objectId

end Tuple

namespace TupleKey

variable {k : TupleKey} {t : Tuple}

/-- What a key names are the parts that its ends are cut into. -/
theorem cuts_of_tuple? (h : k.tuple? = some t) :
    Text.cutAt ':' k.user = some (t.userType, t.userId) ∧ k.relation = t.relation ∧
      Text.cutAt ':' k.object = some (t.objectType, t.objectId) := by
  simp only [tuple?, Option.bind_eq_bind, Option.bind_eq_some_iff, Prod.exists] at h
  obtain ⟨userType, userId, huser, objectType, objectId, hobject, hrow⟩ := h
  cases hrow
  exact ⟨huser, rfl, hobject⟩

/-- **A key finds its way back**: the tuple that it names has it as its key. -/
theorem key_of_tuple? (h : k.tuple? = some t) : t.key = k := by
  obtain ⟨huser, hrelation, hobject⟩ := cuts_of_tuple? h
  obtain ⟨user, relation, object⟩ := k
  simp only [Tuple.key, mk.injEq]
  exact ⟨(Text.eq_of_cutAt huser).symm, hrelation.symm, (Text.eq_of_cutAt hobject).symm⟩

theorem eq_of_tuple? {k' : TupleKey} (h : k.tuple? = some t) (h' : k'.tuple? = some t) : k = k' :=
  (key_of_tuple? h).symm.trans (key_of_tuple? h')

/-! ## Which keys name a tuple, and which tuples a key names -/

/-- A key names nothing exactly if one of its ends cannot be cut. -/
theorem tuple?_eq_none_iff : k.tuple? = none ↔ ':' ∉ k.user.toList ∨ ':' ∉ k.object.toList := by
  rw [← Text.cutAt_eq_none_iff, ← Text.cutAt_eq_none_iff]
  cases huser : Text.cutAt ':' k.user <;> cases hobject : Text.cutAt ':' k.object <;>
    simp [tuple?, huser, hobject]

/-- The types of a tuple that is named end at the first colon. -/
theorem colon_not_mem_of_tuple? (h : k.tuple? = some t) :
    ':' ∉ t.userType.toList ∧ ':' ∉ t.objectType.toList := by
  obtain ⟨huser, -, hobject⟩ := cuts_of_tuple? h
  exact ⟨(Text.cutAt_eq_some_iff.1 huser).1, (Text.cutAt_eq_some_iff.1 hobject).1⟩

/-- A key names the one tuple that has it and whose types have no colon. -/
theorem tuple?_eq_some_iff :
    k.tuple? = some t ↔ t.key = k ∧ ':' ∉ t.userType.toList ∧ ':' ∉ t.objectType.toList := by
  constructor
  · intro h
    exact ⟨key_of_tuple? h, colon_not_mem_of_tuple? h⟩
  · intro h
    obtain ⟨rfl, huser, hobject⟩ := h
    exact Tuple.tuple?_key huser hobject

/-- Every tuple's key names some tuple, if not always that one. -/
theorem exists_tuple?_key (t : Tuple) : ∃ u, t.key.tuple? = some u := by
  rw [← Option.ne_none_iff_exists', Ne, tuple?_eq_none_iff]
  simp [Tuple.key]

/-- **Keys and tuples are converted without loss.** The key of a tuple always names a tuple, with that same
key, and it is the tuple itself exactly if neither type has a colon, whatever the ids are and also where
fields are empty. A key names nothing exactly if one of its ends has no colon; what it names otherwise has
that key and no other, so two keys never name one tuple. -/
theorem converts_without_loss :
    (∀ t : Tuple, (∃ u, t.key.tuple? = some u ∧ u.key = t.key) ∧
      (t.key.tuple? = some t ↔ ':' ∉ t.userType.toList ∧ ':' ∉ t.objectType.toList)) ∧
    (∀ k : TupleKey, (k.tuple? = none ↔ ':' ∉ k.user.toList ∨ ':' ∉ k.object.toList) ∧
      ∀ t, k.tuple? = some t → t.key = k) ∧
    ∀ k k' : TupleKey, ∀ t, k.tuple? = some t → k'.tuple? = some t → k = k' := by
  refine ⟨fun t => ⟨?_, ?_⟩, fun k => ⟨tuple?_eq_none_iff, fun t => key_of_tuple?⟩, ?_⟩
  · obtain ⟨u, hu⟩ := exists_tuple?_key t
    exact ⟨u, hu, key_of_tuple? hu⟩
  · rw [tuple?_eq_some_iff, and_iff_right rfl]
  · intro k k' t
    exact eq_of_tuple?

end TupleKey
end TupleSync
