import TupleSync.Proofs.Tuple.Identifiers

/-!
# Patterns and what they match

**A pattern reads the candidate and not itself.** The ids of a candidate are cut at the first hash before
they are compared, those of the pattern are taken as they are written. So a tuple is matched by itself
only if no id of it has a hash, and one that is matches the usersets of its own ends besides. To leave an
id open helps: what counts are the hashes in the ids that are asked for, not those in the tuple.
-/

set_option autoImplicit false

namespace TupleSync
namespace Tuple

variable {p t : Tuple}

@[simp] theorem fieldMatches_open (value : String) : FieldMatches "" value := Or.inl rfl

theorem fieldMatches_iff {wanted value : String} (h : wanted ≠ "") :
    FieldMatches wanted value ↔ value = wanted :=
  ⟨fun hm => (hm.resolve_left h).symm, fun heq => Or.inr heq.symm⟩

theorem any_matches (t : Tuple) : any.Matches t :=
  ⟨fieldMatches_open _, fieldMatches_open _, fieldMatches_open _, fieldMatches_open _,
    fieldMatches_open _⟩

/-! ## Relaxations -/

/-- Each field of the pattern is open or the tuple's own. -/
structure Relaxes (p t : Tuple) : Prop where
  userType : FieldMatches p.userType t.userType
  userId : FieldMatches p.userId t.userId
  relation : FieldMatches p.relation t.relation
  objectType : FieldMatches p.objectType t.objectType
  objectId : FieldMatches p.objectId t.objectId

theorem Relaxes.refl (t : Tuple) : t.Relaxes t :=
  ⟨Or.inr rfl, Or.inr rfl, Or.inr rfl, Or.inr rfl, Or.inr rfl⟩

/-- An id that is asked for as it is written is met by what is cut from it only if nothing is cut. -/
theorem fieldMatches_cut_iff {wanted id : String} (h : FieldMatches wanted id) (kind : String) :
    FieldMatches wanted (Ref.ofParts kind id).id ↔ '#' ∉ wanted.toList := by
  by_cases hopen : wanted = ""
  · simp [hopen]
  · obtain rfl := (fieldMatches_iff hopen).1 h
    rw [fieldMatches_iff hopen, Ref.id_ofParts_eq_iff]

/-- **A relaxation of a tuple matches it exactly if no id that is asked for has a hash.** -/
theorem Relaxes.matches_iff (h : p.Relaxes t) :
    p.Matches t ↔ '#' ∉ p.userId.toList ∧ '#' ∉ p.objectId.toList := by
  simp only [Matches, user, object, Ref.kind_ofParts, fieldMatches_cut_iff h.userId,
    fieldMatches_cut_iff h.objectId, h.userType, h.relation, h.objectType, true_and]

theorem matches_self_iff : t.Matches t ↔ '#' ∉ t.userId.toList ∧ '#' ∉ t.objectId.toList :=
  (Relaxes.refl t).matches_iff

/-! ## Complete patterns -/

theorem not_isComplete_any : ¬any.IsComplete := by decide

theorem IsComplete.ne_any (h : t.IsComplete) : t ≠ any := by
  rintro rfl
  exact not_isComplete_any h

theorem isComplete_iff :
    t.IsComplete ↔ t.userType ≠ "" ∧ t.userId ≠ "" ∧ t.relation ≠ "" ∧ t.objectType ≠ "" ∧
      t.objectId ≠ "" := by
  simp [IsComplete, fields]

theorem matches_iff_of_isComplete (h : p.IsComplete) :
    p.Matches t ↔ t.userType = p.userType ∧ t.user.id = p.userId ∧ t.relation = p.relation ∧
      t.objectType = p.objectType ∧ t.object.id = p.objectId := by
  obtain ⟨huserType, huserId, hrelation, hobjectType, hobjectId⟩ := isComplete_iff.1 h
  simp only [Matches, fieldMatches_iff huserType, fieldMatches_iff huserId, fieldMatches_iff hrelation,
    fieldMatches_iff hobjectType, fieldMatches_iff hobjectId, user, object, Ref.kind_ofParts]

/-- What a complete pattern matches is complete itself. -/
theorem Matches.isComplete (h : p.Matches t) (hp : p.IsComplete) : t.IsComplete := by
  obtain ⟨huserType, huserId, hrelation, hobjectType, hobjectId⟩ := (matches_iff_of_isComplete hp).1 h
  rw [isComplete_iff] at hp ⊢
  rw [huserType, hrelation, hobjectType]
  refine ⟨hp.1, ?_, hp.2.2.1, hp.2.2.2.1, ?_⟩
  · intro hempty
    rw [user, hempty] at huserId
    exact hp.2.1 huserId.symm
  · intro hempty
    rw [object, hempty] at hobjectId
    exact hp.2.2.2.2 hobjectId.symm

end Tuple
end TupleSync
