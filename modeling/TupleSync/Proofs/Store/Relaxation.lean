import TupleSync.Proofs.Store.Memory
import TupleSync.Proofs.Tuple.Matching
import TupleSync.Proofs.Tuple.Order

/-!
# Finding a tuple by what is written in it

**A stored tuple is found by each of its relaxations that asks for no userset.** Whatever is left open, it
is listed, and removed by pattern, as long as no id that is kept has a hash. A pattern that keeps one
finds no tuple at all: it looks for an id with a hash among ids that were cut there.

So the usersets that a store holds cannot be named by a pattern, neither to be listed nor to be removed.
They can be reached through the fields that are left, with their own id open.
-/

set_option autoImplicit false

namespace TupleSync
namespace MemoryStore

variable {p t : Tuple}

/-- **Where a tuple is found by its own fields.** For every tuple and every pattern that keeps some of its
fields and leaves the others open, these come to the same: the pattern matches the tuple, every store that
holds the tuple lists it by the pattern, every such store removes it by the pattern unless all is open, and
no id that the pattern keeps has a hash. -/
theorem found_by_relaxation_iff (h : p.Relaxes t) :
    let hashless := '#' ∉ p.userId.toList ∧ '#' ∉ p.objectId.toList
    (p.Matches t ↔ hashless) ∧
    ∀ s : MemoryStore, t ∈ s →
      (∃ found, (TupleStore.list p : StoreM MemoryStore (List Tuple)).run s = (.ok found, s) ∧
        (t ∈ found ↔ hashless)) ∧
      (p ≠ Tuple.any → ∃ left,
        (TupleStore.removeBulk [p] : StoreM MemoryStore Unit).run s = (.ok (), left) ∧
          (t ∉ left ↔ hashless)) := by
  intro hashless
  have hmatches : p.Matches t ↔ hashless := h.matches_iff
  refine ⟨hmatches, fun s ht => ⟨?_, fun hp => ?_⟩⟩
  · refine ⟨_, run_list p s, ?_⟩
    rw [(Tuple.sort_perm _).mem_iff, mem_matching, hmatches]
    exact and_iff_right ht
  · refine ⟨_, run_removeBulk_singleton hp s, ?_⟩
    rw [mem_eraseMatching, List.forall_mem_singleton, hmatches, not_and_not_right]
    exact forall_prop_of_true ht

/-- The members of a group own a service. -/
def ownedByMembers : MemoryStore := ⟨[⟨"support_group", "3#member", "owner", "service", "1"⟩], by decide⟩

/-- The members are found with their own id left open. -/
theorem found_by_relaxation_iff_members :
    let members : Tuple := ⟨"support_group", "3#member", "owner", "service", "1"⟩
    let group : Tuple := ⟨"support_group", "", "owner", "service", "1"⟩
    group.Relaxes members ∧ members ∈ ownedByMembers ∧ group.Matches members ∧
      (∃ found, (TupleStore.list group : StoreM MemoryStore (List Tuple)).run ownedByMembers =
          (.ok found, ownedByMembers) ∧ members ∈ found) ∧
      ∃ left, (TupleStore.removeBulk [group] : StoreM MemoryStore Unit).run ownedByMembers =
          (.ok (), left) ∧ members ∉ left := by
  intro members group
  have hrelaxes : group.Relaxes members :=
    ⟨Or.inr rfl, Or.inl rfl, Or.inr rfl, Or.inr rfl, Or.inr rfl⟩
  have hmem : members ∈ ownedByMembers := by decide
  have hashless : '#' ∉ group.userId.toList ∧ '#' ∉ group.objectId.toList := by decide
  obtain ⟨hmatches, hfound⟩ := found_by_relaxation_iff hrelaxes
  obtain ⟨⟨found, hlist, hlisted⟩, hremove⟩ := hfound ownedByMembers hmem
  obtain ⟨left, hrun, hleft⟩ := hremove (by decide)
  exact ⟨hrelaxes, hmem, hmatches.2 hashless, ⟨found, hlist, hlisted.2 hashless⟩,
    left, hrun, hleft.2 hashless⟩

/-- **A complete tuple is not found by itself.** The pattern that keeps all five fields does not match the
members of the group, so it lists nothing and leaves them where they are. -/
theorem exists_tuple_hidden_from_itself :
    ∃ (s : MemoryStore) (t : Tuple), t.IsComplete ∧ t.Relaxes t ∧ t ∈ s ∧ ¬t.Matches t ∧
      (TupleStore.list t : StoreM MemoryStore (List Tuple)).run s = (.ok [], s) ∧
      t ∈ ((TupleStore.removeBulk [t] : StoreM MemoryStore Unit).run s).2 := by
  let members : Tuple := ⟨"support_group", "3#member", "owner", "service", "1"⟩
  have hnone : ownedByMembers.matching members = [] := by decide
  refine ⟨ownedByMembers, members, by decide, .refl members, by decide, by decide, ?_, ?_⟩
  · rw [run_list, hnone, Tuple.sort, List.mergeSort_nil]
  · rw [run_removeBulk_singleton (by decide)]
    decide

end MemoryStore
end TupleSync
