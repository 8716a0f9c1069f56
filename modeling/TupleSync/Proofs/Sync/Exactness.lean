import TupleSync.Proofs.Sync.Deletion
import TupleSync.Proofs.Sync.Update
import TupleSync.Proofs.Tuple.Order

/-!
# What is removed, and what is listed

**A removal by patterns is one filter of the store, and a listing is the complement of it, in order.**
The patterns are tried one after the other on what the earlier ones left, but a tuple goes exactly if
some pattern matches it, so neither the order of the patterns nor their number counts. A listing shows
what its pattern would remove, in the order of the snapshot.

A deletion removes by two patterns, the record as an object and the record as a subject. So a tuple goes
exactly if it names the record, and a userset of the record names it.
-/

set_option autoImplicit false

namespace TupleSync
namespace MemoryStore

variable {s : MemoryStore} {t : Tuple} {patterns patterns' : List Tuple}

/-! ## Removing -/

theorem eraseWhere_eraseWhere (s : MemoryStore) (f g : Tuple → Bool) :
    (s.eraseWhere f).eraseWhere g = s.eraseWhere fun t => f t || g t := by
  simp only [eraseWhere, MemoryStore.mk.injEq, List.filter_filter, Bool.not_or]
  exact List.filter_congr fun t _ => Bool.and_comm _ _

theorem eraseMatching_eq_eraseWhere (patterns : List Tuple) (s : MemoryStore) :
    s.eraseMatching patterns = s.eraseWhere fun t => patterns.any fun p => p.Matches t := by
  unfold eraseMatching
  induction patterns generalizing s with
  | nil =>
    simp [eraseWhere]
  | cons p rest ih =>
    rw [List.foldl_cons, ih, eraseWhere_eraseWhere]
    simp only [List.any_cons]

/-- A removal does not look at the order or the repetition of its patterns. -/
theorem run_removeBulk_congr (h : ∀ p, p ∈ patterns ↔ p ∈ patterns') (s : MemoryStore) :
    (TupleStore.removeBulk patterns : StoreM MemoryStore Unit).run s =
      (TupleStore.removeBulk patterns').run s := by
  by_cases hopen : Tuple.any ∈ patterns
  · rw [run_removeBulk_of_mem hopen, run_removeBulk_of_mem ((h _).1 hopen)]
  · have hsame : ∀ t, (patterns.any fun p => p.Matches t) = patterns'.any fun p => p.Matches t := by
      intro t
      rw [Bool.eq_iff_iff, List.any_eq_true, List.any_eq_true]
      exact exists_congr fun p => and_congr_left' (h p)
    rw [run_removeBulk hopen, run_removeBulk (mt (h _).2 hopen), eraseMatching_eq_eraseWhere,
      eraseMatching_eq_eraseWhere, funext hsame]

/-! ## Listing -/

theorem mem_snapshot : t ∈ s.snapshot ↔ t ∈ s := (Tuple.sort_perm s.tuples).mem_iff

theorem ascends_snapshot (s : MemoryStore) : Tuple.Ascends s.snapshot := Tuple.ascends_sort s.nodup

/-- A listing is cut out of the snapshot: sorting what matches is keeping what matches of the sorted. -/
theorem run_list_eq_filter (p : Tuple) (s : MemoryStore) :
    (TupleStore.list p : StoreM MemoryStore (List Tuple)).run s =
      (.ok (s.snapshot.filter fun t => p.Matches t), s) := by
  have hlisted : Tuple.Ascends (Tuple.sort (s.matching p)) := Tuple.ascends_sort (s.nodup.filter _)
  have hcut : Tuple.Ascends (s.snapshot.filter fun t => p.Matches t) := (ascends_snapshot s).filter _
  -- both ascend, so it is enough that they have the same tuples
  have hsame : Tuple.sort (s.matching p) = s.snapshot.filter fun t => p.Matches t := by
    refine hlisted.eq_of_mem_iff hcut fun t => ?_
    rw [(Tuple.sort_perm _).mem_iff, mem_matching, List.mem_filter, mem_snapshot, decide_eq_true_iff]
  rw [run_list, hsame]

theorem run_list_eraseMatching (p : Tuple) (s : MemoryStore) :
    (TupleStore.list p : StoreM MemoryStore (List Tuple)).run (s.eraseMatching [p]) =
      (.ok [], s.eraseMatching [p]) := by
  refine run_list_of_forall fun t ht => ?_
  exact (mem_eraseMatching.1 ht).2 p (List.mem_singleton_self p)

end MemoryStore

namespace Sync

theorem names_of_userset {t : Tuple} {kind : EntityKind} {id : Int64} {relation : String}
    (htype : t.userType = kind.type.text) (hid : t.userId = idText id ++ "#" ++ relation) :
    Names t kind id := by
  refine Or.inr ?_
  rw [RefersTo, Tuple.user, hid, Ref.ofParts_userset (hash_not_mem_idText id)]
  exact ⟨htype, rfl⟩

/-- What a removal takes from the store, and what a listing shows of it. -/
structure IsExact (s : MemoryStore) : Prop where
  /-- A removal by patterns leaves the tuples that none of them matches. -/
  removeBulk : ∀ patterns, Tuple.any ∉ patterns →
    ∃ s', (TupleStore.removeBulk patterns).run s = (.ok (), s') ∧
      ∀ t, t ∈ s' ↔ t ∈ s ∧ ∀ p ∈ patterns, ¬p.Matches t
  /-- The order of the patterns and their repetition do not matter. -/
  removeBulk_congr : ∀ patterns patterns' : List Tuple, (∀ p, p ∈ patterns ↔ p ∈ patterns') →
    (TupleStore.removeBulk patterns : StoreM MemoryStore Unit).run s =
      (TupleStore.removeBulk patterns').run s
  remove_complete : ∀ t : Tuple, t.IsComplete →
    ∃ s', (TupleStore.remove t).run s = (.ok (), s') ∧ ∀ u, u ∈ s' ↔ u ∈ s ∧ u ≠ t
  remove_partial : ∀ t : Tuple, ¬t.IsComplete →
    (TupleStore.remove t : StoreM MemoryStore Unit).run s = (TupleStore.removeBulk [t]).run s
  ascends_snapshot : Tuple.Ascends s.snapshot
  mem_snapshot : ∀ t, t ∈ s.snapshot ↔ t ∈ s
  list : ∀ p : Tuple, (TupleStore.list p).run s = (.ok (s.snapshot.filter fun t => p.Matches t), s)
  /-- Nothing is left to list of what a pattern removed. -/
  list_removed : ∀ p : Tuple, p ≠ Tuple.any →
    ∃ s', (TupleStore.removeBulk [p]).run s = (.ok (), s') ∧ (TupleStore.list p).run s' = (.ok [], s')
  /-- A deletion with an id takes the tuples that name the record, usersets of it among them. -/
  deleted : ∀ kind id, IsSet id →
    let s' := ((dispatch handlers (.deleted kind id)).run s).2
    (∀ t, t ∈ s' ↔ t ∈ s ∧ ¬Names t kind id) ∧
      ∀ t relation, t.userType = kind.type.text → t.userId = idText id ++ "#" ++ relation → t ∉ s'

theorem mem_after_dispatch_deleted {kind : EntityKind} {id : Int64} (hset : IsSet id) {t : Tuple}
    {s : MemoryStore} :
    t ∈ ((dispatch handlers (.deleted kind id)).run s).2 ↔ t ∈ s ∧ ¬Names t kind id := by
  rw [after_dispatch]
  show t ∈ afterEffects _ (effects (.deleted kind id)) s ↔ _
  rw [effects, if_pos hset, afterEffects_singleton, mem_after_sweep]

/-- **Removals and listings are exact, on any store in memory**, and so are the deletions that the
registered handlers carry out by them. -/
theorem removal_and_listing_are_exact (s : MemoryStore) : IsExact s where
  removeBulk patterns hopen :=
    ⟨s.eraseMatching patterns, MemoryStore.run_removeBulk hopen s, fun _ => MemoryStore.mem_eraseMatching⟩
  removeBulk_congr patterns patterns' hsame := MemoryStore.run_removeBulk_congr hsame s
  remove_complete t ht := by
    refine ⟨_, MemoryStore.run_remove_of_complete ht s, fun u => ?_⟩
    rw [MemoryStore.mem_eraseWhere, beq_eq_false_iff_ne]
  remove_partial t ht := MemoryStore.run_remove_of_not_complete ht s
  ascends_snapshot := MemoryStore.ascends_snapshot s
  mem_snapshot t := MemoryStore.mem_snapshot
  list p := MemoryStore.run_list_eq_filter p s
  list_removed p hp :=
    ⟨s.eraseMatching [p], MemoryStore.run_removeBulk_singleton hp s, MemoryStore.run_list_eraseMatching p s⟩
  deleted kind id hset := by
    refine ⟨fun t => mem_after_dispatch_deleted hset, fun t relation htype hid ht => ?_⟩
    exact (mem_after_dispatch_deleted hset).1 ht |>.2 (names_of_userset htype hid)

end Sync
end TupleSync
