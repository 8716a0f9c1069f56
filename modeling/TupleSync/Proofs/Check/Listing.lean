import TupleSync.Proofs.Check.Grants
import TupleSync.Proofs.Tuple.Matching
import TupleSync.Proofs.Tuple.Order

/-!
# Listings and checks

**An object is listed exactly if the check of it says yes.** A listing looks for objects of a type among
the stored tuples first, and then searches from each of them as a check does, with nothing visited. No
object that a check grants can escape it: whether the first step of a search is a grant or a hop, it is a
stored tuple with that very object.

Ids that are cut at a hash are listed as what is left of them, so no id in a listing has one.
-/

set_option autoImplicit false

namespace TupleSync.Check

variable {tuples : List Tuple} {subject : Ref} {n : Node}

/-! ## The first step of a search -/

/-- A chain starts with a stored tuple on the object that it starts from. -/
theorem GrantsThrough.exists_tuple {via : List Node} (h : GrantsThrough tuples subject n via) :
    ∃ t ∈ tuples, t.objectType = n.object.kind ∧ t.objectId = n.object.id := by
  cases via with
  | nil => exact ⟨direct subject n, h, rfl, rfl⟩
  | cons m rest =>
    obtain ⟨hhop, -⟩ := h
    exact ⟨_, mem_tuples_of_mem_usersets hhop, rfl, rfl⟩

theorem exists_tuple_of_holds {r : Tuple} (h : holds tuples r.user r.relation r.object = true) :
    ∃ t ∈ tuples, t.objectType = r.objectType ∧ t.objectId = r.object.id := by
  obtain ⟨via, -, hvia, -⟩ := (holds_iff r).1 h
  obtain ⟨t, ht, htype, hid⟩ := hvia.exists_tuple
  exact ⟨t, ht, htype.trans (Ref.kind_ofParts _ _), hid⟩

end TupleSync.Check

namespace TupleSync.MemoryStore

open Check

variable {s : MemoryStore} {r : Tuple} {id type : String}

/-! ## The ids of a listing -/

theorem mem_objectIds : id ∈ s.objectIds type ↔ ∃ t ∈ s, t.objectType = type ∧ t.object.id = id := by
  simp only [objectIds, List.mem_mergeSort, List.mem_eraseDups, List.mem_map, List.mem_filter,
    decide_eq_true_iff, and_assoc]
  rfl

theorem pairwise_objectIds (s : MemoryStore) (type : String) :
    (s.objectIds type).Pairwise (· < ·) := by
  have hsorted : (s.objectIds type).Pairwise (· ≤ ·) := List.pairwise_mergeSort' (· ≤ ·) _
  have honce : (s.objectIds type).Pairwise (· ≠ ·) := List.nodup_mergeSort.2 (nodup_eraseDups _)
  exact honce.imp₂ (fun _ _ hne hle => lt_of_le_of_ne hle hne) hsorted

theorem hash_not_mem_of_mem_objectIds (h : id ∈ s.objectIds type) : '#' ∉ id.toList := by
  obtain ⟨t, -, -, rfl⟩ := mem_objectIds.1 h
  exact Ref.hash_not_mem_id_ofParts t.objectType t.objectId

theorem map_objectId_reached (s : MemoryStore) (r : Tuple) :
    (s.reached r).map Resource.objectId = (s.objectIds r.objectType).filter fun id =>
      holds s.tuples r.user r.relation (.ofParts r.objectType id) := by
  simp [reached, Function.comp_def]

/-- A listing shows an id that is asked for exactly if the search from its object succeeds. -/
theorem mem_reached_iff (hid : '#' ∉ id.toList) :
    ⟨r.objectType, id⟩ ∈ s.reached r ↔
      holds s.tuples r.user r.relation (.ofParts r.objectType id) = true := by
  have hresource : ⟨r.objectType, id⟩ ∈ s.reached r ↔ id ∈ s.objectIds r.objectType ∧
      holds s.tuples r.user r.relation (.ofParts r.objectType id) = true := by
    simp [reached, List.mem_map, List.mem_filter]
  rw [hresource]
  refine and_iff_right_of_imp fun hholds => ?_
  obtain ⟨t, ht, htype, hobject⟩ := exists_tuple_of_holds (r := { r with objectId := id }) hholds
  rw [Tuple.object, Ref.ofParts_of_not_mem hid] at hobject
  refine mem_objectIds.2 ⟨t, ht, htype, ?_⟩
  rw [Tuple.object, hobject, Ref.ofParts_of_not_mem hid]

/-- **A listing and a check decide the same.** For every store, in whatever order it has its tuples, and
every request that says for whom, by what relation and of what type: the listing succeeds, its objects are
of that type, their ids have no hash and are strictly increasing, and an id without a hash is among them
exactly if the check of the subject's relation on that object says yes. -/
theorem accessible_iff_check (s : MemoryStore) (huserType : r.userType ≠ "") (huserId : r.userId ≠ "")
    (hrelation : r.relation ≠ "") (hobjectType : r.objectType ≠ "") :
    ∃ found, (TupleStore.accessible r : StoreM MemoryStore (List Resource)).run s = (.ok found, s) ∧
      (∀ x ∈ found, x.objectType = r.objectType ∧ '#' ∉ x.objectId.toList) ∧
      (found.map Resource.objectId).Pairwise (· < ·) ∧
      ∀ id, id ≠ "" → '#' ∉ id.toList →
        (⟨r.objectType, id⟩ ∈ found ↔
          (TupleStore.check { r with objectId := id } : StoreM MemoryStore Bool).run s =
            (.ok true, s)) := by
  have hclosed : ¬IsOpenListing r := by
    simp [IsOpenListing, huserType, huserId, hrelation, hobjectType]
  refine ⟨s.reached r, run_accessible hclosed s, ?_, ?_, ?_⟩
  · intro x hx
    obtain ⟨id, hid, rfl⟩ := List.mem_map.1 hx
    exact ⟨rfl, hash_not_mem_of_mem_objectIds (List.mem_filter.1 hid).1⟩
  · rw [map_objectId_reached]
    exact (pairwise_objectIds s r.objectType).filter _
  · intro id hne hid
    have hcomplete : ({ r with objectId := id } : Tuple).IsComplete :=
      Tuple.isComplete_iff.2 ⟨huserType, huserId, hrelation, hobjectType, hne⟩
    rw [mem_reached_iff hid, run_check_of_complete hcomplete, Prod.mk.injEq, and_iff_left rfl,
      Except.ok.injEq]
    exact Iff.rfl

/-- A service that a user sees through two groups that hold each other is listed for the user. -/
theorem accessible_iff_check_shared :
    let r : Tuple := ⟨"user", "7", "can_view", "service", ""⟩
    (r.userType ≠ "" ∧ r.userId ≠ "" ∧ r.relation ≠ "" ∧ r.objectType ≠ "") ∧
    ∃ found, (TupleStore.accessible r : StoreM MemoryStore (List Resource)).run sharedService =
        (.ok found, sharedService) ∧
      (∀ x ∈ found, x.objectType = "service" ∧ '#' ∉ x.objectId.toList) ∧
      (found.map Resource.objectId).Pairwise (· < ·) ∧ ⟨"service", "5"⟩ ∈ found := by
  intro r
  have hset : r.userType ≠ "" ∧ r.userId ≠ "" ∧ r.relation ≠ "" ∧ r.objectType ≠ "" := by decide
  obtain ⟨huserType, huserId, hrelation, hobjectType⟩ := hset
  obtain ⟨found, hrun, hplain, hincreasing, hiff⟩ :=
    accessible_iff_check sharedService huserType huserId hrelation hobjectType
  have hcheck : (TupleStore.check ⟨"user", "7", "can_view", "service", "5"⟩ :
      StoreM MemoryStore Bool).run sharedService = (.ok true, sharedService) := rfl
  exact ⟨⟨huserType, huserId, hrelation, hobjectType⟩, found, hrun, hplain, hincreasing,
    (hiff "5" (by decide) (by decide)).2 hcheck⟩

end TupleSync.MemoryStore
