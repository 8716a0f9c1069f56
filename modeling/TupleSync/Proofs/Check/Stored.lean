import TupleSync.Proofs.Check.Grants
import TupleSync.Proofs.Store.Atomicity

/-!
# What a stored tuple grants

**A stored tuple is granted, unless its object is written as a userset.** A check cuts the id of the
object at the first hash and looks for a tuple with what is left. A tuple whose object id has no hash is
that very tuple. One whose object id has a hash is not looked for, be it as the grant or as a hop, and so
the search is the same without it: `search_filter`.

The subject is cut as well, but it is put together again before it is looked for.
-/

set_option autoImplicit false

namespace TupleSync.Check

variable {tuples : List Tuple} {subject : Ref} {n : Node} {t : Tuple}

/-! ## Tuples that are looked for -/

theorem holds_of_mem (ht : t ∈ tuples) (hobject : '#' ∉ t.objectId.toList) :
    holds tuples t.user t.relation t.object = true := by
  have hdirect : direct t.user (root t) = t := by
    rw [direct_user, root, Tuple.object, Ref.ofParts_of_not_mem hobject]
  show (search tuples t.user (maxHops + 1) (root t) []).1 = true
  rw [search, if_neg List.not_mem_nil, hdirect, if_pos ht]

/-! ## Tuples that are not -/

/-- All tuples that are left out have a hash in their object id. -/
def KeepsPlainObjects (keep : Tuple → Bool) : Prop :=
  ∀ t, '#' ∉ t.objectId.toList → keep t = true

variable {keep : Tuple → Bool}

theorem direct_mem_filter (hkeep : KeepsPlainObjects keep) (hn : '#' ∉ n.object.id.toList) :
    direct subject n ∈ tuples.filter keep ↔ direct subject n ∈ tuples := by
  rw [List.mem_filter]
  exact and_iff_left (hkeep _ hn)

theorem usersets_filter (hkeep : KeepsPlainObjects keep) (hn : '#' ∉ n.object.id.toList) :
    usersets (tuples.filter keep) n = usersets tuples n := by
  have hhas : ∀ t, n.Has t → keep t = true := fun t ht => hkeep t (ht.2.2 ▸ hn)
  rw [usersets, usersets, List.filter_filter]
  congr 2
  funext t
  by_cases ht : n.Has t
  · simp [ht, hhas t ht]
  · simp [ht]

theorem tryEach_congr {f g : Node → List String → Bool × List String} {ns : List Node}
    (h : ∀ n ∈ ns, ∀ seen, f n seen = g n seen) (seen : List String) :
    tryEach f ns seen = tryEach g ns seen := by
  induction ns generalizing seen with
  | nil => rfl
  | cons n rest ih =>
    obtain ⟨hn, hrest⟩ := List.forall_mem_cons.1 h
    rw [tryEach, tryEach, hn]
    rcases g n seen with ⟨_ | _, between⟩
    · exact ih hrest between
    · rfl

theorem search_filter (hkeep : KeepsPlainObjects keep) (levels : Nat) (hn : '#' ∉ n.object.id.toList)
    (seen : List String) :
    search (tuples.filter keep) subject levels n seen = search tuples subject levels n seen := by
  induction levels generalizing n seen with
  | zero => rfl
  | succ levels ih =>
    rw [search, search, usersets_filter hkeep hn]
    simp only [direct_mem_filter hkeep hn]
    -- the object of a userset is cut, so it has no hash either
    have hbelow : ∀ m ∈ usersets tuples n, ∀ seen, search (tuples.filter keep) subject levels m seen =
        search tuples subject levels m seen :=
      fun m hm seen => ih (hash_not_mem_id_of_mem_usersets hm) seen
    rw [tryEach_congr hbelow]

/-- A tuple whose object id has a hash makes no difference to any check. -/
theorem run_check_eraseWhere (ht : '#' ∈ t.objectId.toList) (s : MemoryStore) (r : Tuple) :
    ((TupleStore.check r : StoreM MemoryStore Bool).run (s.eraseWhere fun u => u == t)).1 =
      ((TupleStore.check r : StoreM MemoryStore Bool).run s).1 := by
  by_cases hr : r.IsComplete
  · have hkeep : KeepsPlainObjects fun u => !(u == t) := by
      intro u hu
      have hne : u ≠ t := by
        rintro rfl
        exact hu ht
      simpa using hne
    have hroot : '#' ∉ (root r).object.id.toList := Ref.hash_not_mem_id_ofParts r.objectType r.objectId
    rw [MemoryStore.run_check_of_complete hr, MemoryStore.run_check_of_complete hr]
    show Except.ok (search (s.tuples.filter _) r.user _ (root r) []).1 = _
    rw [search_filter hkeep _ hroot]
    rfl
  · rw [MemoryStore.run_check_of_not_complete hr, MemoryStore.run_check_of_not_complete hr]

/-! ## Every stored tuple -/

/-- **Which stored tuples are granted.** Whatever a store in memory has been used for, and whatever is
written in a tuple that it holds: if the id of its object has no hash the check of the tuple says yes. If
it has one, the tuple grants nothing: every check, its own among them, is answered as if the tuple were
not stored. -/
theorem stored_granted_or_ignored (uses : List Use) (ht : t ∈ Use.afterAll uses MemoryStore.empty) :
    let s := Use.afterAll uses MemoryStore.empty
    ('#' ∉ t.objectId.toList →
      (TupleStore.check t : StoreM MemoryStore Bool).run s = (.ok true, s)) ∧
    ('#' ∈ t.objectId.toList → ∀ r,
      ((TupleStore.check r : StoreM MemoryStore Bool).run s).1 =
        ((TupleStore.check r : StoreM MemoryStore Bool).run (s.eraseWhere fun u => u == t)).1) := by
  intro s
  constructor
  · intro hobject
    have hcomplete : t.IsComplete := Use.isComplete_of_mem_afterAll uses t ht
    rw [MemoryStore.run_check_of_complete hcomplete, holds_of_mem ht hobject]
  · exact fun hobject r => (run_check_eraseWhere hobject s r).symm

/-- The members of a group own a service, and a user owns what is written as a part of it. -/
def partlyOwned : List Use :=
  [.operation (.addBulk [⟨"support_group", "3#member", "owner", "service", "1"⟩,
    ⟨"user", "7", "owner", "service", "1#part"⟩])]

/-- The group's members are granted the service. The part is granted to its owner only as far as it would
be without the tuple that says so. -/
theorem stored_granted_or_ignored_part :
    let s := Use.afterAll partlyOwned MemoryStore.empty
    let members : Tuple := ⟨"support_group", "3#member", "owner", "service", "1"⟩
    let user : Tuple := ⟨"user", "7", "owner", "service", "1#part"⟩
    members ∈ s ∧ user ∈ s ∧
      (TupleStore.check members : StoreM MemoryStore Bool).run s = (.ok true, s) ∧
      ((TupleStore.check user : StoreM MemoryStore Bool).run s).1 =
        ((TupleStore.check user : StoreM MemoryStore Bool).run (s.eraseWhere fun u => u == user)).1 := by
  intro s members user
  have hmembers : members ∈ s := by decide
  have huser : user ∈ s := by decide
  exact ⟨hmembers, huser, (stored_granted_or_ignored partlyOwned hmembers).1 (by decide),
    (stored_granted_or_ignored partlyOwned huser).2 (by decide) user⟩

/-- **A tuple is written and not granted.** The check of the owner of the part says no. -/
theorem exists_stored_not_granted :
    ∃ (uses : List Use) (t : Tuple), t ∈ Use.afterAll uses MemoryStore.empty ∧
      (TupleStore.check t : StoreM MemoryStore Bool).run (Use.afterAll uses MemoryStore.empty) =
        (.ok false, Use.afterAll uses MemoryStore.empty) :=
  ⟨[.operation (.add ⟨"user", "7", "owner", "service", "1#part"⟩)],
    ⟨"user", "7", "owner", "service", "1#part"⟩, by decide, rfl⟩

end TupleSync.Check
