import TupleSync.Store.Memory
import TupleSync.Proofs.Store.Run

/-!
# What each operation does to the store in memory

**One equation per operation, with the answer and the next state**, and one membership law for each
state that can come out. Nothing after this file opens an operation again.

An operation that fails gives back the state it was given. Removing by several patterns is a fold over
them, but what is left is said by all of them at once: the tuples that none of them matches.
-/

set_option autoImplicit false

namespace TupleSync
namespace MemoryStore

variable {s : MemoryStore} {t u : Tuple}

/-! ## States -/

theorem mem_mk {ts : List Tuple} {h : ts.Nodup} : t ∈ (⟨ts, h⟩ : MemoryStore) ↔ t ∈ ts := Iff.rfl

theorem not_mem_empty (t : Tuple) : t ∉ empty := by
  intro h
  exact absurd (mem_mk.1 h) List.not_mem_nil

theorem mem_foldl_insert {ts : List Tuple} : u ∈ ts.foldl insert s ↔ u ∈ s ∨ u ∈ ts := by
  induction ts generalizing s with
  | nil => simp
  | cons t rest ih =>
    rw [List.foldl_cons, ih, mem_insert, List.mem_cons, or_assoc]

theorem mem_matching {p : Tuple} : u ∈ s.matching p ↔ u ∈ s ∧ p.Matches u := by
  rw [matching, List.mem_filter, decide_eq_true_iff]
  rfl

/-- The store without what any of the patterns matches. -/
def eraseMatching (s : MemoryStore) (patterns : List Tuple) : MemoryStore :=
  patterns.foldl (fun s p => s.eraseWhere fun t => p.Matches t) s

theorem mem_eraseMatching {patterns : List Tuple} :
    u ∈ s.eraseMatching patterns ↔ u ∈ s ∧ ∀ p ∈ patterns, ¬p.Matches u := by
  unfold eraseMatching
  induction patterns generalizing s with
  | nil => simp
  | cons p rest ih =>
    rw [List.foldl_cons, ih, mem_eraseWhere, List.forall_mem_cons, decide_eq_false_iff_not, and_assoc]

/-! ## Operations -/

/-- The fault of the first tuple that is not complete. -/
def incomplete? (ts : List Tuple) : Option StoreError :=
  (ts.find? fun t => ¬t.IsComplete).map .incompleteTuple

theorem incomplete?_cons (t : Tuple) (rest : List Tuple) :
    incomplete? (t :: rest) =
      if t.IsComplete then incomplete? rest else some (.incompleteTuple t) := by
  by_cases h : t.IsComplete <;> simp [incomplete?, h]

theorem incomplete?_eq_none_iff {ts : List Tuple} :
    incomplete? ts = none ↔ ∀ t ∈ ts, t.IsComplete := by
  simp [incomplete?]

theorem incomplete?_of_first {before rest : List Tuple} (hbefore : ∀ u ∈ before, u.IsComplete)
    (h : ¬t.IsComplete) : incomplete? (before ++ t :: rest) = some (.incompleteTuple t) := by
  have hfirst : (before ++ t :: rest).find? (fun u => ¬u.IsComplete) = some t := by
    rw [List.find?_eq_some_iff_append]
    exact ⟨by simpa using h, before, rest, rfl, by simpa using hbefore⟩
  rw [incomplete?, hfirst, Option.map_some]

/-- The check of a list fails with the fault of it. -/
theorem requireAllComplete_eq (ts : List Tuple) :
    requireAllComplete ts = (incomplete? ts).elim (.ok ()) .error := by
  induction ts with
  | nil => rfl
  | cons t rest ih =>
    rw [requireAllComplete, List.forM_eq_forM, List.forM_cons, requireComplete, incomplete?_cons]
    split
    · exact ih
    · rfl

theorem requireAllComplete_of_forall {ts : List Tuple} (h : ∀ t ∈ ts, t.IsComplete) :
    requireAllComplete ts = .ok () := by
  rw [requireAllComplete_eq, incomplete?_eq_none_iff.2 h, Option.elim_none]

theorem requireAllComplete_of_incomplete? {ts : List Tuple} {e : StoreError}
    (h : incomplete? ts = some e) : requireAllComplete ts = .error e := by
  rw [requireAllComplete_eq, h, Option.elim_some]

theorem run_add_of_complete (h : t.IsComplete) (s : MemoryStore) :
    (TupleStore.add t : StoreM MemoryStore Unit).run s = (.ok (), s.insert t) := by
  show ((liftM (requireComplete t) : StoreM MemoryStore Unit) >>= fun _ => _) s = _
  rw [requireComplete, if_pos h]
  rfl

theorem run_add_of_not_complete (h : ¬t.IsComplete) (s : MemoryStore) :
    (TupleStore.add t : StoreM MemoryStore Unit).run s = (.error (.incompleteTuple t), s) := by
  show ((liftM (requireComplete t) : StoreM MemoryStore Unit) >>= fun _ => _) s = _
  rw [requireComplete, if_neg h]
  rfl

theorem run_addBulk {ts : List Tuple} (h : ∀ t ∈ ts, t.IsComplete) (s : MemoryStore) :
    (TupleStore.addBulk ts : StoreM MemoryStore Unit).run s = (.ok (), ts.foldl insert s) := by
  show ((liftM (requireAllComplete ts) : StoreM MemoryStore Unit) >>= fun _ => _) s = _
  rw [requireAllComplete_of_forall h]
  rfl

theorem run_addBulk_of_error {ts : List Tuple} {e : StoreError}
    (h : requireAllComplete ts = .error e) (s : MemoryStore) :
    (TupleStore.addBulk ts : StoreM MemoryStore Unit).run s = (.error e, s) := by
  show ((liftM (requireAllComplete ts) : StoreM MemoryStore Unit) >>= fun _ => _) s = _
  rw [h]
  rfl

theorem run_removeBulk {patterns : List Tuple} (h : Tuple.any ∉ patterns) (s : MemoryStore) :
    (TupleStore.removeBulk patterns : StoreM MemoryStore Unit).run s =
      (.ok (), s.eraseMatching patterns) := by
  have hany : (patterns.any fun p => p == Tuple.any) = false := by
    rw [List.any_eq_false]
    intro p hp hq
    exact h (eq_of_beq hq ▸ hp)
  show (removeBulk patterns).run s = _
  rw [removeBulk, hany]
  rfl

theorem run_removeBulk_singleton {stale : Tuple} (h : stale ≠ Tuple.any) (s : MemoryStore) :
    (TupleStore.removeBulk [stale] : StoreM MemoryStore Unit).run s =
      (.ok (), s.eraseMatching [stale]) :=
  run_removeBulk (fun hany => h (List.mem_singleton.1 hany).symm) s

theorem run_removeBulk_of_mem {patterns : List Tuple} (h : Tuple.any ∈ patterns) (s : MemoryStore) :
    (TupleStore.removeBulk patterns : StoreM MemoryStore Unit).run s = (.error .openPattern, s) := by
  have hany : (patterns.any fun p => p == Tuple.any) = true :=
    List.any_eq_true.2 ⟨Tuple.any, h, beq_self_eq_true _⟩
  show (removeBulk patterns).run s = _
  rw [removeBulk, hany]
  rfl

theorem run_remove_of_complete (h : t.IsComplete) (s : MemoryStore) :
    (TupleStore.remove t : StoreM MemoryStore Unit).run s =
      (.ok (), s.eraseWhere fun t' => t' == t) := by
  show (if t.IsComplete then modify (·.eraseWhere fun t' => t' == t)
    else removeBulk [t] : StoreM MemoryStore Unit).run s = _
  rw [if_pos h]
  rfl

theorem run_remove_of_not_complete (h : ¬t.IsComplete) (s : MemoryStore) :
    (TupleStore.remove t : StoreM MemoryStore Unit).run s = (TupleStore.removeBulk [t]).run s := by
  show (if t.IsComplete then modify (·.eraseWhere fun t' => t' == t)
    else removeBulk [t] : StoreM MemoryStore Unit).run s = _
  rw [if_neg h]
  rfl

theorem run_removeAll (s : MemoryStore) :
    (TupleStore.removeAll : StoreM MemoryStore Unit).run s = (.ok (), s.eraseWhere fun _ => true) :=
  rfl

theorem run_list (pattern : Tuple) (s : MemoryStore) :
    (TupleStore.list pattern : StoreM MemoryStore (List Tuple)).run s =
      (.ok (Tuple.sort (s.matching pattern)), s) :=
  rfl

/-- A listing by a pattern that matches nothing is empty. -/
theorem run_list_of_forall {p : Tuple} (h : ∀ t ∈ s, ¬p.Matches t) :
    (TupleStore.list p : StoreM MemoryStore (List Tuple)).run s = (.ok [], s) := by
  have hnone : s.matching p = [] :=
    List.eq_nil_iff_forall_not_mem.2 fun t ht => h t (mem_matching.1 ht).1 (mem_matching.1 ht).2
  rw [run_list, hnone, Tuple.sort, List.mergeSort_nil]

theorem run_check_of_complete (h : t.IsComplete) (s : MemoryStore) :
    (TupleStore.check t : StoreM MemoryStore Bool).run s =
      (.ok (Check.holds s.tuples t.user t.relation t.object), s) := by
  show ((liftM (requireComplete t) : StoreM MemoryStore Unit) >>= fun _ => _) s = _
  rw [requireComplete, if_pos h]
  rfl

theorem run_check_of_not_complete (h : ¬t.IsComplete) (s : MemoryStore) :
    (TupleStore.check t : StoreM MemoryStore Bool).run s = (.error (.incompleteTuple t), s) := by
  show ((liftM (requireComplete t) : StoreM MemoryStore Unit) >>= fun _ => _) s = _
  rw [requireComplete, if_neg h]
  rfl

/-- The pattern leaves open for whom, by what relation, or of what type resources are asked for. -/
def IsOpenListing (t : Tuple) : Prop :=
  t.userType = "" ∨ t.userId = "" ∨ t.relation = "" ∨ t.objectType = ""

instance (t : Tuple) : Decidable (IsOpenListing t) := inferInstanceAs (Decidable (_ ∨ _))

theorem run_accessible_of_open (h : IsOpenListing t) (s : MemoryStore) :
    (TupleStore.accessible t : StoreM MemoryStore (List Resource)).run s =
      (.error (.openListing t), s) := by
  show (ite (IsOpenListing t) _ _ : StoreM MemoryStore (List Resource)).run s = _
  rw [if_pos h]
  rfl

theorem run_accessible (h : ¬IsOpenListing t) (s : MemoryStore) :
    (TupleStore.accessible t : StoreM MemoryStore (List Resource)).run s = (.ok (s.reached t), s) := by
  show (ite (IsOpenListing t) _ _ : StoreM MemoryStore (List Resource)).run s = _
  rw [if_neg h]
  rfl

/-- A replacement that comes to its end has removed by the pattern and then added. -/
theorem replace_apply {stale fresh : Tuple} (hs : stale ≠ Tuple.any) (hf : fresh.IsComplete)
    (s : MemoryStore) :
    (TupleStore.replace stale fresh : StateM MemoryStore Replaced) s =
      (.done, (s.eraseMatching [stale]).insert fresh) :=
  replaceByTwoCalls_of_done (run_removeBulk_singleton hs s) (run_add_of_complete hf _)

theorem replace_apply_of_not_complete {stale fresh : Tuple} (hs : stale ≠ Tuple.any)
    (hf : ¬fresh.IsComplete) (s : MemoryStore) :
    (TupleStore.replace stale fresh : StateM MemoryStore Replaced) s =
      (.addFailed (.incompleteTuple fresh), s.eraseMatching [stale]) :=
  replaceByTwoCalls_of_addFailed (run_removeBulk_singleton hs s) (run_add_of_not_complete hf _)

theorem replace_apply_of_open (fresh : Tuple) (s : MemoryStore) :
    (TupleStore.replace Tuple.any fresh : StateM MemoryStore Replaced) s =
      (.removeFailed .openPattern, s) :=
  replaceByTwoCalls_of_removeFailed (run_removeBulk_of_mem List.mem_cons_self s)

end MemoryStore
end TupleSync
