import TupleSync.Store.Basic
import TupleSync.Store.Check

/-!
# The store in memory

**A set of tuples, kept as a list without repetition.** The order of the list is the order in which the
store goes through its tuples; answers that show several tuples sort them first.

Everything is refused before anything is changed: a list with one incomplete tuple writes nothing, a list
with one empty pattern removes nothing.
-/

set_option autoImplicit false

namespace TupleSync

/-- A set of tuples. -/
structure MemoryStore where
  tuples : List Tuple
  nodup : tuples.Nodup

namespace MemoryStore

def empty : MemoryStore := ⟨[], List.nodup_nil⟩

instance : Membership Tuple MemoryStore := ⟨fun s t => t ∈ s.tuples⟩

instance (t : Tuple) (s : MemoryStore) : Decidable (t ∈ s) :=
  inferInstanceAs (Decidable (t ∈ s.tuples))

/-- The store with one more tuple. -/
def insert (s : MemoryStore) (t : Tuple) : MemoryStore :=
  if h : t ∈ s.tuples then s
  else ⟨s.tuples ++ [t], by
    rw [List.nodup_append]
    exact ⟨s.nodup, by simp, by simp; exact fun a ha heq => h (heq ▸ ha)⟩⟩

/-- The store without the tuples that satisfy `p`. -/
def eraseWhere (s : MemoryStore) (p : Tuple → Bool) : MemoryStore :=
  ⟨s.tuples.filter fun t => !p t, s.nodup.filter _⟩

theorem mem_insert {s : MemoryStore} {t u : Tuple} : u ∈ s.insert t ↔ u ∈ s ∨ u = t := by
  simp only [Membership.mem, insert]
  split
  · next h =>
    constructor
    · exact Or.inl
    · rintro (h' | rfl)
      · exact h'
      · exact h
  · exact List.mem_append.trans (or_congr Iff.rfl List.mem_singleton)

theorem mem_eraseWhere {s : MemoryStore} {p : Tuple → Bool} {u : Tuple} :
    u ∈ s.eraseWhere p ↔ u ∈ s ∧ p u = false := by
  simp only [Membership.mem, eraseWhere]
  exact List.mem_filter.trans (and_congr Iff.rfl Bool.not_eq_eq_eq_not)

/-- The tuples in order. -/
def snapshot (s : MemoryStore) : List Tuple := Tuple.sort s.tuples

/-- The tuples that the pattern matches. -/
def matching (s : MemoryStore) (pattern : Tuple) : List Tuple :=
  s.tuples.filter fun t => pattern.Matches t

/-- Only complete tuples are written. -/
def requireComplete (t : Tuple) : Except StoreError Unit :=
  if t.IsComplete then .ok () else .error (.incompleteTuple t)

/-- Fails with the first incomplete tuple. -/
def requireAllComplete (ts : List Tuple) : Except StoreError Unit :=
  ts.forM requireComplete

/-- Removes what any of the patterns matches, unless one of them is open in every field. -/
def removeBulk (patterns : List Tuple) : StoreM MemoryStore Unit := do
  if patterns.any fun p => p == Tuple.any then throw .openPattern
  modify fun s => patterns.foldl (fun s p => s.eraseWhere fun t => p.Matches t) s

/-- The ids of the objects of the type, each once and in order. -/
def objectIds (s : MemoryStore) (type : String) : List String :=
  ((s.tuples.filter fun t => t.objectType = type).map fun t => t.object.id).eraseDups.mergeSort
    fun a b => decide (a ≤ b)

/-- The objects of the type of `t` that its subject reaches. -/
def reached (s : MemoryStore) (t : Tuple) : List Resource :=
  ((s.objectIds t.objectType).filter fun id =>
    Check.holds s.tuples t.user t.relation (.ofParts t.objectType id)).map
      fun id => ⟨t.objectType, id⟩

instance : TupleStore MemoryStore where
  check t := do
    requireComplete t
    return Check.holds (← get).tuples t.user t.relation t.object
  add t := do
    requireComplete t
    modify (·.insert t)
  addBulk ts := do
    requireAllComplete ts
    modify fun s => ts.foldl insert s
  remove t := do
    if t.IsComplete then modify (·.eraseWhere fun t' => t' == t) else removeBulk [t]
  removeBulk := removeBulk
  removeAll := modify (·.eraseWhere fun _ => true)
  list pattern := do return Tuple.sort ((← get).matching pattern)
  accessible t := do
    if t.userType = "" ∨ t.userId = "" ∨ t.relation = "" ∨ t.objectType = "" then
      throw (.openListing t)
    return (← get).reached t

end MemoryStore

end TupleSync
