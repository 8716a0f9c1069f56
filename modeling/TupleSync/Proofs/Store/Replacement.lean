import Mathlib.Tactic.ByContra
import TupleSync.Proofs.Store.Memory
import TupleSync.Proofs.Store.Operation
import TupleSync.Proofs.Tuple.Matching

/-!
# Replacing, and removing then adding

**A replacement removes whatever its first tuple matches, a removal of a complete tuple removes that
tuple.** As long as the first tuple leaves a field open the two are the same. For a complete one they
answer alike and may leave different tuples: the replacement passes over a userset that is named exactly,
since no pattern with a hash in an id matches anything, and takes the usersets of a plain subject or
object along.

`replace_agrees_iff` is the exact condition. In both directions it can fail for tuples that are written
every day, a group's members as the owners of a service among them.
-/

set_option autoImplicit false

namespace TupleSync
namespace Operation

/-- Removes the first, one tuple or what a pattern matches, and then adds the second. -/
def removeThenAdd {σ : Type} [TupleStore σ] (stale fresh : Tuple) : StoreM σ (List Tuple) := do
  TupleStore.remove stale
  TupleStore.add fresh
  return []

variable {s : MemoryStore} {stale fresh t : Tuple}

/-! ## What each of them leaves -/

/-- The store with one more tuple, if it is one that can be written. -/
def withFresh (s : MemoryStore) (fresh : Tuple) : Except StoreError (List Tuple) × MemoryStore :=
  if fresh.IsComplete then (.ok [], s.insert fresh) else (.error (.incompleteTuple fresh), s)

/-- After a first call that succeeds, whatever it was, all hangs on the tuple to be added. -/
theorem run_bind_add {x : StoreM MemoryStore Unit} {s' : MemoryStore} (h : x.run s = (.ok (), s')) :
    (do
      x
      TupleStore.add fresh
      return [] : StoreM MemoryStore (List Tuple)).run s = withFresh s' fresh := by
  refine (storeM_bind_of_ok h).trans ?_
  unfold withFresh
  split
  · next hf => exact storeM_bind_of_ok (MemoryStore.run_add_of_complete hf s')
  · next hf => exact storeM_bind_of_error (MemoryStore.run_add_of_not_complete hf s')

theorem mem_withFresh : t ∈ (withFresh s fresh).2 ↔ t ∈ s ∨ (fresh.IsComplete ∧ t = fresh) := by
  unfold withFresh
  split
  · next hf => simp [MemoryStore.mem_insert, hf]
  · next hf => simp [hf]

theorem replace_eq_calls (stale fresh : Tuple) :
    ((Operation.replace stale fresh).perform : StoreM MemoryStore (List Tuple)) = (do
      TupleStore.removeBulk [stale]
      TupleStore.add fresh
      return []) :=
  replace_eq_bind _ _ stale fresh

/-- With a field left open there is one way to remove, and nothing to tell the two apart. -/
theorem replace_eq_removeThenAdd (h : ¬stale.IsComplete) :
    ((Operation.replace stale fresh).perform : StoreM MemoryStore (List Tuple)) =
      removeThenAdd stale fresh := by
  have hremove : (TupleStore.remove stale : StoreM MemoryStore Unit) =
      TupleStore.removeBulk [stale] := funext fun s => MemoryStore.run_remove_of_not_complete h s
  rw [replace_eq_calls, removeThenAdd, hremove]

theorem run_replace_of_complete (h : stale.IsComplete) (s : MemoryStore) :
    (Operation.replace stale fresh).perform.run s = withFresh (s.eraseMatching [stale]) fresh := by
  rw [replace_eq_calls]
  exact run_bind_add (MemoryStore.run_removeBulk_singleton h.ne_any s)

theorem run_removeThenAdd_of_complete (h : stale.IsComplete) (s : MemoryStore) :
    (removeThenAdd stale fresh).run s = withFresh (s.eraseWhere fun t => t == stale) fresh :=
  run_bind_add (MemoryStore.run_remove_of_complete h s)

/-! ## Where they agree -/

/-- Among the stored tuples the pattern stands for itself and for nothing else, but for the tuple that is
written anyway. -/
structure StandsForItself (s : MemoryStore) (stale fresh : Tuple) : Prop where
  /-- Otherwise the stale tuple survives. -/
  found : stale ∈ s → stale = fresh ∨ ('#' ∉ stale.userId.toList ∧ '#' ∉ stale.objectId.toList)
  /-- Otherwise another tuple goes with it. -/
  alone : ∀ t ∈ s, stale.Matches t → t = stale ∨ t = fresh

theorem agree_iff_standsForItself (h : stale.IsComplete) :
    (∀ t, t ∈ (withFresh (s.eraseMatching [stale]) fresh).2 ↔
        t ∈ (withFresh (s.eraseWhere fun t => t == stale) fresh).2) ↔
      StandsForItself s stale fresh := by
  simp only [mem_withFresh, MemoryStore.mem_eraseMatching, MemoryStore.mem_eraseWhere,
    List.forall_mem_singleton, beq_eq_false_iff_ne]
  constructor
  · intro hagree
    constructor
    · intro hstale
      by_cases hfresh : stale = fresh
      · exact Or.inl hfresh
      · refine Or.inr (Tuple.matches_self_iff.1 ?_)
        by_contra hnot
        rcases (hagree stale).1 (Or.inl ⟨hstale, hnot⟩) with ⟨-, hne⟩ | ⟨-, heq⟩
        · exact hne rfl
        · exact hfresh heq
    · intro t ht hmatches
      by_contra hother
      obtain ⟨hstale, hfresh⟩ := not_or.1 hother
      rcases (hagree t).2 (Or.inl ⟨ht, hstale⟩) with ⟨-, hnot⟩ | ⟨-, heq⟩
      · exact hnot hmatches
      · exact hfresh heq
  · intro hself t
    constructor
    · intro hor
      rcases hor with ⟨ht, hnot⟩ | hfresh
      · by_cases hstale : t = stale
        · subst hstale
          rcases hself.found ht with rfl | hplain
          · exact Or.inr ⟨h, rfl⟩
          · exact absurd (Tuple.matches_self_iff.2 hplain) hnot
        · exact Or.inl ⟨ht, hstale⟩
      · exact Or.inr hfresh
    · intro hor
      rcases hor with ⟨ht, hstale⟩ | hfresh
      · by_cases hmatches : stale.Matches t
        · obtain rfl := (hself.alone t ht hmatches).resolve_left hstale
          exact Or.inr ⟨hmatches.isComplete h, rfl⟩
        · exact Or.inl ⟨ht, hmatches⟩
      · exact Or.inr hfresh

/-- **When a replacement is a removal and then an addition.** The answers are always the same. The tuples
that are left are the same for every pattern with an open field, and for a complete one exactly if it
stands for itself. -/
theorem replace_agrees_iff (s : MemoryStore) (stale fresh : Tuple) :
    let once := (Operation.replace stale fresh).perform.run s
    let twice := (removeThenAdd stale fresh).run s
    once.1 = twice.1 ∧
      ((∀ t, t ∈ once.2 ↔ t ∈ twice.2) ↔ (stale.IsComplete → StandsForItself s stale fresh)) := by
  intro once twice
  by_cases h : stale.IsComplete
  · have honce : once = withFresh (s.eraseMatching [stale]) fresh := run_replace_of_complete h s
    have htwice : twice = withFresh (s.eraseWhere fun t => t == stale) fresh :=
      run_removeThenAdd_of_complete h s
    rw [honce, htwice]
    constructor
    · unfold withFresh
      split <;> rfl
    · rw [agree_iff_standsForItself h]
      exact ⟨fun hself _ => hself, fun himp => himp h⟩
  · have hsame : once = twice := by
      show (Operation.replace stale fresh).perform.run s = (removeThenAdd stale fresh).run s
      rw [replace_eq_removeThenAdd h]
    rw [hsame]
    simp [h]

/-- A group owns a service, and so do its members. -/
def ownedTwice : MemoryStore :=
  ⟨[⟨"support_group", "3", "owner", "service", "1"⟩,
    ⟨"support_group", "3#member", "owner", "service", "1"⟩], by decide⟩

/-- **A stale grant survives, and another one is lost.** Replacing the members of the group leaves them
owners; replacing the group itself takes its members along. -/
theorem replace_survives_and_loses :
    let group : Tuple := ⟨"support_group", "3", "owner", "service", "1"⟩
    let members : Tuple := ⟨"support_group", "3#member", "owner", "service", "1"⟩
    let user : Tuple := ⟨"user", "7", "owner", "service", "1"⟩
    (members ∈ ((Operation.replace members user).perform.run ownedTwice).2 ∧
        members ∉ ((removeThenAdd members user).run ownedTwice).2) ∧
      members ∉ ((Operation.replace group user).perform.run ownedTwice).2 ∧
        members ∈ ((removeThenAdd group user).run ownedTwice).2 := by
  intro group members user
  have hgroup : group.IsComplete := by decide
  have hmembers : members.IsComplete := by decide
  rw [run_replace_of_complete hmembers, run_replace_of_complete hgroup,
    run_removeThenAdd_of_complete hmembers, run_removeThenAdd_of_complete hgroup]
  decide

end Operation
end TupleSync
