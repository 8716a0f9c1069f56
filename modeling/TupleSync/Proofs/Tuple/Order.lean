import Mathlib.Data.String.Basic
import Mathlib.Data.List.Lex
import Mathlib.Data.List.Sort
import TupleSync.Tuple.Basic

/-!
# The order of tuples

**Tuples are ordered as their lists of fields are**, and no two share their fields, so of two tuples that
differ one stands before the other. A sorted list without repetition is therefore strictly increasing.
-/

set_option autoImplicit false

namespace TupleSync

/-- What is kept of a list without its repetitions has none. -/
theorem nodup_eraseDups {α : Type} [BEq α] [LawfulBEq α] (xs : List α) : xs.eraseDups.Nodup := by
  cases xs with
  | nil => exact List.nodup_nil
  | cons x rest =>
    rw [List.eraseDups_cons, List.nodup_cons, List.mem_eraseDups, List.mem_filter]
    refine ⟨?_, nodup_eraseDups (rest.filter fun y => !y == x)⟩
    rintro ⟨-, hne⟩
    simp at hne
termination_by xs.length
decreasing_by exact Nat.lt_succ_of_le (List.length_filter_le _ _)

namespace Tuple

variable {s t : Tuple} {ts : List Tuple}

theorem before_iff : s.before t = true ↔ s.fields < t.fields := List.lex_eq_true_iff_lt

theorem fields_injective : Function.Injective fields := by
  intro s t h
  cases s
  cases t
  simpa [fields] using h

/-- Of two tuples that differ one stands before the other. -/
theorem before_of_ne (h : s ≠ t) (hnot : ¬t.before s = true) : s.before t = true := by
  rw [before_iff] at hnot ⊢
  exact lt_of_le_of_ne (not_lt.1 hnot) fun heq => h (fields_injective heq)

/-! ## Sorting -/

theorem sort_perm (ts : List Tuple) : (sort ts).Perm ts := List.mergeSort_perm ts _

theorem pairwise_sort (ts : List Tuple) : (sort ts).Pairwise fun s t => ¬t.before s = true := by
  have htrans : ∀ s t u : Tuple, (!t.before s) = true → (!u.before t) = true →
      (!u.before s) = true := by
    intro s t u hst htu
    simp only [Bool.not_eq_true', ← Bool.not_eq_true, before_iff, not_lt] at hst htu ⊢
    exact hst.trans htu
  have htotal : ∀ s t : Tuple, ((!t.before s) || (!s.before t)) = true := by
    intro s t
    simp only [Bool.or_eq_true, Bool.not_eq_true', ← Bool.not_eq_true, before_iff, not_lt]
    exact le_total _ _
  exact (List.pairwise_mergeSort htrans htotal ts).imp fun h => by simpa using h

/-- A sorted list without repetition is strictly increasing. -/
theorem pairwise_sort_of_nodup (h : ts.Nodup) :
    (sort ts).Pairwise fun s t => s.before t = true := by
  have hnodup : (sort ts).Pairwise fun s t => s ≠ t := (sort_perm ts).nodup_iff.2 h
  exact hnodup.imp₂ (fun _ _ hne hnot => before_of_ne hne hnot) (pairwise_sort ts)

/-! ## Ascending lists -/

/-- Every tuple stands before those that follow it. -/
def Ascends (ts : List Tuple) : Prop := ts.Pairwise fun s t => s.before t = true

instance : Std.Irrefl fun s t : Tuple => s.before t = true where
  irrefl _ h := lt_irrefl _ (before_iff.1 h)

instance : Std.Antisymm fun s t : Tuple => s.before t = true where
  antisymm _ _ h h' := absurd (before_iff.1 h') (lt_asymm (before_iff.1 h))

/-- An ascending list is determined by its tuples. -/
theorem Ascends.eq_of_mem_iff {ts ts' : List Tuple} (h : Ascends ts) (h' : Ascends ts')
    (hmem : ∀ t, t ∈ ts ↔ t ∈ ts') : ts = ts' :=
  List.Pairwise.eq_of_mem_iff h h' hmem

theorem ascends_sort (h : ts.Nodup) : Ascends (sort ts) := pairwise_sort_of_nodup h

end Tuple
end TupleSync
