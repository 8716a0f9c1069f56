import Mathlib.Data.List.Nodup
import TupleSync.Proofs.Store.Memory
import TupleSync.Proofs.Store.Observed
import TupleSync.Proofs.Store.Operation
import TupleSync.Proofs.Tuple.Matching
import TupleSync.Proofs.Tuple.Order

/-!
# What a store in memory keeps

**Whatever is asked of a store in memory, it holds complete tuples and each of them once, and what it
refuses it does not do in part.** A use is refused for what is asked and never for what is stored, so the
error and what is left are read off the use: `Use.fault?` with `Use.undone` for one that fails, `Use.done`
for one that does not. The one use that can fail half way is a replacement, which then has removed and not
written.
-/

set_option autoImplicit false

namespace TupleSync

/-- Anything that a store can be asked. -/
inductive Use where
  | operation (op : Operation)
  | check (t : Tuple)
  | accessible (t : Tuple)
  deriving Repr, DecidableEq

inductive Answer where
  | tuples (ts : List Tuple)
  | allowed (b : Bool)
  | resources (rs : List Resource)

open MemoryStore (incomplete? incomplete?_eq_none_iff incomplete?_cons)

namespace Use

section AnyStore

variable {σ : Type} [TupleStore σ]

def perform : Use → StoreM σ Answer
  | operation op => do return .tuples (← op.perform)
  | check t => do return .allowed (← TupleStore.check t)
  | accessible t => do return .resources (← TupleStore.accessible t)

/-- The store after uses in order, whether or not they succeed. -/
def afterAll (uses : List Use) (s : σ) : σ := uses.foldl (fun s u => (u.perform.run s).2) s

end AnyStore

/-! ## What is refused, and what is left -/

/-- The fault of patterns one of which is open in every field. -/
def openPattern? (patterns : List Tuple) : Option StoreError :=
  if Tuple.any ∈ patterns then some .openPattern else none

/-- Why a store in memory refuses the use, if it does. -/
def fault? : Use → Option StoreError
  | operation (.add t) => incomplete? [t]
  | operation (.addBulk ts) => incomplete? ts
  | operation (.remove t) => openPattern? [t]
  | operation (.removeBulk patterns) => openPattern? patterns
  | operation .removeAll => none
  | operation (.replace stale fresh) => (openPattern? [stale]).or (incomplete? [fresh])
  | operation (.list _) => none
  | check t => incomplete? [t]
  | accessible t => if MemoryStore.IsOpenListing t then some (.openListing t) else none

/-- What a use that is not refused leaves of a store in memory. -/
def done (s : MemoryStore) : Use → MemoryStore
  | operation (.add t) => s.insert t
  | operation (.addBulk ts) => ts.foldl MemoryStore.insert s
  | operation (.remove t) =>
    if t.IsComplete then s.eraseWhere fun t' => t' == t else s.eraseMatching [t]
  | operation (.removeBulk patterns) => s.eraseMatching patterns
  | operation .removeAll => s.eraseWhere fun _ => true
  | operation (.replace stale fresh) => (s.eraseMatching [stale]).insert fresh
  | _ => s

/-- What a use that is refused leaves. Only a replacement whose pattern is not refused leaves less than
there was. -/
def undone (s : MemoryStore) : Use → MemoryStore
  | operation (.replace stale _) => if stale = Tuple.any then s else s.eraseMatching [stale]
  | _ => s

/-! ## Every use -/

section Faults

variable {ts : List Tuple} {e : StoreError}

theorem openPattern?_eq_none_iff : openPattern? ts = none ↔ Tuple.any ∉ ts := by
  simp [openPattern?]

theorem openPattern?_eq_some_iff : openPattern? ts = some e ↔ Tuple.any ∈ ts ∧ .openPattern = e := by
  simp [openPattern?]

theorem openPattern?_singleton_of_ne {t : Tuple} (h : t ≠ Tuple.any) : openPattern? [t] = none := by
  simpa [openPattern?] using h.symm

end Faults

section Runs

variable {σ α : Type} {x : StoreM σ Unit} {s s' : σ} {e : StoreError}

/-- A use that is one call answers as the call does. -/
theorem run_call_of_ok (h : x.run s = (.ok (), s')) :
    ((do x; return []) >>= fun ts => pure (.tuples ts) : StoreM σ Answer).run s =
      (.ok (.tuples []), s') := by
  have hcall : (do x; return [] : StoreM σ (List Tuple)).run s = (.ok [], s') :=
    storeM_bind_of_ok h
  exact storeM_bind_of_ok hcall

theorem run_call_of_error (h : x.run s = (.error e, s')) :
    ((do x; return []) >>= fun ts => pure (.tuples ts) : StoreM σ Answer).run s =
      (.error e, s') := by
  have hcall : (do x; return [] : StoreM σ (List Tuple)).run s = (.error e, s') :=
    storeM_bind_of_error h
  exact storeM_bind_of_error hcall

end Runs

section Replace

variable {σ : Type} [TupleStore σ] {stale fresh : Tuple} {s s' : σ} {outcome : Replaced}

/-- A replacement that did not come to its end answers with the error it ended with. -/
theorem run_replace_of_error {e : StoreError}
    (h : (TupleStore.replace stale fresh : StateM σ Replaced) s = (outcome, s'))
    (he : outcome.error? = some e) :
    (operation (.replace stale fresh)).perform.run s = (.error e, s') := by
  have hrun : (Operation.replace stale fresh).perform.run s = (.error e, s') := by
    refine (storeM_bind_of_ok (storeM_liftM_of_eq h)).trans ?_
    rw [he]
    rfl
  exact storeM_bind_of_error hrun

theorem run_replace_of_done
    (h : (TupleStore.replace stale fresh : StateM σ Replaced) s = (.done, s')) :
    (operation (.replace stale fresh)).perform.run s = (.ok (.tuples []), s') := by
  have hrun : (Operation.replace stale fresh).perform.run s = (.ok [], s') :=
    storeM_bind_of_ok (storeM_liftM_of_eq h)
  exact storeM_bind_of_ok hrun

end Replace

variable {s : MemoryStore} {u : Use} {e : StoreError}

/-- **A use that is at fault fails with its fault.** -/
theorem perform_of_fault (h : u.fault? = some e) (s : MemoryStore) :
    u.perform.run s = (.error e, u.undone s) := by
  cases u with
  | operation op =>
    cases op with
    | add t =>
      rw [fault?, incomplete?_cons] at h
      split at h
      · cases h
      · next ht =>
        cases h
        exact run_call_of_error (MemoryStore.run_add_of_not_complete ht s)
    | addBulk ts =>
      exact run_call_of_error
        (MemoryStore.run_addBulk_of_error (MemoryStore.requireAllComplete_of_incomplete? h) s)
    | remove t =>
      -- the pattern that is open in every field is no complete tuple, so it is removed by as a pattern
      obtain ⟨hany, rfl⟩ := openPattern?_eq_some_iff.1 h
      obtain rfl := List.mem_singleton.1 hany
      refine run_call_of_error ?_
      rw [MemoryStore.run_remove_of_not_complete Tuple.not_isComplete_any]
      exact MemoryStore.run_removeBulk_of_mem hany s
    | removeBulk patterns =>
      obtain ⟨hany, rfl⟩ := openPattern?_eq_some_iff.1 h
      exact run_call_of_error (MemoryStore.run_removeBulk_of_mem hany s)
    | removeAll => cases h
    | replace stale fresh =>
      by_cases hs : stale = Tuple.any
      · subst hs
        cases h
        exact run_replace_of_error (MemoryStore.replace_apply_of_open fresh s) rfl
      · rw [fault?, openPattern?_singleton_of_ne hs, Option.none_or, incomplete?_cons] at h
        split at h
        · cases h
        · next hf =>
          cases h
          rw [undone, if_neg hs]
          exact run_replace_of_error (MemoryStore.replace_apply_of_not_complete hs hf s) rfl
    | list pattern => cases h
  | check t =>
    rw [fault?, incomplete?_cons] at h
    split at h
    · cases h
    · next ht =>
      cases h
      exact storeM_bind_of_error (MemoryStore.run_check_of_not_complete ht s)
  | accessible t =>
    rw [fault?] at h
    split at h
    · next ht =>
      cases h
      exact storeM_bind_of_error (MemoryStore.run_accessible_of_open ht s)
    · cases h

/-- **A use that is not at fault succeeds.** -/
theorem perform_of_no_fault (h : u.fault? = none) (s : MemoryStore) :
    ∃ a, u.perform.run s = (.ok a, u.done s) := by
  cases u with
  | operation op =>
    cases op with
    | add t =>
      have ht : t.IsComplete := incomplete?_eq_none_iff.1 h t List.mem_cons_self
      exact ⟨_, run_call_of_ok (MemoryStore.run_add_of_complete ht s)⟩
    | addBulk ts =>
      exact ⟨_, run_call_of_ok (MemoryStore.run_addBulk (incomplete?_eq_none_iff.1 h) s)⟩
    | remove t =>
      have hopen := openPattern?_eq_none_iff.1 h
      refine ⟨_, run_call_of_ok ?_⟩
      rw [done]
      split
      · next ht => exact MemoryStore.run_remove_of_complete ht s
      · next ht =>
        rw [MemoryStore.run_remove_of_not_complete ht]
        exact MemoryStore.run_removeBulk hopen s
    | removeBulk patterns =>
      exact ⟨_, run_call_of_ok (MemoryStore.run_removeBulk (openPattern?_eq_none_iff.1 h) s)⟩
    | removeAll => exact ⟨_, run_call_of_ok (MemoryStore.run_removeAll s)⟩
    | replace stale fresh =>
      obtain ⟨hstale, hfresh⟩ := Option.or_eq_none_iff.1 h
      have hs : stale ≠ Tuple.any := fun heq =>
        openPattern?_eq_none_iff.1 hstale (heq ▸ List.mem_cons_self)
      have hf : fresh.IsComplete := incomplete?_eq_none_iff.1 hfresh fresh List.mem_cons_self
      exact ⟨_, run_replace_of_done (MemoryStore.replace_apply hs hf s)⟩
    | list pattern => exact ⟨_, storeM_bind_of_ok (MemoryStore.run_list pattern s)⟩
  | check t =>
    have ht : t.IsComplete := incomplete?_eq_none_iff.1 h t List.mem_cons_self
    exact ⟨_, storeM_bind_of_ok (MemoryStore.run_check_of_complete ht s)⟩
  | accessible t =>
    rw [fault?] at h
    split at h
    · cases h
    · next ht => exact ⟨_, storeM_bind_of_ok (MemoryStore.run_accessible ht s)⟩

/-! ## What every store holds -/

theorem mem_of_mem_undone {t : Tuple} (h : t ∈ u.undone s) : t ∈ s := by
  unfold undone at h
  split at h
  · split at h
    · exact h
    · exact (MemoryStore.mem_eraseMatching.1 h).1
  · exact h

/-- A use that is not at fault brings in complete tuples only. -/
theorem mem_or_isComplete_of_mem_done {t : Tuple} (hfault : u.fault? = none) (h : t ∈ u.done s) :
    t ∈ s ∨ t.IsComplete := by
  cases u with
  | operation op =>
    cases op with
    | add t' =>
      rcases MemoryStore.mem_insert.1 h with ht | rfl
      · exact .inl ht
      · exact .inr (incomplete?_eq_none_iff.1 hfault t List.mem_cons_self)
    | addBulk ts =>
      rcases MemoryStore.mem_foldl_insert.1 h with ht | ht
      · exact .inl ht
      · exact .inr (incomplete?_eq_none_iff.1 hfault t ht)
    | remove t' =>
      rw [done] at h
      split at h
      · exact .inl (MemoryStore.mem_eraseWhere.1 h).1
      · exact .inl (MemoryStore.mem_eraseMatching.1 h).1
    | removeBulk patterns => exact .inl (MemoryStore.mem_eraseMatching.1 h).1
    | removeAll => exact .inl (MemoryStore.mem_eraseWhere.1 h).1
    | replace stale fresh =>
      obtain ⟨-, hfresh⟩ := Option.or_eq_none_iff.1 hfault
      rcases MemoryStore.mem_insert.1 h with ht | rfl
      · exact .inl (MemoryStore.mem_eraseMatching.1 ht).1
      · exact .inr (incomplete?_eq_none_iff.1 hfresh t List.mem_cons_self)
    | list pattern => exact .inl h
  | check t' => exact .inl h
  | accessible t' => exact .inl h

theorem isComplete_perform (hs : ∀ t ∈ s, t.IsComplete) (u : Use) :
    ∀ t ∈ (u.perform.run s).2, t.IsComplete := by
  intro t ht
  rcases hfault : u.fault? with _ | e
  · obtain ⟨a, hrun⟩ := perform_of_no_fault hfault s
    rw [hrun] at ht
    exact (mem_or_isComplete_of_mem_done hfault ht).elim (hs t) id
  · rw [perform_of_fault hfault] at ht
    exact hs t (mem_of_mem_undone ht)

theorem isComplete_afterAll (hs : ∀ t ∈ s, t.IsComplete) (uses : List Use) :
    ∀ t ∈ afterAll uses s, t.IsComplete := by
  induction uses generalizing s with
  | nil => exact hs
  | cons u rest ih => exact ih (isComplete_perform hs u)

theorem isComplete_of_mem_afterAll (uses : List Use) :
    ∀ t ∈ afterAll uses MemoryStore.empty, t.IsComplete := by
  have hempty : ∀ t ∈ MemoryStore.empty, t.IsComplete := fun t ht =>
    absurd ht (MemoryStore.not_mem_empty t)
  exact isComplete_afterAll hempty uses

end Use

/-- A store that holds complete tuples, each of them once, and shows them in order. -/
structure MemoryStore.IsOrderly (s : MemoryStore) : Prop where
  complete : ∀ t ∈ s, t.IsComplete
  once : ∀ t ∈ s, s.tuples.count t = 1
  mem_snapshot : ∀ t, t ∈ s.snapshot ↔ t ∈ s
  increasing : s.snapshot.Pairwise fun t u => t.before u = true
  length_snapshot : s.snapshot.length = s.tuples.length

theorem MemoryStore.isOrderly {s : MemoryStore} (h : ∀ t ∈ s, t.IsComplete) : s.IsOrderly where
  complete := h
  once _ ht := List.count_eq_one_of_mem s.nodup ht
  mem_snapshot _ := (Tuple.sort_perm s.tuples).mem_iff
  increasing := Tuple.pairwise_sort_of_nodup s.nodup
  length_snapshot := (Tuple.sort_perm s.tuples).length_eq

/-! ## Which calls are made -/

namespace Use

/-- A replacement that is made by two calls is answered by them, one after the other. -/
theorem perform_replace {σ : Type} [TupleStore σ] (stale fresh : Tuple)
    (h : (TupleStore.replace stale fresh : StateM σ Replaced) =
      replaceByTwoCalls TupleStore.removeBulk TupleStore.add stale fresh) :
    (operation (.replace stale fresh)).perform = (do
      (do
        TupleStore.removeBulk [stale]
        TupleStore.add fresh)
      return [] : StoreM σ (List Tuple)) >>= fun ts => pure (.tuples ts) := by
  have hcalls :=
    replace_eq_bind (TupleStore.removeBulk : _ → StoreM σ Unit) TupleStore.add stale fresh
  rw [← h] at hcalls
  rw [perform, Operation.perform, hcalls]
  simp only [bind_assoc]

/-- A use of an observed store is the use of the store behind it. -/
theorem shows_perform (u : Use) :
    Observed.Shows u.perform (u.perform : StoreM MemoryStore Answer) := by
  have hcall : ∀ {x : StoreM (Observed MemoryStore) Unit} {y : StoreM MemoryStore Unit},
      Observed.Shows x y → Observed.Shows (do x; return ([] : List Tuple)) (do y; return []) :=
    fun hxy => hxy.bind fun _ => Observed.shows_pure _
  cases u with
  | operation op =>
    cases op with
    | replace stale fresh =>
      rw [perform_replace stale fresh rfl, perform_replace stale fresh rfl]
      refine (hcall ?_).bind fun _ => Observed.shows_pure _
      exact (Observed.shows_call _ _).bind fun _ => Observed.shows_call _ _
    | list pattern => exact (Observed.shows_call _ _).bind fun _ => Observed.shows_pure _
    | _ => exact (hcall (Observed.shows_call _ _)).bind fun _ => Observed.shows_pure _
  | check t => exact (Observed.shows_call _ _).bind fun _ => Observed.shows_pure _
  | accessible t => exact (Observed.shows_call _ _).bind fun _ => Observed.shows_pure _

variable {s : MemoryStore} {stale fresh : Tuple}

/-- A replacement whose pattern is refused makes one call. -/
theorem run_observed_replace_of_open (fresh : Tuple) (s : MemoryStore) :
    (operation (.replace Tuple.any fresh)).perform.run (⟨s, [], []⟩ : Observed MemoryStore) =
      (.error .openPattern, ⟨s, [.removeBulk [Tuple.any]], []⟩) := by
  have hremove : (TupleStore.removeBulk [Tuple.any] : StoreM (Observed MemoryStore) Unit).run
      ⟨s, [], []⟩ = (.error .openPattern, ⟨s, [.removeBulk [Tuple.any]], []⟩) := by
    refine (Observed.run_call_of_nil _ _ s []).trans ?_
    rw [MemoryStore.run_removeBulk_of_mem List.mem_cons_self]
    rfl
  exact run_replace_of_error (replaceByTwoCalls_of_removeFailed hremove) rfl

/-- One whose new tuple is refused has made its first call before. -/
theorem run_observed_replace_of_not_complete (hs : stale ≠ Tuple.any) (hf : ¬fresh.IsComplete)
    (s : MemoryStore) :
    (operation (.replace stale fresh)).perform.run (⟨s, [], []⟩ : Observed MemoryStore) =
      (.error (.incompleteTuple fresh),
        ⟨s.eraseMatching [stale], [.removeBulk [stale], .add fresh], []⟩) := by
  have hremove : (TupleStore.removeBulk [stale] : StoreM (Observed MemoryStore) Unit).run
      ⟨s, [], []⟩ = (.ok (), ⟨s.eraseMatching [stale], [.removeBulk [stale]], []⟩) := by
    refine (Observed.run_call_of_nil _ _ s []).trans ?_
    rw [MemoryStore.run_removeBulk_singleton hs]
    rfl
  have hadd : (TupleStore.add fresh : StoreM (Observed MemoryStore) Unit).run
      ⟨s.eraseMatching [stale], [.removeBulk [stale]], []⟩ =
      (.error (.incompleteTuple fresh),
        ⟨s.eraseMatching [stale], [.removeBulk [stale], .add fresh], []⟩) := by
    refine (Observed.run_call_of_nil _ _ _ _).trans ?_
    rw [MemoryStore.run_add_of_not_complete hf]
    rfl
  exact run_replace_of_error (replaceByTwoCalls_of_addFailed hremove hadd) rfl

/-! ## Runs -/

/-- How a use of `s` ends that makes these calls: with an answer and all that it was to do, or with an
error and none of it. A replacement alone may fail with its first half done. -/
def Ends (s : MemoryStore) (u : Use) (calls : List StoreCall) :
    Except StoreError Answer × MemoryStore → Prop
  | (.ok _, s') => u.fault? = none ∧ s' = u.done s
  | (.error e, s') =>
    u.fault? = some e ∧
    match u with
    | operation (.replace stale fresh) =>
      (stale = Tuple.any ∧ e = .openPattern ∧ s' = s ∧ calls = [.removeBulk [stale]]) ∨
      (stale ≠ Tuple.any ∧ ¬fresh.IsComplete ∧ e = .incompleteTuple fresh ∧
        (∀ t, t ∈ s' ↔ t ∈ s ∧ ¬stale.Matches t) ∧
        calls = [.removeBulk [stale], .add fresh])
    | _ => s' = s

/-- What a replacement that fails leaves is told apart by the calls it has made. -/
theorem ends_replace {e : StoreError} {calls : List StoreCall}
    (hfault : (operation (.replace stale fresh)).fault? = some e)
    (hcalls : (operation (.replace stale fresh)).perform.run (⟨s, [], []⟩ : Observed MemoryStore) =
      (.error e, ⟨undone s (operation (.replace stale fresh)), calls, []⟩)) :
    (operation (.replace stale fresh)).Ends s calls
      (.error e, undone s (operation (.replace stale fresh))) := by
  refine ⟨hfault, ?_⟩
  by_cases hs : stale = Tuple.any
  · subst hs
    rw [run_observed_replace_of_open] at hcalls
    cases hcalls
    exact .inl ⟨rfl, rfl, rfl, rfl⟩
  · have hf : ¬fresh.IsComplete := by
      intro hf
      rw [fault?, openPattern?_singleton_of_ne hs, Option.none_or, incomplete?_cons,
        if_pos hf] at hfault
      cases hfault
    have hleft : undone s (operation (.replace stale fresh)) = s.eraseMatching [stale] := if_neg hs
    rw [run_observed_replace_of_not_complete hs hf, hleft] at hcalls
    have he : StoreError.incompleteTuple fresh = e := Except.error.inj (congrArg Prod.fst hcalls)
    have hmade : _ = calls := congrArg (fun r => r.2.calls) hcalls
    refine .inr ⟨hs, hf, he.symm, fun t => ?_, hmade.symm⟩
    rw [hleft, MemoryStore.mem_eraseMatching, List.forall_mem_singleton]

/-- **What is refused is not done in part.** Whatever a store in memory has been used for, it holds
complete tuples, each of them once, and shows them in strict order. Any further use fails for what is
asked and leaves the store as it was, unless it is a replacement that has removed already. -/
theorem afterAll_orderly_and_atomic (uses : List Use) :
    let s := afterAll uses MemoryStore.empty
    s.IsOrderly ∧
    ∀ u : Use, ∃ calls,
      u.perform.run (⟨s, [], []⟩ : Observed MemoryStore) =
        ((u.perform.run s).1, ⟨(u.perform.run s).2, calls, []⟩) ∧
      u.Ends s calls (u.perform.run s) := by
  intro s
  refine ⟨MemoryStore.isOrderly (isComplete_of_mem_afterAll uses), fun u => ?_⟩
  obtain ⟨calls, hcalls⟩ := shows_perform u s []
  refine ⟨calls, hcalls, ?_⟩
  rcases hfault : u.fault? with _ | e
  · obtain ⟨a, hrun⟩ := perform_of_no_fault hfault s
    rw [hrun]
    exact ⟨hfault, rfl⟩
  · have hrun := perform_of_fault hfault s
    rw [hrun] at hcalls ⊢
    match u with
    | operation (.replace stale fresh) => exact ends_replace hfault hcalls
    | operation (.add _) | operation (.addBulk _) | operation (.remove _)
    | operation (.removeBulk _) | operation .removeAll | operation (.list _)
    | check _ | accessible _ => exact ⟨hfault, rfl⟩

end Use

end TupleSync
