import TupleSync.Proofs.Sync.Meaning

/-!
# What a deletion leaves

**No tuple outlives the record it names, if the record has an id.** A deletion sweeps both directions at
once and by reference, so it also takes usersets of the record and tuples that the synchronizer never
wrote; nothing about the run before it matters.

Records without an id, that is with one that is not positive, are the exception. Their creation is
written down like any other, and so are affiliations with them, but a deletion without an id is passed
over: `creatorRole_outlives_deletion` is a tuple that stays.
-/

set_option autoImplicit false

namespace TupleSync
namespace Sync

theorem afterAll_append {σ : Type} [TupleStore σ] (before later : List Event) (s : σ) :
    afterAll (before ++ later) s = afterAll later (afterAll before s) := by
  induction before generalizing s with
  | nil => rfl
  | cons e before ih =>
    rw [List.cons_append, afterAll_cons, afterAll_cons]
    exact ih (after e s)

/-- A deletion with an id leaves no tuple that names the record. -/
theorem not_names_after_deleted {kind : EntityKind} {id : Int64} (hset : IsSet id) {s : MemoryStore}
    {t : Tuple} (h : t ∈ after (.deleted kind id) s) : ¬Names t kind id := by
  rcases mem_after_iff.1 h with ⟨f, hf, -⟩ | ⟨-, hkept⟩
  · exact absurd hf (not_states_deleted f)
  · exact fun hnames => hkept ⟨hset, hnames⟩

/-- A deletion without an id changes nothing, in whatever store. -/
theorem after_deleted_of_not_set {σ : Type} [TupleStore σ] {kind : EntityKind} {id : Int64}
    (h : ¬IsSet id) (s : σ) : after (.deleted kind id) s = s := by
  show afterEffects _ (effects (.deleted kind id)) s = s
  rw [effects, if_neg h]
  rfl

/-- **What is left right after a deletion.** In a run from any store, handled by the registered handlers,
a deletion with an id leaves no tuple whose subject or object refers to the record, so the listings by
either are empty; a deletion without an id leaves the store as it was. -/
theorem run_append_deleted (events : List Event) (kind : EntityKind) (id : Int64)
    (start : MemoryStore) :
    let before := ((dispatchAll handlers events).run start).2
    let s := ((dispatchAll handlers (events ++ [.deleted kind id])).run start).2
    (IsSet id →
      (∀ t ∈ s, ¬Names t kind id) ∧
        (TupleStore.list (Tuple.any.withObject kind.type.text (idText id))).run s = (.ok [], s) ∧
        (TupleStore.list (Tuple.any.withUser kind.type.text (idText id))).run s = (.ok [], s)) ∧
      (¬IsSet id → s = before) := by
  intro before s
  have hs : s = after (.deleted kind id) before := by
    show ((dispatchAll handlers (events ++ [.deleted kind id])).run start).2 =
      after (.deleted kind id) ((dispatchAll handlers events).run start).2
    rw [dispatchAll_handlers, dispatchAll_handlers]
    exact afterAll_append events [.deleted kind id] start
  constructor
  · intro hset
    have hnone : ∀ t ∈ s, ¬Names t kind id := fun t ht => not_names_after_deleted hset (hs ▸ ht)
    have hunmatched : ∀ p ∈ sweepPatterns kind id, ∀ t ∈ s, ¬p.Matches t :=
      fun p hp t ht hmatches => hnone t ht (exists_sweepPatterns_iff.1 ⟨p, hp, hmatches⟩)
    refine ⟨hnone, ?_, ?_⟩
    · exact MemoryStore.run_list_of_forall (hunmatched _ List.mem_cons_self)
    · exact MemoryStore.run_list_of_forall
        (hunmatched _ (List.mem_cons_of_mem _ (List.mem_singleton_self _)))
  · intro hset
    rw [hs, after_deleted_of_not_set hset]

/-- A service with an owning group and an owner is swept in both directions. -/
theorem run_append_deleted_service :
    let events := [.created (.service ⟨5, "checkout", 3, ⟨1, none, 1, none⟩⟩),
      .linked (.ownerOfService 5 9), .created (.supportGroup ⟨5, "", ⟨1, none, 1, none⟩⟩)]
    let s := ((dispatchAll handlers (events ++ [.deleted .service 5])).run MemoryStore.empty).2
    IsSet 5 ∧ (∀ t ∈ s, ¬Names t .service 5) ∧
      (TupleStore.list (Tuple.any.withObject "service" "5")).run s = (.ok [], s) := by
  intro events s
  have hset : IsSet 5 := by decide
  have h := (run_append_deleted events .service 5 MemoryStore.empty).1 hset
  exact ⟨hset, h.1, h.2.1⟩

/-- A user without an id. -/
def unnumberedUser : Entity := .user ⟨0, "", "", ⟨1, none, 1, none⟩⟩

/-- **The creator's role on a record without an id outlives the record's deletion.** -/
theorem creatorRole_outlives_deletion :
    let s := ((dispatchAll handlers [.created unnumberedUser, .deleted .user 0]).run
      MemoryStore.empty).2
    creatorRole unnumberedUser ∈ s ∧ Names (creatorRole unnumberedUser) .user 0 := by
  intro s
  have hs : s = after (.deleted .user 0) (after (.created unnumberedUser) MemoryStore.empty) := by
    show ((dispatchAll handlers [.created unnumberedUser, .deleted .user 0]).run
      MemoryStore.empty).2 = _
    rw [dispatchAll_handlers]
    rfl
  have hfact : creatorRole unnumberedUser = (Fact.made 1 .user 0).tuple := rfl
  constructor
  · rw [hs, after_deleted_of_not_set (by decide), hfact, tuple_mem_after_iff]
    exact Or.inl ⟨unnumberedUser, rfl, rfl, rfl, rfl⟩
  · rw [hfact, names_tuple_iff]
    exact List.mem_singleton_self _

end Sync
end TupleSync
