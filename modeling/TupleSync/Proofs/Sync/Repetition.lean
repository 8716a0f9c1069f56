import TupleSync.Proofs.Sync.Exactness

/-!
# Events that come twice

**An event that comes again right away finds its work done.** What it writes it writes again, and what it
removes is gone, but for the tuples that it has written itself. An update with a parent is the only kind of
event that both writes and removes one tuple: it clears the link away that it is about to make, the second
time its own, and puts it back.

Nothing is asked of the store. What an event leaves is decided tuple by tuple, by the event and by whether
the tuple was there, so a store that holds the same tuples comes out with the same tuples.
-/

set_option autoImplicit false

namespace TupleSync
namespace Sync

variable {s s' : MemoryStore} {t : Tuple}

/-- Two handlings are one: a tuple that the event does not write stays only if the event spares it, and the
event spares the same tuples both times. -/
theorem mem_after_after_iff {e : Event} : t ∈ after e (after e s) ↔ t ∈ after e s := by
  rw [mem_after_iff (s := after e s), mem_after_iff]
  by_cases hwritten : ∃ f, States e f ∧ t = f.tuple
  · simp only [hwritten, true_or]
  · simp only [hwritten, false_or, and_assoc, and_self]

theorem mem_after_congr {e : Event} (h : ∀ t, t ∈ s ↔ t ∈ s') : t ∈ after e s ↔ t ∈ after e s' := by
  rw [mem_after_iff, mem_after_iff, h]

/-- A run does not tell stores apart that hold the same tuples. -/
theorem mem_afterAll_congr {events : List Event} (h : ∀ t, t ∈ s ↔ t ∈ s') :
    t ∈ afterAll events s ↔ t ∈ afterAll events s' := by
  induction events generalizing s s' with
  | nil => exact h t
  | cons e events ih => exact ih fun u => mem_after_congr h

theorem mem_afterAll_again_iff {e : Event} {before later : List Event} :
    t ∈ afterAll (before ++ e :: e :: later) s ↔ t ∈ afterAll (before ++ e :: later) s := by
  rw [afterAll_append, afterAll_append, afterAll_cons, afterAll_cons, afterAll_cons]
  exact mem_afterAll_congr fun u => mem_after_after_iff

/-- Only the link that an update makes is both written and removed by one event. -/
theorem exists_link_of_states_of_removes {e : Event} {f : Fact} (hs : States e f)
    (hr : Removes e f.tuple) :
    ∃ r k parent, e = .updated r ∧ f = .link ⟨k, r.id, parent⟩ ∧ ForeignKey r k parent := by
  cases e with
  | created r => exact hr.elim
  | linked m => exact hr.elim
  | deleted kind id => exact absurd hs (not_states_deleted f)
  | unlinked m => exact absurd hs (not_states_unlinked f)
  | updated r =>
    cases f with
    | made c kind id =>
      obtain ⟨_, he, -⟩ := hs
      cases he
    | affiliation m => cases hs
    | link l =>
      obtain ⟨-, r', he | he, hchild, hkey⟩ := hs
      · cases he
      · cases he
        exact ⟨r, l.kind, l.parent, rfl, hchild ▸ rfl, hkey⟩

/-- **Handling an event twice is handling it once.** Whatever a store holds, the registered handlers leave
the same tuples in it, in the same order of listing, when an event comes twice in a row as when it comes
once: those that it states, and of those that were there the ones that it does not remove. The two meet
only in the links of an update. So an event of a run may come again right after itself, and the run ends
as if it had not. -/
theorem handled_twice_like_once (e : Event) (s : MemoryStore) :
    let once := ((dispatch handlers e).run s).2
    let twice := ((dispatch handlers e).run once).2
    (∀ t, t ∈ twice ↔ t ∈ once) ∧ twice.snapshot = once.snapshot ∧
      (∀ t, t ∈ once ↔ (∃ f, States e f ∧ t = f.tuple) ∨ (t ∈ s ∧ ¬Removes e t)) ∧
      (∀ f, States e f → Removes e f.tuple →
        ∃ r k parent, e = .updated r ∧ f = .link ⟨k, r.id, parent⟩ ∧ ForeignKey r k parent) ∧
      ∀ before later t, t ∈ ((dispatchAll handlers (before ++ e :: e :: later)).run s).2 ↔
        t ∈ ((dispatchAll handlers (before ++ e :: later)).run s).2 := by
  intro once twice
  have honce : once = after e s := after_dispatch e s
  have htwice : twice = after e once := after_dispatch e once
  have hsame : ∀ t, t ∈ twice ↔ t ∈ once := by
    intro t
    rw [htwice, honce]
    exact mem_after_after_iff
  refine ⟨hsame, ?_, ?_, fun f => exists_link_of_states_of_removes, ?_⟩
  · apply (MemoryStore.ascends_snapshot twice).eq_of_mem_iff (MemoryStore.ascends_snapshot once)
    intro t
    rw [MemoryStore.mem_snapshot, MemoryStore.mem_snapshot, hsame]
  · intro t
    rw [honce]
    exact mem_after_iff
  · intro before later t
    rw [dispatchAll_handlers, dispatchAll_handlers]
    exact mem_afterAll_again_iff

end Sync
end TupleSync
