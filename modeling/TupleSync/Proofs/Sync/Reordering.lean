import TupleSync.Proofs.Sync.Meaning

/-!
# Runs that differ in the order of unrelated events

**Two runs leave the same tuples if they have the same events and keep those in order that speak of a
common record.** A bus that gives no order across its subjects may still rearrange everything else.

The last word on a fact is all that counts, and it is a matter of two kinds of events only: those that
state the fact and those that retract it. `related_of_retracts` is why a rearrangement cannot change it:
whoever retracts a fact speaks of one of its records, and whoever states it speaks of all of them. Two
events that only retract need not be related, and need not keep their order.
-/

set_option autoImplicit false

namespace TupleSync
namespace Sync

/-! ## What an event speaks of -/

/-- The records that the foreign keys of a record name. A match's issue and user are not among them: no
tuple is made from them, and to mention less is to be bound to fewer events. -/
def parents (e : Entity) : List (EntityKind × Int64) :=
  ((links e).filter fun l => IsSet l.parent).map fun l => (l.kind.parent, l.parent)

/-- The records that an event is about; who made a record is not one of them. -/
def mentions : Event → List (EntityKind × Int64)
  | .created e => (e.kind, e.id) :: parents e
  | .updated e => (e.kind, e.id) :: parents e
  | .deleted kind id => [(kind, id)]
  | .linked m => affiliationEnds m
  | .unlinked m => affiliationEnds m

/-- Both events are about some record. -/
def Related (d e : Event) : Prop := ∃ r ∈ mentions d, r ∈ mentions e

instance (d e : Event) : Decidable (Related d e) :=
  inferInstanceAs (Decidable (∃ r ∈ mentions d, r ∈ mentions e))

theorem Related.symm {d e : Event} (h : Related d e) : Related e d := by
  obtain ⟨r, hd, he⟩ := h
  exact ⟨r, he, hd⟩

/-- **The parents of a record are what its foreign keys name.** -/
theorem mem_parents_iff {e : Entity} {r : EntityKind × Int64} :
    r ∈ parents e ↔ ∃ k parent, ForeignKey e k parent ∧ IsSet parent ∧ r = (k.parent, parent) := by
  have hparents : r ∈ parents e ↔
      ∃ l ∈ links e, IsSet l.parent ∧ r = (l.kind.parent, l.parent) := by
    simp [parents, and_assoc, @eq_comm _ r]
  rw [hparents]
  exact exists_mem_links_iff_foreignKey (P := fun k _ parent => IsSet parent ∧ r = (k.parent, parent))

/-- **Who states a fact speaks of all its records.** -/
theorem mem_mentions_of_states {e : Event} {f : Fact} (h : States e f) {r : EntityKind × Int64}
    (hr : r ∈ f.ends) : r ∈ mentions e := by
  cases f with
  | made creator kind id =>
    obtain ⟨x, rfl, rfl, rfl, -⟩ := h
    rw [Fact.ends, List.mem_singleton] at hr
    exact hr ▸ List.mem_cons_self
  | link l =>
    obtain ⟨hset, x, hx, hchild, hkey⟩ := h
    have hends : r = (x.kind, x.id) ∨ r ∈ parents x := by
      rw [Fact.ends, List.mem_cons, List.mem_singleton, hkey.child_eq, ← hchild] at hr
      exact hr.imp_right fun hparent => mem_parents_iff.2 ⟨_, _, hkey, hset, hparent⟩
    rcases hx with rfl | rfl
    · exact List.mem_cons.2 hends
    · exact List.mem_cons.2 hends
  | affiliation m =>
    obtain rfl : e = .linked m := h
    exact hr

/-- **Who retracts a fact speaks of one of its records.** -/
theorem exists_mem_mentions_of_retracts {e : Event} {f : Fact} (h : Retracts e f) :
    ∃ r ∈ f.ends, r ∈ mentions e := by
  rcases retracts_cases h with ⟨kind, id, rfl, -, hend⟩ | ⟨l, x, parent, rfl, rfl, hchild, hkey, -⟩ |
    ⟨m, rfl, rfl⟩
  · exact ⟨(kind, id), hend, List.mem_singleton_self _⟩
  · refine ⟨(l.kind.child, l.child), List.mem_cons_self, ?_⟩
    rw [hkey.child_eq, ← hchild]
    exact List.mem_cons_self
  · cases m <;> exact ⟨_, List.mem_cons_self, List.mem_cons_self⟩

theorem related_of_retracts {e d : Event} {f : Fact} (hs : States e f) (hr : Retracts d f) :
    Related e d := by
  obtain ⟨r, hend, hd⟩ := exists_mem_mentions_of_retracts hr
  exact ⟨r, mem_mentions_of_states hs hend, hd⟩

/-! ## Rearrangements -/

/-- Events that carry their place in another run, related ones in ascending order of their places. -/
def Ascending (placed : List (Event × Nat)) : Prop :=
  placed.Pairwise fun a b => Related a.1 b.1 → a.2 < b.2

instance (placed : List (Event × Nat)) : Decidable (Ascending placed) :=
  inferInstanceAs (Decidable (placed.Pairwise _))

/-- The second run is a permutation of the first one that keeps related events in their order. The
places tell events apart that occur more than once. -/
def Rearranges (events events' : List Event) : Prop :=
  ∃ placed, List.Perm placed events.zipIdx ∧ placed.map Prod.fst = events' ∧ Ascending placed

theorem ascending_zipIdx (events : List Event) : Ascending events.zipIdx := by
  have hlt : events.zipIdx.Pairwise fun a b => a.2 < b.2 := by
    apply List.pairwise_map.1
    rw [List.zipIdx_map_snd]
    exact List.pairwise_lt_range'
  exact hlt.imp fun {a b} (h : a.2 < b.2) _ => h

section

variable {affirms denies : Event → Prop} {placed : List (Event × Nat)}

/-- Where affirmations and denials are related, the last word is told from the places: it is an
affirmation that no denial has a later place than. -/
theorem lastWord_iff_of_ascending (hrel : ∀ a d, affirms a → denies d → Related a d)
    (h : Ascending placed) :
    LastWord affirms denies (placed.map Prod.fst) ↔
      ∃ a ∈ placed, affirms a.1 ∧ ∀ d ∈ placed, denies d.1 → d.2 ≤ a.2 := by
  constructor
  · intro hlast
    obtain ⟨before, e, rest, hsplit, haffirms, hrest⟩ := hlast
    obtain ⟨before, after, rfl, rfl, hafter⟩ := List.map_eq_append_iff.1 hsplit
    obtain ⟨a, rest, rfl, rfl, rfl⟩ := List.map_eq_cons_iff.1 hafter
    obtain ⟨-, -, hbefore⟩ := List.pairwise_append.1 h
    refine ⟨a, by simp, haffirms, fun d hd hdenies => ?_⟩
    rcases List.mem_append.1 hd with hd | hd
    · exact Nat.le_of_lt (hbefore d hd a List.mem_cons_self (hrel _ _ haffirms hdenies).symm)
    · rcases List.mem_cons.1 hd with rfl | hd
      · exact Nat.le_refl _
      · exact absurd hdenies (hrest d.1 (List.mem_map_of_mem hd))
  · intro hex
    obtain ⟨a, ha, haffirms, hlatest⟩ := hex
    obtain ⟨before, rest, rfl⟩ := List.append_of_mem ha
    refine ⟨before.map Prod.fst, a.1, rest.map Prod.fst, by simp, haffirms, ?_⟩
    intro e he hdenies
    obtain ⟨d, hd, rfl⟩ := List.mem_map.1 he
    -- a later denial would have a later place, and none has
    obtain ⟨-, htail, -⟩ := List.pairwise_append.1 h
    have hlt := (List.pairwise_cons.1 htail).1 d hd (hrel _ _ haffirms hdenies)
    have hle := hlatest d (by simp [hd]) hdenies
    exact absurd hlt (Nat.not_lt.2 hle)

variable {events events' : List Event}

theorem Rearranges.perm (h : Rearranges events events') : events'.Perm events := by
  obtain ⟨placed, hperm, rfl, -⟩ := h
  have hfst := hperm.map Prod.fst
  rwa [List.zipIdx_map_fst] at hfst

/-- **A rearrangement keeps every last word**, if the denials are related to what they deny. -/
theorem Rearranges.lastWord_iff (h : Rearranges events events')
    (hrel : ∀ a d, affirms a → denies d → Related a d) :
    LastWord affirms denies events ↔ LastWord affirms denies events' := by
  obtain ⟨placed, hperm, rfl, hascending⟩ := h
  have hfirst := lastWord_iff_of_ascending hrel (ascending_zipIdx events)
  rw [List.zipIdx_map_fst] at hfirst
  rw [hfirst, lastWord_iff_of_ascending hrel hascending]
  simp only [hperm.mem_iff]

end

/-! ## What rearranged runs leave -/

/-- A tuple that states no fact is left alone by all but those that remove it. -/
theorem mem_afterAll_iff_of_no_fact {t : Tuple} (h : ∀ f : Fact, t ≠ f.tuple) (events : List Event)
    (s : MemoryStore) : t ∈ afterAll events s ↔ t ∈ s ∧ ∀ e ∈ events, ¬Removes e t := by
  have hstate : ∀ e : Event, ¬∃ f, States e f ∧ t = f.tuple := by
    intro e hex
    obtain ⟨f, -, hf⟩ := hex
    exact h f hf
  induction events generalizing s with
  | nil =>
    rw [afterAll_nil]
    simp
  | cons e events ih =>
    refine (ih (after e s)).trans ?_
    rw [mem_after_iff, or_iff_right (hstate e), List.forall_mem_cons, and_assoc]

/-- **Only the order of related events matters.** Handled by the registered handlers from any store,
whatever its tuples, a run and a rearrangement of it leave the same tuples. -/
theorem mem_run_iff_of_rearranges {events events' : List Event} (h : Rearranges events events')
    (s : MemoryStore) (t : Tuple) :
    t ∈ ((dispatchAll handlers events).run s).2 ↔ t ∈ ((dispatchAll handlers events').run s).2 := by
  rw [dispatchAll_handlers, dispatchAll_handlers]
  show t ∈ afterAll events s ↔ t ∈ afterAll events' s
  have hmem : ∀ e, e ∈ events ↔ e ∈ events' := fun e => h.perm.mem_iff.symm
  by_cases hfact : ∃ f : Fact, t = f.tuple
  · obtain ⟨f, rfl⟩ := hfact
    rw [tuple_mem_afterAll_iff, tuple_mem_afterAll_iff,
      h.lastWord_iff fun _ _ => related_of_retracts]
    simp only [hmem]
  · rw [not_exists] at hfact
    rw [mem_afterAll_iff_of_no_fact hfact, mem_afterAll_iff_of_no_fact hfact]
    simp only [hmem]

/-- A service gets an owning group, a user is made, another group goes, and the user stops owning the
service. -/
def busyDay : List Event :=
  [.updated (.service ⟨5, "checkout", 3, ⟨1, none, 1, none⟩⟩),
    .created (.user ⟨7, "", "", ⟨1, none, 1, none⟩⟩), .deleted .supportGroup 9,
    .unlinked (.ownerOfService 5 7)]

/-- The same day with its first three events, which are about different records, in reverse. -/
def otherDay : List Event := (busyDay.take 3).reverse ++ busyDay.drop 3

/-- A group's members see the service, and a group owns it. -/
def grantedStore : MemoryStore :=
  ⟨[⟨"support_group", "9#member", "can_view", "service", "5"⟩,
    ⟨"support_group", "4", "owning_support_group", "service", "5"⟩], by decide⟩

theorem mem_run_iff_otherDay :
    Rearranges busyDay otherDay ∧
      ∀ t, t ∈ ((dispatchAll handlers busyDay).run grantedStore).2 ↔
        t ∈ ((dispatchAll handlers otherDay).run grantedStore).2 := by
  have h : Rearranges busyDay otherDay := by
    refine ⟨(busyDay.zipIdx.take 3).reverse ++ busyDay.zipIdx.drop 3, ?_, rfl, by decide⟩
    exact ((List.reverse_perm _).append_right _).trans (by rw [List.take_append_drop])
  exact ⟨h, mem_run_iff_of_rearranges h grantedStore⟩

end Sync
end TupleSync
