import TupleSync.Proofs.Store.Memory
import TupleSync.Proofs.Sync.Facts
import TupleSync.Sync.Handle

/-!
# What one event does to a store in memory

**After an event a tuple is in the store if the event states it, or if it was there before and the event
does not strike it out.** `mem_after_iff` says so for every event and every store, whatever tuples the
store holds: nothing here needs the tuples to be the synchronizer's own.

No call of a handler fails on a store in memory. What it adds is complete, and what it removes by is
never open in every field, so an event has only the one effect. An update of two links replaces them one
after the other; the second replacement leaves the tuple of the first alone because their relations
differ.
-/

set_option autoImplicit false

namespace TupleSync
namespace Sync

/-! ## What an event states, and what it strikes out -/

/-- The event states the fact. -/
def States (e : Event) : Fact → Prop
  | .made creator kind id => ∃ r, e = .created r ∧ r.kind = kind ∧ r.id = id ∧ r.creator = creator
  | .link l => IsSet l.parent ∧
      ∃ r, (e = .created r ∨ e = .updated r) ∧ r.id = l.child ∧ ForeignKey r l.kind l.parent
  | .affiliation m => e = .linked m

/-- The event removes the tuple where it finds it, also one that it then writes anew. -/
def Removes (e : Event) (t : Tuple) : Prop :=
  match e with
  | .created _ => False
  | .updated r => ∃ k parent, ForeignKey r k parent ∧ IsSet parent ∧ k.Covers r.id t
  | .deleted kind id => IsSet id ∧ Names t kind id
  | .linked _ => False
  | .unlinked m => t = affiliationTuple m

/-! ## The state of any store -/

section AnyStore

variable {σ : Type} [TupleStore σ] {s : σ} {n : EventName}

/-- The store after an effect. -/
def Effect.after (n : EventName) (e : Effect) (s : σ) : σ := ((e.perform n).run s).2

/-- The store after effects in order. -/
def afterEffects (n : EventName) (es : List Effect) (s : σ) : σ := ((performAll n es).run s).2

/-- The store after an event. -/
def after (e : Event) (s : σ) : σ := ((handle e).run s).2

/-- The store after events in order. -/
def afterAll (events : List Event) (s : σ) : σ := ((handleAll events).run s).2

theorem after_add (ts : List Tuple) :
    (Effect.add ts).after n s = ((TupleStore.addBulk ts).run s).2 := by
  rw [Effect.after, Effect.perform, StateT.run, stateM_bind_apply]
  cases ((TupleStore.addBulk ts).run s).1 <;> rfl

theorem after_remove (t : Tuple) :
    (Effect.remove t).after n s = ((TupleStore.remove t).run s).2 := by
  rw [Effect.after, Effect.perform, StateT.run, stateM_bind_apply]
  cases ((TupleStore.remove t).run s).1 <;> rfl

theorem after_replace (stale fresh : Tuple) :
    (Effect.replace stale fresh).after n s =
      ((TupleStore.replace stale fresh : StateM σ Replaced) s).2 := rfl

theorem after_sweep (kind : EntityKind) (id : Int64) :
    (Effect.sweep kind id).after n s =
      ((TupleStore.removeBulk (sweepPatterns kind id)).run s).2 := by
  rw [Effect.after, Effect.perform, StateT.run, stateM_bind_apply]
  cases ((TupleStore.removeBulk (sweepPatterns kind id)).run s).1 <;> rfl

theorem afterEffects_singleton (e : Effect) : afterEffects n [e] s = e.after n s := rfl

theorem afterEffects_eq_foldl (es : List Effect) :
    afterEffects n es s = es.foldl (fun s e => e.after n s) s := by
  induction es generalizing s with
  | nil => rfl
  | cons e es ih => exact ih

/-- Also a record without foreign keys, whose update only reports, is updated link by link. -/
theorem afterEffects_updated (e : Entity) :
    afterEffects n (effects (.updated e)) s = afterEffects n ((links e).map Link.update) s := by
  rw [effects]
  split
  · next hnil =>
    rw [hnil]
    rfl
  · rfl

theorem afterAll_nil : afterAll [] s = s := rfl

theorem afterAll_cons (e : Event) (events : List Event) :
    afterAll (e :: events) s = afterAll events (after e s) := rfl

end AnyStore

/-! ## Effect by effect -/

section Memory

variable {s : MemoryStore} {t : Tuple} {n : EventName}

theorem mem_after_add {ts : List Tuple} (h : ∀ t ∈ ts, t.IsComplete) :
    t ∈ (Effect.add ts).after n s ↔ t ∈ ts ∨ t ∈ s := by
  rw [after_add, MemoryStore.run_addBulk h, MemoryStore.mem_foldl_insert, or_comm]

theorem mem_after_remove {u : Tuple} (h : u.IsComplete) :
    t ∈ (Effect.remove u).after n s ↔ t ∈ s ∧ t ≠ u := by
  rw [after_remove, MemoryStore.run_remove_of_complete h, MemoryStore.mem_eraseWhere, beq_eq_false_iff_ne]

theorem mem_after_sweep {kind : EntityKind} {id : Int64} :
    t ∈ (Effect.sweep kind id).after n s ↔ t ∈ s ∧ ¬Names t kind id := by
  rw [after_sweep, MemoryStore.run_removeBulk (any_not_mem_sweepPatterns kind id),
    MemoryStore.mem_eraseMatching, ← exists_sweepPatterns_iff]
  simp only [not_exists, not_and]

theorem mem_after_update {l : Link} :
    t ∈ l.update.after n s ↔
      (IsSet l.parent ∧ t = l.tuple) ∨ (t ∈ s ∧ ¬(IsSet l.parent ∧ l.kind.Covers l.child t)) := by
  unfold Link.update
  by_cases h : IsSet l.parent
  · rw [if_pos h, after_replace,
      MemoryStore.replace_apply (stale_ne_any _ _) (isComplete_linkTuple l),
      MemoryStore.mem_insert, MemoryStore.mem_eraseMatching, List.forall_mem_singleton,
      matches_stale_iff, or_comm]
    simp only [h, true_and]
  · rw [if_neg h]
    simp only [h, false_and, false_or, not_false_iff, and_true]
    rfl

/-- The links of a record are of different kinds. -/
theorem pairwise_links (e : Entity) : (links e).Pairwise fun l l' => l.kind ≠ l'.kind := by
  cases e <;> simp [links]

/-- Links of different kinds are replaced independently, whatever a replacement comes to: each clears its
own stale tuples away, and none the fresh tuple of another. The induction is on the links from the front,
so what has to survive is a tuple written earlier, and the kinds of all later links differ from its own. -/
theorem mem_foldl_links {f : MemoryStore → Link → MemoryStore} {writes clears : Link → Prop}
    (hf : ∀ s l t, t ∈ f s l ↔
      (writes l ∧ t = l.tuple) ∨ (t ∈ s ∧ ¬(clears l ∧ l.kind.Covers l.child t)))
    {ls : List Link} (h : ls.Pairwise fun l l' => l.kind ≠ l'.kind) :
    t ∈ ls.foldl f s ↔
      (∃ l ∈ ls, writes l ∧ t = l.tuple) ∨
        (t ∈ s ∧ ¬∃ l ∈ ls, clears l ∧ l.kind.Covers l.child t) := by
  induction ls generalizing s with
  | nil => simp
  | cons l rest ih =>
    obtain ⟨hhead, hrest⟩ := List.pairwise_cons.1 h
    rw [List.foldl_cons, ih hrest, hf]
    -- The fresh tuple of the first link is out of reach of the others.
    have hkeep : t = l.tuple → ¬∃ l' ∈ rest, clears l' ∧ l'.kind.Covers l'.child t := by
      rintro rfl ⟨l', hl', -, hcov⟩
      obtain ⟨parent, hlink⟩ := (covers_tuple_iff (f := .link l)).1 hcov
      cases hlink
      exact hhead l' hl' rfl
    simp only [List.mem_cons, exists_eq_or_imp]
    constructor
    · intro hor
      rcases hor with hlater | ⟨⟨hwrites, rfl⟩ | ⟨hs, hfirst⟩, hlater⟩
      · exact Or.inl (Or.inr hlater)
      · exact Or.inl (Or.inl ⟨hwrites, rfl⟩)
      · exact Or.inr ⟨hs, not_or.2 ⟨hfirst, hlater⟩⟩
    · intro hor
      rcases hor with (⟨hwrites, heq⟩ | hlater) | ⟨hs, hnot⟩
      · exact Or.inr ⟨Or.inl ⟨hwrites, heq⟩, hkeep heq⟩
      · exact Or.inl hlater
      · exact Or.inr ⟨Or.inr ⟨hs, (not_or.1 hnot).1⟩, (not_or.1 hnot).2⟩

theorem mem_afterEffects_updates {ls : List Link} (h : ls.Pairwise fun l l' => l.kind ≠ l'.kind) :
    t ∈ afterEffects n (ls.map Link.update) s ↔
      (∃ l ∈ ls, IsSet l.parent ∧ t = l.tuple) ∨
        (t ∈ s ∧ ¬∃ l ∈ ls, IsSet l.parent ∧ l.kind.Covers l.child t) := by
  rw [afterEffects_eq_foldl, List.foldl_map]
  exact mem_foldl_links (fun _ _ _ => mem_after_update) h

/-! ## Event by event -/

theorem mem_createdTuples_iff {e : Entity} :
    t ∈ createdTuples e ↔ ∃ f, States (.created e) f ∧ t = f.tuple := by
  rw [createdTuples, List.mem_cons, List.mem_map]
  constructor
  · intro hor
    rcases hor with rfl | ⟨l, hl, rfl⟩
    · exact ⟨.made e.creator e.kind e.id, ⟨e, rfl, rfl, rfl, rfl⟩, rfl⟩
    · obtain ⟨hmem, hset⟩ := List.mem_filter.1 hl
      obtain ⟨hkey, hchild⟩ := mem_links_iff.1 hmem
      exact ⟨.link l, ⟨of_decide_eq_true hset, e, Or.inl rfl, hchild.symm, hkey⟩, rfl⟩
  · intro hboth
    obtain ⟨f, hf, rfl⟩ := hboth
    cases f with
    | made c kind id =>
      obtain ⟨r, hr, rfl, rfl, rfl⟩ := hf
      cases hr
      exact Or.inl rfl
    | link l =>
      obtain ⟨hset, r, hr, hchild, hkey⟩ := hf
      obtain rfl : r = e := by
        rcases hr with hr | hr <;> cases hr
        rfl
      have hmem : l ∈ links r := mem_links_iff.2 ⟨hkey, hchild.symm⟩
      exact Or.inr ⟨l, List.mem_filter.2 ⟨hmem, decide_eq_true hset⟩, rfl⟩
    | affiliation m => cases hf

theorem isComplete_of_mem_createdTuples {e : Entity} (h : t ∈ createdTuples e) : t.IsComplete := by
  obtain ⟨f, -, rfl⟩ := mem_createdTuples_iff.1 h
  exact f.isComplete_tuple

theorem exists_update_iff {e : Entity} :
    (∃ l ∈ links e, IsSet l.parent ∧ t = l.tuple) ↔ ∃ f, States (.updated e) f ∧ t = f.tuple := by
  constructor
  · intro hboth
    obtain ⟨l, hl, hset, rfl⟩ := hboth
    obtain ⟨hkey, hchild⟩ := mem_links_iff.1 hl
    exact ⟨.link l, ⟨hset, e, Or.inr rfl, hchild.symm, hkey⟩, rfl⟩
  · intro hboth
    obtain ⟨f, hf, rfl⟩ := hboth
    cases f with
    | made c kind id =>
      obtain ⟨r, hr, -⟩ := hf
      cases hr
    | link l =>
      obtain ⟨hset, r, hr, hchild, hkey⟩ := hf
      obtain rfl : r = e := by
        rcases hr with hr | hr <;> cases hr
        rfl
      exact ⟨l, mem_links_iff.2 ⟨hkey, hchild.symm⟩, hset, rfl⟩
    | affiliation m => cases hf

theorem not_states_deleted {kind : EntityKind} {id : Int64} (f : Fact) :
    ¬States (.deleted kind id) f := by
  intro h
  cases f with
  | made =>
    obtain ⟨r, hr, -⟩ := h
    cases hr
  | link =>
    obtain ⟨-, r, hr | hr, -⟩ := h <;> cases hr
  | affiliation => cases h

theorem not_states_unlinked {m : Affiliation} (f : Fact) : ¬States (.unlinked m) f := by
  intro h
  cases f with
  | made =>
    obtain ⟨r, hr, -⟩ := h
    cases hr
  | link =>
    obtain ⟨-, r, hr | hr, -⟩ := h <;> cases hr
  | affiliation => cases h

theorem states_linked_iff {m : Affiliation} {f : Fact} :
    States (.linked m) f ↔ f = .affiliation m := by
  constructor
  · intro h
    cases f with
    | made =>
      obtain ⟨r, hr, -⟩ := h
      cases hr
    | link =>
      obtain ⟨-, r, hr | hr, -⟩ := h <;> cases hr
    | affiliation m' =>
      cases h
      rfl
  · rintro rfl
    rfl

/-- **What an event does to a store**, tuple by tuple. -/
theorem mem_after_iff {e : Event} :
    t ∈ after e s ↔ (∃ f, States e f ∧ t = f.tuple) ∨ (t ∈ s ∧ ¬Removes e t) := by
  show t ∈ afterEffects e.name (effects e) s ↔ _
  cases e with
  | created r =>
    rw [effects, afterEffects_singleton, mem_after_add fun _ => isComplete_of_mem_createdTuples,
      mem_createdTuples_iff]
    simp only [Removes, not_false_iff, and_true]
  | updated r =>
    have hcleared : (∃ l ∈ links r, IsSet l.parent ∧ l.kind.Covers l.child t) ↔ Removes (.updated r) t :=
      exists_mem_links_iff_foreignKey (P := fun k child parent => IsSet parent ∧ k.Covers child t)
    rw [afterEffects_updated, mem_afterEffects_updates (pairwise_links r), exists_update_iff, hcleared]
  | deleted kind id =>
    have hstate : ¬∃ f, States (.deleted kind id) f ∧ t = f.tuple := by
      intro hex
      obtain ⟨f, hf, -⟩ := hex
      exact not_states_deleted f hf
    rw [effects, or_iff_right hstate]
    by_cases hset : IsSet id
    · rw [if_pos hset, afterEffects_singleton, mem_after_sweep]
      simp only [Removes, hset, true_and]
    · rw [if_neg hset]
      simp only [Removes, hset, false_and, not_false_iff, and_true]
      rfl
  | linked m =>
    have hcomplete : ∀ t ∈ [affiliationTuple m], t.IsComplete :=
      List.forall_mem_singleton.2 (isComplete_affiliationTuple m)
    rw [effects, afterEffects_singleton, mem_after_add hcomplete, List.mem_singleton]
    simp only [Removes, not_false_iff, and_true, states_linked_iff, exists_eq_left]
    rfl
  | unlinked m =>
    have hstate : ¬∃ f, States (.unlinked m) f ∧ t = f.tuple := by
      intro hex
      obtain ⟨f, hf, -⟩ := hex
      exact not_states_unlinked f hf
    rw [effects, afterEffects_singleton, mem_after_remove (isComplete_affiliationTuple m),
      or_iff_right hstate]
    rfl

end Memory

end Sync
end TupleSync
