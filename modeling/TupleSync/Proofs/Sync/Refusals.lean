import TupleSync.Proofs.Store.Observed
import TupleSync.Proofs.Sync.Runtime
import TupleSync.Proofs.Sync.Update

/-!
# Where a store refuses

**A refused call is the end of one effect and of nothing else.** On a store in memory whose methods are
refused in part, every effect either is made or leaves a definite rest: an addition and a removal happen
as a whole or not at all, and a replacement can also stop between its two calls, with the stale tuples
gone. What the effect leaves depends on the store's tuples and on what is refused, never on how an
earlier effect went, so the events of a run are handled one by one whatever the store answers. What it
calls and reports depends on what is refused alone.
-/

set_option autoImplicit false

namespace TupleSync
namespace Sync

open Bus Observed

/-! ## Effects -/

namespace Effect

/-- The effect asks nothing that a store in memory refuses of itself. -/
def IsSound : Effect → Prop
  | add tuples => ∀ t ∈ tuples, t.IsComplete
  | remove t => t.IsComplete
  | replace stale fresh => stale ≠ Tuple.any ∧ fresh.IsComplete
  | _ => True

/-- The calls of an effect where some methods are refused. -/
def attempts (refused : List StoreMethod) : Effect → List StoreCall
  | add tuples => [.addBulk tuples]
  | remove t => [.remove t]
  | replace stale fresh =>
    .removeBulk [stale] :: if .removeBulk ∈ refused then [] else [.add fresh]
  | sweep kind id => [.removeBulk (sweepPatterns kind id)]
  | _ => []

/-- What an effect leaves of a store where some methods are refused. -/
def rest (refused : List StoreMethod) (s : MemoryStore) : Effect → MemoryStore
  | add tuples => if .addBulk ∈ refused then s else tuples.foldl MemoryStore.insert s
  | remove t => if .remove ∈ refused then s else s.eraseWhere fun t' => t' == t
  | replace stale fresh =>
    if .removeBulk ∈ refused then s
    else if .add ∈ refused then s.eraseMatching [stale]
    else (s.eraseMatching [stale]).insert fresh
  | sweep kind id =>
    if .removeBulk ∈ refused then s else s.eraseMatching (sweepPatterns kind id)
  | _ => s

/-- What an effect reports of a store where some methods are refused. -/
def told (refused : List StoreMethod) (n : EventName) : Effect → List Notice
  | add tuples =>
    if .addBulk ∈ refused then tuples.map (.addFailed n · refusal) else tuples.map (.added n)
  | remove t => if .remove ∈ refused then [.removeFailed n t refusal] else [.removed n t]
  | replace stale fresh =>
    if .removeBulk ∈ refused then
      [.firstCallFailed stale refusal, .replaceFailed n stale fresh refusal]
    else if .add ∈ refused then
      [.secondCallFailed fresh refusal, .replaceFailed n stale fresh refusal]
    else [.bothCallsDone stale fresh, .replaced n fresh]
  | sweep kind id =>
    if .removeBulk ∈ refused then [.sweepFailed n kind id refusal] else [.swept n kind id]
  | nothingToUpdate kind id => [.nothingToUpdate n kind id]
  | keepLink l => [.linkKept n l]
  | nothingToSweep kind => [.nothingToSweep n kind]

end Effect

variable {o : Observed MemoryStore} {n : EventName}

/-- A replacement stops at the first of its two calls that is refused. -/
theorem perform_replace_observed {stale fresh : Tuple} (hs : stale ≠ Tuple.any)
    (hf : fresh.IsComplete) :
    ((Effect.replace stale fresh).perform n).run o =
      ((Effect.replace stale fresh).told o.refused n,
        ⟨(Effect.replace stale fresh).rest o.refused o.store,
          o.calls ++ (Effect.replace stale fresh).attempts o.refused, o.refused⟩) := by
  rw [Effect.perform, StateT.run, stateM_bind_apply, Effect.told, Effect.rest, Effect.attempts]
  by_cases hremove : StoreMethod.removeBulk ∈ o.refused
  · have hrun : (TupleStore.replace stale fresh : StateM (Observed MemoryStore) Replaced) o = _ :=
      replaceByTwoCalls_of_removeFailed (Observed.run_call_of_refused hremove)
    simp only [hrun, if_pos hremove]
    rfl
  · have hfirst : (TupleStore.removeBulk [stale] : StoreM (Observed MemoryStore) Unit).run o =
        (.ok (), o.note (.removeBulk [stale]) (o.store.eraseMatching [stale])) := by
      refine (Observed.run_call_of_allowed hremove).trans ?_
      rw [MemoryStore.run_removeBulk_singleton hs]
    by_cases hadd : StoreMethod.add ∈ o.refused
    · have hrun : (TupleStore.replace stale fresh : StateM (Observed MemoryStore) Replaced) o = _ :=
        replaceByTwoCalls_of_addFailed hfirst (Observed.run_call_of_refused hadd)
      simp only [hrun, if_neg hremove, if_pos hadd]
      show (_, (⟨_, o.calls ++ [_] ++ [_], _⟩ : Observed MemoryStore)) = _
      rw [List.append_assoc]
      rfl
    · have hsecond : (TupleStore.add fresh : StoreM (Observed MemoryStore) Unit).run
          (o.note (.removeBulk [stale]) (o.store.eraseMatching [stale])) = _ :=
        Observed.run_call_of_allowed hadd
      rw [MemoryStore.run_add_of_complete hf] at hsecond
      have hrun : (TupleStore.replace stale fresh : StateM (Observed MemoryStore) Replaced) o = _ :=
        replaceByTwoCalls_of_done hfirst hsecond
      simp only [hrun, if_neg hremove, if_neg hadd]
      show (_, (⟨_, o.calls ++ [_] ++ [_], _⟩ : Observed MemoryStore)) = _
      rw [List.append_assoc]
      rfl

/-- **An effect calls, leaves and reports what it does, whatever was called before.** -/
theorem perform_observed {x : Effect} (h : x.IsSound) (o : Observed MemoryStore) :
    (x.perform n).run o = (x.told o.refused n,
      ⟨x.rest o.refused o.store, o.calls ++ x.attempts o.refused, o.refused⟩) := by
  cases x with
  | add tuples =>
    refine (bind_call_apply (MemoryStore.run_addBulk h o.store) _).trans ?_
    rw [Effect.told, Effect.rest]
    show (if StoreMethod.addBulk ∈ o.refused then _ else _) = _
    split <;> rfl
  | remove t =>
    refine (bind_call_apply (MemoryStore.run_remove_of_complete h o.store) _).trans ?_
    rw [Effect.told, Effect.rest]
    show (if StoreMethod.remove ∈ o.refused then _ else _) = _
    split <;> rfl
  | replace stale fresh => exact perform_replace_observed h.1 h.2
  | sweep kind id =>
    have hopen := any_not_mem_sweepPatterns kind id
    refine (bind_call_apply (MemoryStore.run_removeBulk hopen o.store) _).trans ?_
    rw [Effect.told, Effect.rest]
    show (if StoreMethod.removeBulk ∈ o.refused then _ else _) = _
    split <;> rfl
  | nothingToUpdate kind id =>
    show (_, o) = (_, ⟨_, o.calls ++ [], _⟩)
    rw [List.append_nil]
    rfl
  | keepLink l =>
    show (_, o) = (_, ⟨_, o.calls ++ [], _⟩)
    rw [List.append_nil]
    rfl
  | nothingToSweep kind =>
    show (_, o) = (_, ⟨_, o.calls ++ [], _⟩)
    rw [List.append_nil]
    rfl

theorem performAll_observed {es : List Effect} (h : ∀ x ∈ es, x.IsSound)
    (o : Observed MemoryStore) :
    (performAll n es).run o = (es.flatMap (Effect.told o.refused n),
      ⟨es.foldl (Effect.rest o.refused) o.store,
        o.calls ++ es.flatMap (Effect.attempts o.refused), o.refused⟩) := by
  induction es generalizing o with
  | nil =>
    show (_, o) = (_, ⟨_, o.calls ++ [], _⟩)
    rw [List.append_nil]
    rfl
  | cons x es ih =>
    obtain ⟨hfirst, hes⟩ := List.forall_mem_cons.1 h
    have hx : (x.perform n) o = _ := perform_observed hfirst o
    have hrest : ∀ o', (performAll n es) o' = _ := ih hes
    rw [performAll, StateT.run, stateM_bind_apply, hx, stateM_bind_apply, hrest,
      List.flatMap_cons, List.flatMap_cons, List.append_assoc]
    rfl

/-! ## Events -/

theorem isSound_update (l : Link) : l.update.IsSound := by
  unfold Link.update
  split
  · exact ⟨stale_ne_any l.kind l.child, isComplete_linkTuple l⟩
  · trivial

/-- No event asks what a store in memory refuses of itself. -/
theorem isSound_of_mem_effects {e : Event} {x : Effect} (h : x ∈ effects e) : x.IsSound := by
  cases e with
  | created r =>
    obtain rfl := List.mem_singleton.1 h
    exact fun _ => isComplete_of_mem_createdTuples
  | updated r =>
    rw [effects] at h
    split at h
    · obtain rfl := List.mem_singleton.1 h
      trivial
    · obtain ⟨l, -, rfl⟩ := List.mem_map.1 h
      exact isSound_update l
  | deleted kind id =>
    rw [effects] at h
    split at h
    · obtain rfl := List.mem_singleton.1 h
      trivial
    · obtain rfl := List.mem_singleton.1 h
      trivial
  | linked m =>
    obtain rfl := List.mem_singleton.1 h
    exact List.forall_mem_singleton.2 (isComplete_affiliationTuple m)
  | unlinked m =>
    obtain rfl := List.mem_singleton.1 h
    exact isComplete_affiliationTuple m

/-- The one call of an event is made, or it is refused and nothing changes. -/
def AllOrNothing (refused : List StoreMethod) (method : StoreMethod) (s s' : MemoryStore)
    (made : Tuple → Prop) : Prop :=
  if method ∈ refused then s' = s else ∀ t, t ∈ s' ↔ made t

/-- What an update does about one foreign key: the calls it makes, and what they leave of the tuples that
have the shape of the link. -/
inductive LinkOutcome (refused : List StoreMethod) (l : Link) (s s' : MemoryStore) :
    List StoreCall → Prop where
  /-- The key names no record. -/
  | passedOver (hset : ¬IsSet l.parent) (h : ∀ t, l.kind.Covers l.child t → (t ∈ s' ↔ t ∈ s)) :
    LinkOutcome refused l s s' []
  /-- The stale tuples cannot be removed, and nothing is written. -/
  | untouched (hset : IsSet l.parent) (hremove : .removeBulk ∈ refused)
      (h : ∀ t, l.kind.Covers l.child t → (t ∈ s' ↔ t ∈ s)) :
    LinkOutcome refused l s s' [.removeBulk [l.kind.stale l.child]]
  /-- The stale tuples are gone, and no other could be written. -/
  | cleared (hset : IsSet l.parent) (hremove : .removeBulk ∉ refused) (hadd : .add ∈ refused)
      (h : ∀ t, l.kind.Covers l.child t → t ∉ s') :
    LinkOutcome refused l s s' [.removeBulk [l.kind.stale l.child], .add l.tuple]
  | replaced (hset : IsSet l.parent) (hremove : .removeBulk ∉ refused) (hadd : .add ∉ refused)
      (h : ∀ t, l.kind.Covers l.child t → (t ∈ s' ↔ t = l.tuple)) :
    LinkOutcome refused l s s' [.removeBulk [l.kind.stale l.child], .add l.tuple]

/-- What an event comes to: the calls it makes, and what they leave of the store. -/
inductive Outcome (refused : List StoreMethod) (s s' : MemoryStore) :
    Event → List StoreCall → Prop where
  | created (r : Entity)
      (h : AllOrNothing refused .addBulk s s' fun t => t ∈ s ∨ ∃ f, States (.created r) f ∧ t = f.tuple) :
    Outcome refused s s' (.created r) [.addBulk (createdTuples r)]
  /-- Every foreign key has its own outcome, and tuples that belong to none of them stay. -/
  | updated (r : Entity) (calls : Link → List StoreCall)
      (hkeys : ∀ k parent, ForeignKey r k parent →
        LinkOutcome refused ⟨k, r.id, parent⟩ s s' (calls ⟨k, r.id, parent⟩))
      (hothers : ∀ t, (∀ k parent, ForeignKey r k parent → ¬k.Covers r.id t) → (t ∈ s' ↔ t ∈ s)) :
    Outcome refused s s' (.updated r) ((links r).flatMap calls)
  | deleted (kind : EntityKind) (id : Int64) (hset : IsSet id)
      (h : AllOrNothing refused .removeBulk s s' fun t => t ∈ s ∧ ¬Names t kind id) :
    Outcome refused s s' (.deleted kind id) [.removeBulk (sweepPatterns kind id)]
  | nothingDeleted (kind : EntityKind) (id : Int64) (hset : ¬IsSet id) (h : s' = s) :
    Outcome refused s s' (.deleted kind id) []
  | linked (m : Affiliation)
      (h : AllOrNothing refused .addBulk s s' fun t => t ∈ s ∨ t = affiliationTuple m) :
    Outcome refused s s' (.linked m) [.addBulk [affiliationTuple m]]
  | unlinked (m : Affiliation)
      (h : AllOrNothing refused .remove s s' fun t => t ∈ s ∧ t ≠ affiliationTuple m) :
    Outcome refused s s' (.unlinked m) [.remove (affiliationTuple m)]

section Links

variable {refused : List StoreMethod} {s : MemoryStore} {t : Tuple}

/-- The stale tuples of the link are removed. -/
def Clears (refused : List StoreMethod) (l : Link) : Prop :=
  IsSet l.parent ∧ .removeBulk ∉ refused

/-- The tuple of the link is written. -/
def Writes (refused : List StoreMethod) (l : Link) : Prop :=
  Clears refused l ∧ .add ∉ refused

theorem mem_rest_update (s : MemoryStore) (l : Link) (t : Tuple) :
    t ∈ l.update.rest refused s ↔
      (Writes refused l ∧ t = l.tuple) ∨
        (t ∈ s ∧ ¬(Clears refused l ∧ l.kind.Covers l.child t)) := by
  unfold Link.update Writes Clears
  by_cases hset : IsSet l.parent
  · rw [if_pos hset, Effect.rest]
    by_cases hremove : StoreMethod.removeBulk ∈ refused
    · simp [hremove]
    · by_cases hadd : StoreMethod.add ∈ refused
      · simp [hset, hremove, hadd, MemoryStore.mem_eraseMatching, matches_stale_iff]
      · simp [hset, hremove, hadd, MemoryStore.mem_eraseMatching, MemoryStore.mem_insert,
          matches_stale_iff, or_comm]
  · simp [hset, Effect.rest]

theorem mem_rest_updates {e : Entity} :
    t ∈ ((links e).map Link.update).foldl (Effect.rest refused) s ↔
      (∃ l ∈ links e, Writes refused l ∧ t = l.tuple) ∨
        (t ∈ s ∧ ¬∃ l ∈ links e, Clears refused l ∧ l.kind.Covers l.child t) := by
  rw [List.foldl_map]
  exact mem_foldl_links mem_rest_update (pairwise_links e)

/-- What becomes of a tuple with the shape of a link is decided by that link alone. -/
theorem mem_rest_updates_of_covers {e : Entity} {l : Link} (hl : l ∈ links e)
    (hcov : l.kind.Covers l.child t) :
    t ∈ ((links e).map Link.update).foldl (Effect.rest refused) s ↔
      (Writes refused l ∧ t = l.tuple) ∨ (t ∈ s ∧ ¬Clears refused l) := by
  have hwritten : ∀ l' : Link, Writes refused l' ∧ t = l'.tuple → l'.kind.Covers l'.child t := by
    rintro l' ⟨-, rfl⟩
    exact covers_linkTuple l'
  rw [mem_rest_updates, exists_mem_links_iff hl hcov hwritten,
    exists_mem_links_iff hl hcov fun _ => And.right, and_iff_left hcov]

theorem linkOutcome_of_mem {l : Link} {s' : MemoryStore}
    (h : ∀ t, l.kind.Covers l.child t →
      (t ∈ s' ↔ (Writes refused l ∧ t = l.tuple) ∨ (t ∈ s ∧ ¬Clears refused l))) :
    LinkOutcome refused l s s' (l.update.attempts refused) := by
  unfold Link.update
  by_cases hset : IsSet l.parent
  · rw [if_pos hset, Effect.attempts]
    by_cases hremove : StoreMethod.removeBulk ∈ refused
    · rw [if_pos hremove]
      refine .untouched hset hremove fun t hcov => ?_
      rw [h t hcov]
      simp [Writes, Clears, hremove]
    · rw [if_neg hremove]
      by_cases hadd : StoreMethod.add ∈ refused
      · refine .cleared hset hremove hadd fun t hcov => ?_
        rw [h t hcov]
        simp [Writes, Clears, hset, hremove, hadd]
      · refine .replaced hset hremove hadd fun t hcov => ?_
        rw [h t hcov]
        simp [Writes, Clears, hset, hremove, hadd]
  · rw [if_neg hset]
    refine .passedOver hset fun t hcov => ?_
    rw [h t hcov]
    simp [Writes, Clears, hset]

/-- An update comes to what its links come to, also where there are none. -/
theorem effects_updated_cases (e : Entity) :
    effects (.updated e) = (links e).map Link.update ∨
      (links e = [] ∧ effects (.updated e) = [.nothingToUpdate e.kind e.id]) := by
  rw [effects]
  split
  · next hnil => exact Or.inr ⟨hnil, rfl⟩
  · exact Or.inl rfl

theorem outcome_updated (e : Entity) :
    Outcome refused s (((links e).map Link.update).foldl (Effect.rest refused) s) (.updated e)
      (((links e).map Link.update).flatMap (Effect.attempts refused)) := by
  rw [List.flatMap_map]
  refine .updated e _ (fun k parent hkey => linkOutcome_of_mem fun t =>
    mem_rest_updates_of_covers hkey.mem_links) ?_
  intro t hothers
  have hnone : ∀ l ∈ links e, ¬l.kind.Covers l.child t := by
    intro l hl
    obtain ⟨hkey, hchild⟩ := mem_links_iff.1 hl
    rw [hchild]
    exact hothers l.kind l.parent hkey
  have hwritten : ¬∃ l ∈ links e, Writes refused l ∧ t = l.tuple := by
    rintro ⟨l, hl, -, rfl⟩
    exact hnone l hl (covers_linkTuple l)
  have hcleared : ¬∃ l ∈ links e, Clears refused l ∧ l.kind.Covers l.child t := by
    rintro ⟨l, hl, -, hcov⟩
    exact hnone l hl hcov
  rw [mem_rest_updates, or_iff_right hwritten, and_iff_left hcleared]

end Links

theorem allOrNothing_of_iff {refused : List StoreMethod} {method : StoreMethod} {s s' : MemoryStore}
    {made : Tuple → Prop} (h : ∀ t, t ∈ s' ↔ made t) :
    AllOrNothing refused method s (if method ∈ refused then s else s') made := by
  unfold AllOrNothing
  split
  · rfl
  · exact h

/-- **What an event comes to on a store in memory that refuses some methods.** -/
theorem outcome_effects (refused : List StoreMethod) (s : MemoryStore) (e : Event) :
    Outcome refused s ((effects e).foldl (Effect.rest refused) s) e
      ((effects e).flatMap (Effect.attempts refused)) := by
  cases e with
  | created r =>
    refine .created r (allOrNothing_of_iff fun t => ?_)
    rw [MemoryStore.mem_foldl_insert, mem_createdTuples_iff]
  | updated r =>
    rcases effects_updated_cases r with h | ⟨hnil, h⟩
    · rw [h]
      exact outcome_updated r
    · have hnone := @outcome_updated refused s r
      rw [hnil] at hnone
      rw [h]
      exact hnone
  | deleted kind id =>
    rw [effects]
    split
    · next hset =>
      refine .deleted kind id hset (allOrNothing_of_iff fun t => ?_)
      rw [MemoryStore.mem_eraseMatching, ← exists_sweepPatterns_iff]
      simp only [not_exists, not_and]
    · next hset => exact .nothingDeleted kind id hset rfl
  | linked m =>
    refine .linked m (allOrNothing_of_iff fun t => ?_)
    rw [MemoryStore.mem_foldl_insert, List.mem_singleton]
  | unlinked m =>
    refine .unlinked m (allOrNothing_of_iff fun t => ?_)
    rw [MemoryStore.mem_eraseWhere, beq_eq_false_iff_ne]

/-- What an event reports of a store where some methods are refused. -/
def told (refused : List StoreMethod) (e : Event) : List Notice :=
  (effects e).flatMap (Effect.told refused e.name)

theorem handle_observed (e : Event) (o : Observed MemoryStore) :
    (handle e).run o = (told o.refused e, ⟨(effects e).foldl (Effect.rest o.refused) o.store,
      o.calls ++ (effects e).flatMap (Effect.attempts o.refused), o.refused⟩) :=
  performAll_observed (fun _ => isSound_of_mem_effects) o

theorem after_event_observed (e : Event) (o : Observed MemoryStore) :
    after e o = ⟨(effects e).foldl (Effect.rest o.refused) o.store,
      o.calls ++ (effects e).flatMap (Effect.attempts o.refused), o.refused⟩ :=
  congrArg Prod.snd (handle_observed e o)

theorem refused_afterAll (events : List Event) (o : Observed MemoryStore) :
    (afterAll events o).refused = o.refused := by
  induction events generalizing o with
  | nil => rfl
  | cons e events ih =>
    rw [afterAll_cons, ih, after_event_observed]

/-! ## Earlier calls -/

section Oblivious

variable {σ : Type} [TupleStore σ]

theorem oblivious_replace (stale fresh : Tuple) :
    Oblivious (TupleStore.replace stale fresh : StateM (Observed σ) Replaced) := by
  show Oblivious (replaceByTwoCalls TupleStore.removeBulk TupleStore.add stale fresh)
  refine Oblivious.bind (oblivious_call (.removeBulk [stale]) _) fun first => ?_
  cases first with
  | error e => exact oblivious_pure _
  | ok _ =>
    refine Oblivious.bind (oblivious_call (.add fresh) _) fun second => ?_
    cases second <;> exact oblivious_pure _

/-- No effect depends on how an earlier one went, other than through the store. -/
theorem oblivious_perform (x : Effect) (n : EventName) :
    Oblivious (x.perform n : StateM (Observed σ) (List Notice)) := by
  cases x with
  | add tuples =>
    refine Oblivious.bind (oblivious_call (.addBulk tuples) _) fun answer => ?_
    cases answer <;> exact oblivious_pure _
  | remove t =>
    refine Oblivious.bind (oblivious_call (.remove t) _) fun answer => ?_
    cases answer <;> exact oblivious_pure _
  | replace stale fresh =>
    refine Oblivious.bind (oblivious_replace stale fresh) fun answer => ?_
    exact oblivious_pure _
  | sweep kind id =>
    refine Oblivious.bind (oblivious_call (.removeBulk (sweepPatterns kind id)) _) fun answer => ?_
    cases answer <;> exact oblivious_pure _
  | nothingToUpdate kind id => exact oblivious_pure _
  | keepLink l => exact oblivious_pure _
  | nothingToSweep kind => exact oblivious_pure _

theorem oblivious_performAll (n : EventName) (es : List Effect) :
    Oblivious (performAll n es : StateM (Observed σ) (List Notice)) := by
  induction es with
  | nil => exact oblivious_pure []
  | cons x es ih =>
    refine (oblivious_perform x n).bind fun first => ?_
    refine ih.bind fun more => ?_
    exact oblivious_pure _

theorem oblivious_handle (e : Event) : Oblivious (handle e : StateM (Observed σ) (List Notice)) :=
  oblivious_performAll e.name (effects e)

end Oblivious

/-! ## Runs -/

/-- **Refusals are contained.** Open a synchronizer on a store in memory that refuses the calls of any
methods, and publish any events. After each of them the bus still runs, and the event has come to one of
its outcomes, by which it makes these calls and no other. The same calls, the same store and the same
reports come from handling that event alone on what the earlier events left. -/
theorem publishAll_contained (capacity : Nat) (start : MemoryStore) (refused : List StoreMethod) :
    ∃ r : Runtime (Observed MemoryStore),
      Runtime.open (Local.new capacity) ⟨start, [], refused⟩ = .ok r ∧
      r.store = ⟨start, [], refused⟩ ∧
      ∀ (before : List Event) (e : Event),
        let r₁ := r.publishAll before
        let r₂ := r.publishAll (before ++ [e])
        let alone := (handle e).run (⟨r₁.store.store, [], refused⟩ : Observed MemoryStore)
        r₂.bus.isRunning = true ∧
        Outcome refused r₁.store.store r₂.store.store e alone.2.calls ∧
        r₂.store = ⟨alone.2.store, r₁.store.calls ++ alone.2.calls, refused⟩ ∧
        r₂.log = r₁.log ++ alone.1.map Notice.record := by
  obtain ⟨r, hopen, hwaiting, hstore⟩ :=
    Runtime.exists_open capacity (⟨start, [], refused⟩ : Observed MemoryStore)
  refine ⟨r, hopen, hstore, ?_⟩
  intro before e r₁ r₂ alone
  obtain ⟨hfirst, hbefore⟩ := hwaiting.publishAll before
  have hlast : r₂ = ⟨r₁.bus, after e r₁.store, r₁.log ++ Runtime.reports e r₁.store⟩ := by
    rw [← hfirst.publish_eq e]
    exact List.foldl_append
  have hrefused : r₁.store.refused = refused := by
    show (r.publishAll before).store.refused = refused
    rw [hbefore, refused_afterAll, hstore]
  -- the calls of earlier events are written down, and that is all that is left of them
  have halone : (handle e).run r₁.store = (alone.1, alone.2.withEarlier r₁.store.calls) := by
    have hearlier : r₁.store = (⟨r₁.store.store, [], refused⟩ : Observed MemoryStore).withEarlier
        r₁.store.calls := by
      rw [Observed.withEarlier, List.append_nil, ← hrefused]
    have hsame : Oblivious (handle e : StateM (Observed MemoryStore) (List Notice)) :=
      oblivious_handle e
    exact (congrArg (handle e).run hearlier).trans (hsame _ _)
  have hafter : after e r₁.store = alone.2.withEarlier r₁.store.calls := congrArg Prod.snd halone
  have hsolo : alone.2 = ⟨_, _, refused⟩ := after_event_observed e ⟨r₁.store.store, [], refused⟩
  refine ⟨hlast ▸ hfirst.isRunning, ?_, ?_, ?_⟩
  · rw [hlast, hafter, hsolo]
    exact outcome_effects refused r₁.store.store e
  · rw [hlast, hafter, hsolo]
    rfl
  · rw [hlast, Runtime.reports, halone]

end Sync
end TupleSync
