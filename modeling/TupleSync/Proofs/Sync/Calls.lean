import TupleSync.Proofs.Store.Atomicity
import TupleSync.Proofs.Sync.Refusals
import TupleSync.Proofs.Tuple.Keys

/-!
# Which calls are made

**The synchronizer never asks what a store holds, and asks nothing that a store in memory finds fault
with.** Its calls and its reports come from the events and from the methods that are refused, and from
nothing else: two stores with different tuples are called alike, and a call that fails does so for its
method.
-/

set_option autoImplicit false

namespace TupleSync

/-- A tuple without an empty field that its key names. -/
structure Tuple.IsWritable (t : Tuple) : Prop where
  complete : t.IsComplete
  named : t.key.tuple? = some t

/-! ## Calls -/

namespace StoreCall

variable {c : StoreCall}

/-- What is asked of a store by the call. -/
def use : StoreCall → Use
  | check t => .check t
  | add t => .operation (.add t)
  | addBulk ts => .operation (.addBulk ts)
  | remove t => .operation (.remove t)
  | removeBulk patterns => .operation (.removeBulk patterns)
  | removeAll => .operation .removeAll
  | list pattern => .operation (.list pattern)
  | accessible t => .accessible t

/-- A call that changes what is stored and asks for none of it. What it names in full can be written, and
none of its patterns is open in every field. -/
inductive IsBlind : StoreCall → Prop where
  | add {t : Tuple} (h : t.IsWritable) : IsBlind (.add t)
  | addBulk {ts : List Tuple} (h : ∀ t ∈ ts, t.IsWritable) : IsBlind (.addBulk ts)
  | remove {t : Tuple} (h : t.IsWritable) : IsBlind (.remove t)
  | removeBulk {patterns : List Tuple} (h : Tuple.any ∉ patterns) : IsBlind (.removeBulk patterns)

/-- Every store in memory does what the call asks, if the method is not refused. -/
def IsGranted (c : StoreCall) : Prop :=
  ∀ s : MemoryStore, ∃ a s', c.use.perform.run (⟨s, [], []⟩ : Observed MemoryStore) =
    (.ok a, ⟨s', [c], []⟩)

/-- A call that is a single operation is granted where the operation succeeds. -/
theorem run_call_granted {op : StoreM MemoryStore Unit} {s s' : MemoryStore}
    (h : op.run s = (.ok (), s')) :
    (Observed.call c op).run ⟨s, [], []⟩ = (.ok (), ⟨s', [c], []⟩) := by
  rw [Observed.run_call_of_nil, h]
  rfl

theorem IsBlind.isGranted (h : c.IsBlind) : c.IsGranted := by
  intro s
  cases h with
  | add ht =>
    have hrun := MemoryStore.run_add_of_complete ht.complete s
    exact ⟨_, _, Use.run_call_of_ok (run_call_granted hrun)⟩
  | addBulk hts =>
    have hrun := MemoryStore.run_addBulk (fun t ht => (hts t ht).complete) s
    exact ⟨_, _, Use.run_call_of_ok (run_call_granted hrun)⟩
  | remove ht =>
    have hrun := MemoryStore.run_remove_of_complete ht.complete s
    exact ⟨_, _, Use.run_call_of_ok (run_call_granted hrun)⟩
  | removeBulk hopen =>
    have hrun := MemoryStore.run_removeBulk hopen s
    exact ⟨_, _, Use.run_call_of_ok (run_call_granted hrun)⟩

end StoreCall

namespace Sync

open Bus Observed

variable {refused : List StoreMethod} {e : Event} {x : Effect} {t : Tuple}

/-! ## What is written -/

theorem colon_not_mem_type (a : TypeName) : ':' ∉ a.text.toList := by cases a <;> decide

theorem Fact.isWritable_tuple (f : Fact) : f.tuple.IsWritable := by
  refine ⟨f.isComplete_tuple, ?_⟩
  obtain ⟨a, i, r, b, j, h⟩ := f.exists_tuple_eq
  rw [h]
  exact Tuple.tuple?_key (colon_not_mem_type a) (colon_not_mem_type b)

/-- The tuples that an effect names in full. -/
def Effect.named : Effect → List Tuple
  | add tuples => tuples
  | remove t => [t]
  | replace _ fresh => [fresh]
  | _ => []

/-- An event names facts, and nothing else. -/
theorem exists_fact_of_mem_named (hx : x ∈ effects e) (ht : t ∈ x.named) :
    ∃ f : Fact, t = f.tuple := by
  cases e with
  | created r =>
    obtain rfl := List.mem_singleton.1 hx
    obtain ⟨f, -, rfl⟩ := mem_createdTuples_iff.1 ht
    exact ⟨f, rfl⟩
  | updated r =>
    rcases effects_updated_cases r with heffects | ⟨-, heffects⟩
    · rw [heffects] at hx
      obtain ⟨l, -, rfl⟩ := List.mem_map.1 hx
      unfold Link.update at ht
      split at ht
      · exact ⟨.link l, List.mem_singleton.1 ht⟩
      · cases ht
    · rw [heffects] at hx
      obtain rfl := List.mem_singleton.1 hx
      cases ht
  | deleted kind id =>
    rw [effects] at hx
    split at hx
    · obtain rfl := List.mem_singleton.1 hx
      cases ht
    · obtain rfl := List.mem_singleton.1 hx
      cases ht
  | linked m =>
    obtain rfl := List.mem_singleton.1 hx
    exact ⟨.affiliation m, List.mem_singleton.1 ht⟩
  | unlinked m =>
    obtain rfl := List.mem_singleton.1 hx
    exact ⟨.affiliation m, List.mem_singleton.1 ht⟩

theorem isWritable_of_mem_named (hx : x ∈ effects e) (ht : t ∈ x.named) : t.IsWritable := by
  obtain ⟨f, rfl⟩ := exists_fact_of_mem_named hx ht
  exact f.isWritable_tuple

/-! ## What is called -/

theorem isBlind_of_mem_attempts {c : StoreCall} (hx : x ∈ effects e)
    (hc : c ∈ x.attempts refused) : c.IsBlind := by
  have hwritable : ∀ t ∈ x.named, t.IsWritable := fun t => isWritable_of_mem_named hx
  cases x with
  | add tuples =>
    obtain rfl := List.mem_singleton.1 hc
    exact .addBulk hwritable
  | remove t =>
    obtain rfl := List.mem_singleton.1 hc
    exact .remove (hwritable t List.mem_cons_self)
  | replace stale fresh =>
    obtain ⟨hstale, -⟩ : stale ≠ Tuple.any ∧ fresh.IsComplete := isSound_of_mem_effects hx
    rw [Effect.attempts] at hc
    rcases List.mem_cons.1 hc with rfl | hc
    · exact .removeBulk (by simpa using hstale.symm)
    · split at hc
      · cases hc
      · obtain rfl := List.mem_singleton.1 hc
        exact .add (hwritable fresh List.mem_cons_self)
  | sweep kind id =>
    obtain rfl := List.mem_singleton.1 hc
    exact .removeBulk (any_not_mem_sweepPatterns kind id)
  | nothingToUpdate kind id => cases hc
  | keepLink l => cases hc
  | nothingToSweep kind => cases hc

/-- The calls of a run are those of its effects, one after the other. -/
theorem calls_afterAll (events : List Event) (o : Observed MemoryStore) :
    (afterAll events o).calls =
      o.calls ++ (events.flatMap effects).flatMap (Effect.attempts o.refused) := by
  induction events generalizing o with
  | nil => exact (List.append_nil _).symm
  | cons e events ih =>
    rw [afterAll_cons, ih, after_event_observed, List.flatMap_cons, List.flatMap_append,
      List.append_assoc]

/-! ## What is reported -/

/-- The error that is reported, if one is. -/
def Notice.error? : Notice → Option StoreError
  | addFailed _ _ e => some e
  | removeFailed _ _ e => some e
  | replaceFailed _ _ _ e => some e
  | sweepFailed _ _ _ e => some e
  | firstCallFailed _ e => some e
  | secondCallFailed _ e => some e
  | _ => none

/-- The notice reports no error, or that of a method that is refused. -/
def Notice.BlamesMethod (n : Notice) : Prop := n.error? = none ∨ n.error? = some refusal

theorem Effect.blamesMethod_told (x : Effect) (refused : List StoreMethod) (name : EventName) :
    ∀ n ∈ x.told refused name, n.BlamesMethod := by
  cases x with
  | add tuples =>
    rw [told]
    split
    · exact List.forall_mem_map.2 fun _ _ => .inr rfl
    · exact List.forall_mem_map.2 fun _ _ => .inl rfl
  | remove t =>
    rw [told]
    split
    · exact List.forall_mem_singleton.2 (.inr rfl)
    · exact List.forall_mem_singleton.2 (.inl rfl)
  | replace stale fresh =>
    rw [told]
    split
    · exact List.forall_mem_cons.2 ⟨.inr rfl, List.forall_mem_singleton.2 (.inr rfl)⟩
    · split
      · exact List.forall_mem_cons.2 ⟨.inr rfl, List.forall_mem_singleton.2 (.inr rfl)⟩
      · exact List.forall_mem_cons.2 ⟨.inl rfl, List.forall_mem_singleton.2 (.inl rfl)⟩
  | sweep kind id =>
    rw [told]
    split
    · exact List.forall_mem_singleton.2 (.inr rfl)
    · exact List.forall_mem_singleton.2 (.inl rfl)
  | nothingToUpdate kind id => exact List.forall_mem_singleton.2 (.inl rfl)
  | keepLink l => exact List.forall_mem_singleton.2 (.inl rfl)
  | nothingToSweep kind => exact List.forall_mem_singleton.2 (.inl rfl)

theorem blamesMethod_told (refused : List StoreMethod) (e : Event) :
    ∀ n ∈ told refused e, n.BlamesMethod := by
  intro n hn
  obtain ⟨x, -, hn⟩ := List.mem_flatMap.1 hn
  exact x.blamesMethod_told refused e.name n hn

/-! ## Two runs -/

/-- **The synchronizer is blind to what is stored, and never at fault.** Open it on two stores in memory
that refuse the same methods, and publish the same events to both. The same calls are made of both, and
the same is reported. Every call changes tuples without asking for any, every tuple it writes can be
written, and it is granted by every store in memory; so whatever failure is reported of a further event
is that of a method that is refused. -/
theorem publishAll_blind (capacity : Nat) (refused : List StoreMethod) (start start' : MemoryStore) :
    ∃ r r' : Runtime (Observed MemoryStore),
      Runtime.open (Local.new capacity) ⟨start, [], refused⟩ = .ok r ∧
      Runtime.open (Local.new capacity) ⟨start', [], refused⟩ = .ok r' ∧
      ∀ events : List Event,
        let o := (r.publishAll events).store
        let o' := (r'.publishAll events).store
        o.calls = o'.calls ∧
        (∀ c ∈ o.calls, c.IsBlind ∧ c.IsGranted) ∧
        ∀ e : Event, ((handle e).run o).1 = ((handle e).run o').1 ∧
          ∀ n ∈ ((handle e).run o).1, n.BlamesMethod := by
  obtain ⟨r, hopen, hwaiting, hstore⟩ :=
    Runtime.exists_open capacity (⟨start, [], refused⟩ : Observed MemoryStore)
  obtain ⟨r', hopen', hwaiting', hstore'⟩ :=
    Runtime.exists_open capacity (⟨start', [], refused⟩ : Observed MemoryStore)
  refine ⟨r, r', hopen, hopen', fun events => ?_⟩
  intro o o'
  have ho : o = afterAll events ⟨start, [], refused⟩ :=
    hstore ▸ (hwaiting.publishAll events).2
  have ho' : o' = afterAll events ⟨start', [], refused⟩ :=
    hstore' ▸ (hwaiting'.publishAll events).2
  have hcalls : o.calls = (events.flatMap effects).flatMap (Effect.attempts refused) := by
    rw [ho, calls_afterAll]
    rfl
  have hcalls' : o'.calls = (events.flatMap effects).flatMap (Effect.attempts refused) := by
    rw [ho', calls_afterAll]
    rfl
  have hrefused : o.refused = refused := by rw [ho, refused_afterAll]
  have hrefused' : o'.refused = refused := by rw [ho', refused_afterAll]
  refine ⟨hcalls.trans hcalls'.symm, ?_, fun e => ?_⟩
  · intro c hc
    rw [hcalls] at hc
    obtain ⟨x, hx, hc⟩ := List.mem_flatMap.1 hc
    obtain ⟨e, -, hx⟩ := List.mem_flatMap.1 hx
    have hblind : c.IsBlind := isBlind_of_mem_attempts hx hc
    exact ⟨hblind, hblind.isGranted⟩
  · rw [handle_observed, handle_observed, hrefused, hrefused']
    exact ⟨rfl, blamesMethod_told refused e⟩

end Sync
end TupleSync
