import TupleSync.Proofs.Check.Completeness

/-!
# What a grant rests on

**A check that says yes has a chain of stored tuples to show for it.** The search reads its way from
subject to subject: it cuts `support_group:3#member` into an object and a relation and goes on from
there. The chain undoes that. Each of its tuples is written as it stands in the store, its subject put
together again from the object and the relation of the next one, and the last tuple has the very subject
that was asked for.

Nothing is asked of the tuples, so no spelling of types, ids or relations and no order of the store can
make the search grant what no tuple says.
-/

set_option autoImplicit false

namespace TupleSync.Check

variable {tuples : List Tuple} {subject : Ref} {n m : Node}

/-- A chain of userset hops, written in stored tuples: the `i`-th tuple gives a relation on an object to
the userset that the next relation on the next object is, and the last gives it to the subject of `r`. -/
structure GrantChain (tuples : List Tuple) (r : Tuple) (hops : Nat) (relation : Nat → String)
    (object : Nat → Ref) : Prop where
  relation_zero : relation 0 = r.relation
  /-- The object that is asked about, its id cut at the first hash. -/
  object_zero : object 0 = ⟨r.objectType, r.object.id, none⟩
  hash_not_mem_id : ∀ i ≤ hops, '#' ∉ (object i).id.toList
  hop : ∀ i < hops,
    ⟨(object (i + 1)).kind, (object (i + 1)).id ++ "#" ++ relation (i + 1),
      relation i, (object i).kind, (object i).id⟩ ∈ tuples
  grant : ⟨r.userType, r.userId, relation hops, (object hops).kind, (object hops).id⟩ ∈ tuples

/-- The subject of a hop is the next node's object with its relation behind it. -/
theorem mem_tuples_of_mem_usersets (h : m ∈ usersets tuples n) :
    ⟨m.object.kind, m.object.id ++ "#" ++ m.relation, n.relation, n.object.kind, n.object.id⟩ ∈
      tuples := by
  obtain ⟨-, t, ht, hrelation, htype, hid, huser⟩ := mem_usersets_iff.1 h
  have hkind : t.userType = m.object.kind := by
    rw [← Ref.kind_ofParts t.userType t.userId, ← Tuple.user, huser]
  have hidText : t.userId = m.object.id ++ "#" ++ m.relation := by
    rw [← Ref.idText_ofParts t.userType t.userId, ← Tuple.user, huser]
    rfl
  rw [← hkind, ← hidText, ← hrelation, ← htype, ← hid]
  exact ht

theorem hash_not_mem_id_of_mem_usersets (h : m ∈ usersets tuples n) : '#' ∉ m.object.id.toList := by
  obtain ⟨-, t, -, -, -, -, huser⟩ := mem_usersets_iff.1 h
  have hid : t.user.id = m.object.id := by rw [huser]
  rw [← hid]
  exact Ref.hash_not_mem_id_ofParts t.userType t.userId

/-- The nodes of a chain, by number. -/
theorem GrantsThrough.exists_nodes {via : List Node} (h : GrantsThrough tuples subject n via) :
    ∃ node : Nat → Node, node 0 = n ∧
      (∀ i < via.length, node (i + 1) ∈ usersets tuples (node i)) ∧
        direct subject (node via.length) ∈ tuples := by
  induction via generalizing n with
  | nil => exact ⟨fun _ => n, rfl, fun _ hi => absurd hi (Nat.not_lt_zero _), h⟩
  | cons m rest ih =>
    obtain ⟨hhop, hrest⟩ := h
    obtain ⟨node, rfl, hnode, hgrant⟩ := ih hrest
    refine ⟨fun | 0 => n | i + 1 => node i, rfl, ?_, hgrant⟩
    intro i hi
    cases i with
    | zero => exact hhop
    | succ i => exact hnode i (Nat.lt_of_succ_lt_succ hi)

/-- A chain of nodes for a subject is a chain of stored tuples. -/
theorem GrantsThrough.exists_grantChain {r : Tuple} {via : List Node}
    (h : GrantsThrough tuples r.user (root r) via) :
    ∃ relation object, GrantChain tuples r via.length relation object := by
  obtain ⟨node, hzero, hnode, hgrant⟩ := h.exists_nodes
  refine ⟨fun i => (node i).relation, fun i => ⟨(node i).object.kind, (node i).object.id, none⟩, ?_⟩
  constructor
  · rw [hzero]
    rfl
  · rw [hzero, root, Tuple.object, Ref.kind_ofParts]
  · intro i hi
    cases i with
    | zero =>
      rw [hzero]
      exact Ref.hash_not_mem_id_ofParts r.objectType r.objectId
    | succ i => exact hash_not_mem_id_of_mem_usersets (hnode i hi)
  · exact fun i hi => mem_tuples_of_mem_usersets (hnode i hi)
  · rw [direct_user] at hgrant
    exact hgrant

/-- **A check that says yes rests on a chain of stored tuples**, ten userset hops long at most. -/
theorem exists_grantChain_of_check {r : Tuple} {s : MemoryStore}
    (h : ((TupleStore.check r : StoreM MemoryStore Bool).run s).1 = .ok true) :
    ∃ hops relation object, hops ≤ 10 ∧ GrantChain s.tuples r hops relation object := by
  have hr : r.IsComplete := by
    by_contra hr
    rw [MemoryStore.run_check_of_not_complete hr] at h
    cases h
  rw [MemoryStore.run_check_of_complete hr] at h
  obtain ⟨via, hlength, hvia, -⟩ := (holds_iff r).1 (Except.ok.inj h)
  obtain ⟨relation, object, hchain⟩ := hvia.exists_grantChain
  exact ⟨via.length, relation, object, hlength, hchain⟩

/-- A service that one group's members see. That group and another one hold each other's members, and the
user is a member of the other one. -/
def sharedService : MemoryStore :=
  ⟨[⟨"support_group", "1#member", "can_view", "service", "5"⟩,
    ⟨"support_group", "2#member", "member", "support_group", "1"⟩,
    ⟨"support_group", "1#member", "member", "support_group", "2"⟩,
    ⟨"user", "7", "member", "support_group", "2"⟩], by decide⟩

/-- A user sees the service through two groups that hold each other. -/
theorem exists_grantChain_of_check_shared :
    ((TupleStore.check ⟨"user", "7", "can_view", "service", "5"⟩ : StoreM MemoryStore Bool).run
      sharedService).1 = .ok true ∧
    ∃ hops relation object, hops ≤ 10 ∧
      GrantChain sharedService.tuples ⟨"user", "7", "can_view", "service", "5"⟩ hops relation
        object := by
  have h : ((TupleStore.check ⟨"user", "7", "can_view", "service", "5"⟩ :
      StoreM MemoryStore Bool).run sharedService).1 = .ok true := rfl
  exact ⟨h, exists_grantChain_of_check h⟩

end TupleSync.Check
