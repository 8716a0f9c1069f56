import Mathlib.Data.List.Perm.Subperm
import Mathlib.Logic.Relation
import TupleSync.Proofs.Check.Shallow

/-!
# Where a check finds all that can be reached

**Eleven nodes fit on a path of ten hops, so among eleven nodes nothing is too deep to be found.** A
search may meet a node at the end of a long way and leave its usersets untried, but then the way there
has used up a level for each of ten other nodes, and there is no twelfth that it could have missed.
`Spent` is that count: a visit with few levels left has many others before it.

A search that fails has therefore entered whatever can be reached, however the usersets run in circles
or meet again, and no node that it entered was a grant. This needs that a mark tells the node. It does if
no relation has a space in it and no type has a colon.
-/

set_option autoImplicit false

namespace TupleSync.Check

variable {tuples : List Tuple} {subject : Ref} {n m k : Node}

/-! ## What can be reached -/

/-- Usersets lead from one node to the other, over any number of hops. -/
def Reachable (tuples : List Tuple) : Node → Node → Prop :=
  Relation.ReflTransGen fun n m => m ∈ usersets tuples n

theorem HopsTo.reachable {hops : List Node} (h : HopsTo tuples n hops m) : Reachable tuples n m := by
  induction hops generalizing n with
  | nil =>
    obtain rfl : n = m := h
    exact .refl
  | cons k rest ih =>
    obtain ⟨hhop, hrest⟩ := h
    exact .head hhop (ih hrest)

theorem GrantsThrough.exists_reachable {via : List Node} (h : GrantsThrough tuples subject n via) :
    ∃ m, Reachable tuples n m ∧ direct subject m ∈ tuples := by
  induction via generalizing n with
  | nil => exact ⟨n, .refl, h⟩
  | cons k rest ih =>
    obtain ⟨hhop, hrest⟩ := h
    obtain ⟨m, hm, hgrant⟩ := ih hrest
    exact ⟨m, .head hhop hm, hgrant⟩

/-- Nodes that have all their usersets among them have all that can be reached from one of them. -/
theorem Reachable.mem_of_closed {nodes : List Node} (h : Reachable tuples n m) (hn : n ∈ nodes)
    (hclosed : ∀ k ∈ nodes, ∀ m ∈ usersets tuples k, m ∈ nodes) : m ∈ nodes := by
  induction h with
  | refl => exact hn
  | tail _ hhop ih => exact hclosed _ ih _ hhop

theorem Reachable.relation_eq_none (h : Reachable tuples n m) (hn : n.object.relation = none) :
    m.object.relation = none := by
  cases h with
  | refl => exact hn
  | tail _ hhop => exact (mem_usersets_iff.1 hhop).1

/-! ## Marks -/

/-- A mark can be cut at the separators that it was joined at. -/
structure Node.HasPlainNames (n : Node) : Prop where
  relation : ' ' ∉ n.relation.toList
  kind : ':' ∉ n.object.kind.toList

instance (n : Node) : Decidable n.HasPlainNames :=
  decidable_of_iff (' ' ∉ n.relation.toList ∧ ':' ∉ n.object.kind.toList)
    ⟨fun h => ⟨h.1, h.2⟩, fun h => ⟨h.relation, h.kind⟩⟩

theorem mark_eq (subject : Ref) (n : Node) :
    mark subject n =
      subject.text ++ " " ++ (n.relation ++ String.singleton ' ' ++ n.object.text) := by
  simp only [mark, String.append_assoc]
  rfl

/-- **Where names are plain, a mark tells the node**: the subject is the same in front of both, the
relation ends at the first space, the type at the first colon. -/
theorem mark_inj (hn : n.HasPlainNames) (hm : m.HasPlainNames) (hnone : n.object.relation = none)
    (hnone' : m.object.relation = none) (h : mark subject n = mark subject m) : n = m := by
  obtain ⟨relation, kind, id, _⟩ := n
  obtain ⟨relation', kind', id', _⟩ := m
  subst hnone
  subst hnone'
  rw [mark_eq, mark_eq, String.append_right_inj] at h
  obtain ⟨rfl, hobject⟩ := Text.append_inj_of_not_mem hn.relation hm.relation h
  obtain ⟨rfl, rfl⟩ := Text.append_inj_of_not_mem hn.kind hm.kind hobject
  rfl

/-! ## Levels -/

/-- Every new visit has as many others with it as it took levels to come there. -/
structure Spent (levels : Nat) (visits visits' : List Visit) : Prop where
  length_le : visits.length ≤ visits'.length
  lt_add : ∀ v ∈ visits', v ∈ visits ∨ levels + visits.length < v.levels + visits'.length

section Spent

variable {levels : Nat} {visits between visits' : List Visit}

theorem Spent.refl (levels : Nat) (visits : List Visit) : Spent levels visits visits :=
  ⟨Nat.le_refl _, fun _ hv => Or.inl hv⟩

theorem Spent.trans (h : Spent levels visits between) (h' : Spent levels between visits') :
    Spent levels visits visits' := by
  have hfirst := h.length_le
  have hlast := h'.length_le
  refine ⟨Nat.le_trans hfirst hlast, fun v hv => ?_⟩
  rcases h'.lt_add v hv with hbetween | hlt
  · rcases h.lt_add v hbetween with hold | hlt
    · exact Or.inl hold
    · exact Or.inr (by omega)
  · exact Or.inr (by omega)

/-- To enter a node takes a level, and makes one visit. -/
theorem Spent.of_enter (h : Spent levels (⟨n, levels + 1⟩ :: visits) visits') :
    Spent (levels + 1) visits visits' := by
  obtain ⟨hlength, hlt⟩ := h
  simp only [List.length_cons] at hlength hlt
  refine ⟨by omega, fun v hv => ?_⟩
  rcases hlt v hv with hold | hlt
  · rcases List.mem_cons.1 hold with rfl | hold
    · exact Or.inr (by simp only; omega)
    · exact Or.inl hold
  · exact Or.inr (by omega)

theorem exploreEach_spent {f : Node → List Visit → Bool × List Visit}
    (hf : ∀ n visits, Spent levels visits (f n visits).2) (ns : List Node) (visits : List Visit) :
    Spent levels visits (exploreEach f ns visits).2 := by
  induction ns generalizing visits with
  | nil => exact .refl levels visits
  | cons n rest ih =>
    rw [exploreEach]
    have hstep := hf n visits
    rcases hn : f n visits with ⟨_ | _, between⟩
    · rw [hn] at hstep
      exact hstep.trans (ih between)
    · rw [hn] at hstep
      exact hstep

theorem explore_spent (levels : Nat) (n : Node) (visits : List Visit) :
    Spent levels visits (explore tuples subject levels n visits).2 := by
  induction levels generalizing n visits with
  | zero => exact .refl 0 visits
  | succ levels ih =>
    rw [explore]
    split
    · exact .refl _ visits
    · split
      · exact Spent.of_enter (.refl _ _)
      · exact (exploreEach_spent ih _ _).of_enter

end Spent

/-! ## A search among few nodes -/

/-- As many visits as there are nodes leave none of the nodes out. -/
theorem exists_visit_of_length_le {nodes : List Node} {visits : List Visit}
    (hnodup : (marks subject visits).Nodup) (hin : ∀ v ∈ visits, v.node ∈ nodes)
    (hlength : nodes.length ≤ visits.length) (hm : m ∈ nodes) : ∃ v ∈ visits, v.node = m := by
  have hdistinct : (visits.map Visit.node).Nodup := by
    refine List.Nodup.of_map (mark subject) ?_
    rwa [List.map_map]
  have hsub : visits.map Visit.node ⊆ nodes := by
    intro k hk
    obtain ⟨v, hv, rfl⟩ := List.mem_map.1 hk
    exact hin v hv
  have hperm := (hdistinct.subperm hsub).perm_of_length_le (by rwa [List.length_map])
  exact List.mem_map.1 (hperm.mem_iff.2 hm)

section Few

variable {levels : Nat} {nodes : List Node} {visits : List Visit}

theorem reachable_of_mem_explore (h : explore tuples subject levels n [] = (false, visits))
    {v : Visit} (hv : v ∈ visits) : Reachable tuples n v.node := by
  have hreached := @explore_reached tuples subject levels n [] v
  rw [h] at hreached
  rcases hreached hv with hold | ⟨hops, hhops, -⟩
  · exact absurd hold List.not_mem_nil
  · exact hhops.reachable

/-- **A search that fails among few nodes leaves no userset untried**, whatever level it came from. -/
theorem marked_of_few (h : explore tuples subject levels n [] = (false, visits))
    (hfew : nodes.length ≤ levels) (hall : ∀ m, Reachable tuples n m → m ∈ nodes) {v : Visit}
    (hv : v ∈ visits) (hm : m ∈ usersets tuples v.node) : mark subject m ∈ marks subject visits := by
  have hreach : Reachable tuples n v.node := reachable_of_mem_explore h hv
  by_cases hlevels : 1 < v.levels
  · rcases (explore_failed _ _ _ _ h).settled v hv with hold | hsettled
    · exact absurd hold List.not_mem_nil
    · exact hsettled.2 hlevels m hm
  · -- on the last level the count is full, so the userset was entered on another way
    have hspent := @explore_spent tuples subject levels n []
    have hnodup := @explore_nodup tuples subject levels n [] List.nodup_nil
    rw [h] at hspent hnodup
    have hlength : nodes.length ≤ visits.length := by
      rcases hspent.lt_add v hv with hold | hlt
      · exact absurd hold List.not_mem_nil
      · simp only [List.length_nil] at hlt
        omega
    have hin : ∀ w ∈ visits, w.node ∈ nodes := fun w hw => hall _ (reachable_of_mem_explore h hw)
    obtain ⟨w, hw, rfl⟩ := exists_visit_of_length_le hnodup hin hlength (hall m (hreach.tail hm))
    exact List.mem_map_of_mem hw

/-- **A search that fails among few nodes has entered all that can be reached.** The induction is on the
way there from its end; a mark that is met was left by the node itself. -/
theorem exists_visit_of_reachable (h : explore tuples subject levels n [] = (false, visits))
    (hpos : 0 < levels) (hfew : nodes.length ≤ levels) (hall : ∀ m, Reachable tuples n m → m ∈ nodes)
    (hmark : ∀ k m, Reachable tuples n k → Reachable tuples n m → mark subject k = mark subject m →
      k = m) (hm : Reachable tuples n m) : ∃ v ∈ visits, v.node = m := by
  have hvisit : ∀ {m}, Reachable tuples n m → mark subject m ∈ marks subject visits →
      ∃ v ∈ visits, v.node = m := by
    intro m hm hmarked
    obtain ⟨v, hv, heq⟩ := List.mem_map.1 hmarked
    exact ⟨v, hv, hmark _ _ (reachable_of_mem_explore h hv) hm heq⟩
  induction hm with
  | refl => exact hvisit .refl ((explore_failed _ _ _ _ h).marked hpos n List.mem_cons_self)
  | tail hreach hhop ih =>
    obtain ⟨v, hv, rfl⟩ := ih
    exact hvisit (hreach.tail hhop) (marked_of_few h hfew hall hv hhop)

/-- **Among few nodes a search says yes exactly if a grant can be reached.** -/
theorem explore_iff_of_few (hpos : 0 < levels) (hfew : nodes.length ≤ levels)
    (hall : ∀ m, Reachable tuples n m → m ∈ nodes)
    (hmark : ∀ k m, Reachable tuples n k → Reachable tuples n m → mark subject k = mark subject m →
      k = m) :
    (explore tuples subject levels n []).1 = true ↔
      ∃ m, Reachable tuples n m ∧ direct subject m ∈ tuples := by
  rcases h : explore tuples subject levels n [] with ⟨_ | _, visits⟩
  · constructor
    · intro hno
      cases hno
    · intro hboth
      obtain ⟨m, hm, hgrant⟩ := hboth
      obtain ⟨v, hv, rfl⟩ := exists_visit_of_reachable h hpos hfew hall hmark hm
      rcases (explore_failed _ _ _ _ h).settled v hv with hold | hsettled
      · exact absurd hold List.not_mem_nil
      · exact absurd hgrant hsettled.1
  · constructor
    · intro _
      obtain ⟨via, hvia, -⟩ := explore_found _ _ _ _ h
      exact hvia.exists_reachable
    · intro _
      rfl

end Few

/-- **What a check decides among eleven nodes.** If no more than eleven nodes can be reached and their
names are plain, a complete query is answered, and with yes exactly if some node that can be reached, over
any number of hops, is given to the subject by a stored tuple. -/
theorem check_iff_reachable {s : MemoryStore} {r : Tuple} {nodes : List Node} (hr : r.IsComplete)
    (hobject : '#' ∉ r.objectId.toList)
    (hnames : ∀ m, Reachable s.tuples (root r) m → m.HasPlainNames) (hfew : nodes.length ≤ 11)
    (hall : ∀ m, Reachable s.tuples (root r) m → m ∈ nodes) :
    ∃ answer, (TupleStore.check r : StoreM MemoryStore Bool).run s = (.ok answer, s) ∧
      (answer = true ↔ ∃ m, Reachable s.tuples (root r) m ∧
        ⟨r.userType, r.userId, m.relation, m.object.kind, m.object.id⟩ ∈ s.tuples) := by
  have hnone : (root r).object.relation = none := by
    rw [root, Tuple.object, Ref.ofParts_of_not_mem hobject]
  have hmark : ∀ k m, Reachable s.tuples (root r) k → Reachable s.tuples (root r) m →
      mark r.user k = mark r.user m → k = m := by
    intro k m hk hm heq
    exact mark_inj (hnames k hk) (hnames m hm) (hk.relation_eq_none hnone)
      (hm.relation_eq_none hnone) heq
  refine ⟨_, MemoryStore.run_check_of_complete hr s, ?_⟩
  rw [holds_eq_explore, explore_iff_of_few (Nat.succ_pos maxHops) hfew hall hmark]
  simp only [direct_user]

/-- Eleven groups in a circle, each also within itself, with a user in the last. -/
def circle : MemoryStore :=
  ⟨((List.range 11).flatMap fun i => [nested i i, nested i ((i + 1) % 11)]) ++
    [⟨"user", "1", "member", "group", "10"⟩], by decide⟩

/-- The members of the groups of the circle. -/
def circleNodes : List Node := (List.range 11).map fun i => ⟨"member", ⟨"group", i.repr, none⟩⟩

/-- The user is found ten hops away, where the eleventh hop leads back to the start. -/
theorem check_iff_reachable_circle :
    circleNodes.length = 11 ∧
    ∃ answer, (TupleStore.check ⟨"user", "1", "member", "group", "0"⟩ : StoreM MemoryStore Bool).run
        circle = (.ok answer, circle) ∧
      (answer = true ↔ ∃ m, Reachable circle.tuples ⟨"member", ⟨"group", "0", none⟩⟩ m ∧
        ⟨"user", "1", m.relation, m.object.kind, m.object.id⟩ ∈ circle.tuples) := by
  have hall : ∀ m, Reachable circle.tuples (root ⟨"user", "1", "member", "group", "0"⟩) m →
      m ∈ circleNodes := fun m hm => hm.mem_of_closed (by decide) (by decide)
  have hnames : ∀ m ∈ circleNodes, m.HasPlainNames := by decide
  have hfew : circleNodes.length ≤ 11 := by decide
  exact ⟨rfl, check_iff_reachable (by decide) (by decide) (fun m hm => hnames m (hall m hm)) hfew
    hall⟩

end TupleSync.Check
