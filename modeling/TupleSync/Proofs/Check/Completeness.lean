import Mathlib.Data.List.Nodup
import TupleSync.Proofs.Check.Visits

/-!
# What a check finds

**A check says yes exactly if some chain to a grant has no visit in its way**, and a chain of ten hops at
most can have one. Two things stand in the way of a chain. A node of it may have the mark of another
node, and then it counts as visited without having been looked at. And a node inside it may have been
entered on the last level, at the end of a longer path, and then its usersets are never tried.

What the search decides is therefore less than the existence of a short chain. There is a grant one hop
away that is not found, and two stores with the same tuples answer differently because they yield them in
different orders. In both cases nothing is wrong with the tuples.
-/

set_option autoImplicit false

namespace TupleSync.Check

variable {tuples : List Tuple} {subject : Ref}

/-- No visit stands in the way of the nodes: none has the mark of a node without being that node, and
none that is at a node before the last was made on the last level. -/
def Unhindered (subject : Ref) (visits : List Visit) (ns : List Node) : Prop :=
  ∀ v ∈ visits, (∀ n ∈ ns, mark subject v.node = mark subject n → v.node = n) ∧
    (v.node ∈ ns.dropLast → 1 < v.levels)

/-! ## A chain that is unhindered is found -/

/-- **Where every visit is settled, no chain that starts at a visited mark is unhindered.** The mark is
handed on from node to node, until the last one is visited and is no grant. -/
theorem not_unhindered_of_settled {visits : List Visit}
    (hsettled : ∀ v ∈ visits, Settled tuples subject visits v) (n : Node) (via : List Node)
    (hmarked : mark subject n ∈ marks subject visits) (hvia : GrantsThrough tuples subject n via) :
    ¬Unhindered subject visits (n :: via) := by
  intro hfree
  induction via generalizing n with
  | nil =>
    obtain ⟨v, hv, hmark⟩ := List.mem_map.1 hmarked
    have hnode : v.node = n := (hfree v hv).1 n List.mem_cons_self hmark
    subst hnode
    exact (hsettled v hv).1 hvia
  | cons m rest ih =>
    obtain ⟨hhop, hrest⟩ := hvia
    -- the mark is the node's own, so it was entered, and with a level left for its usersets
    obtain ⟨v, hv, hmark⟩ := List.mem_map.1 hmarked
    have hnode : v.node = n := (hfree v hv).1 n List.mem_cons_self hmark
    subst hnode
    have hlevels : 1 < v.levels := (hfree v hv).2 List.mem_cons_self
    refine ih m ((hsettled v hv).2 hlevels m hhop) hrest ?_
    intro w hw
    obtain ⟨hown, hinner⟩ := hfree w hw
    refine ⟨fun k hk => hown k (List.mem_cons_of_mem _ hk), fun hk => hinner ?_⟩
    exact List.mem_cons_of_mem _ hk

/-! ## A chain that is found is unhindered -/

theorem Entered.length_le {visits : List Visit} {levels : Nat} {ns : List Node}
    (h : Entered visits levels ns) : ns.length ≤ levels := by
  induction ns generalizing levels with
  | nil => exact Nat.zero_le _
  | cons n rest ih =>
    obtain ⟨hpos, -, hrest⟩ := h
    have hle : rest.length ≤ levels - 1 := ih hrest
    rw [List.length_cons]
    omega

theorem Entered.exists_visit {visits : List Visit} {levels : Nat} {ns : List Node} {n : Node}
    (h : Entered visits levels ns) (hn : n ∈ ns) : ∃ l, (⟨n, l⟩ : Visit) ∈ visits := by
  induction ns generalizing levels with
  | nil => exact absurd hn List.not_mem_nil
  | cons m rest ih =>
    obtain ⟨-, hvisit, hrest⟩ := h
    rcases List.mem_cons.1 hn with rfl | hn
    · exact ⟨levels, hvisit⟩
    · exact ih hrest hn

/-- Before the last node there was a level left for the next one. -/
theorem Entered.exists_inner_visit {visits : List Visit} {levels : Nat} {ns : List Node} {n : Node}
    (h : Entered visits levels ns) (hn : n ∈ ns.dropLast) :
    ∃ l, 1 < l ∧ (⟨n, l⟩ : Visit) ∈ visits := by
  induction ns generalizing levels with
  | nil => exact absurd hn List.not_mem_nil
  | cons m rest ih =>
    cases rest with
    | nil => exact absurd hn List.not_mem_nil
    | cons k rest =>
      obtain ⟨-, hvisit, hrest⟩ := h
      rcases List.mem_cons.1 hn with rfl | hn
      · have hpos : 0 < levels - 1 := hrest.1
        exact ⟨levels, by omega, hvisit⟩
      · exact ih hrest hn

/-- No two visits leave the same mark, so one at a node of the chain is the chain's own. -/
theorem Entered.unhindered {visits : List Visit} {levels : Nat} {ns : List Node}
    (h : Entered visits levels ns) (hnodup : (marks subject visits).Nodup) :
    Unhindered subject visits ns := by
  intro v hv
  constructor
  · intro n hn hmark
    obtain ⟨l, hvisit⟩ := h.exists_visit hn
    rw [List.inj_on_of_nodup_map hnodup hv hvisit hmark]
  · intro hinner
    obtain ⟨l, hl, hvisit⟩ := h.exists_inner_visit hinner
    have hsame : v = ⟨v.node, l⟩ := List.inj_on_of_nodup_map hnodup hv hvisit rfl
    rw [hsame]
    exact hl

/-! ## What a check decides -/

/-- Where the check of a tuple starts. -/
def root (r : Tuple) : Node := ⟨r.relation, r.object⟩

/-- The nodes that the check of a tuple enters. -/
def visited (tuples : List Tuple) (r : Tuple) : List Visit :=
  (explore tuples r.user (maxHops + 1) (root r) []).2

theorem holds_eq_explore (r : Tuple) :
    holds tuples r.user r.relation r.object =
      (explore tuples r.user (maxHops + 1) (root r) []).1 := by
  have h := @search_eq_explore tuples r.user (maxHops + 1) (root r) []
  rw [holds]
  exact congrArg Prod.fst h

/-- **The search says yes exactly if a chain of so many hops at most is unhindered.** -/
theorem holds_iff (r : Tuple) :
    holds tuples r.user r.relation r.object = true ↔
      ∃ via, via.length ≤ maxHops ∧ GrantsThrough tuples r.user (root r) via ∧
        Unhindered r.user (visited tuples r) (root r :: via) := by
  rw [holds_eq_explore, visited]
  rcases h : explore tuples r.user (maxHops + 1) (root r) [] with ⟨_ | _, visits⟩
  · -- the search failed, so all that it visited is settled
    have hfailed := explore_failed _ _ _ _ h
    have hmarked := hfailed.marked (Nat.succ_pos _) _ List.mem_cons_self
    have hsettled : ∀ v ∈ visits, Settled tuples r.user visits v := by
      intro v hv
      rcases hfailed.settled v hv with hold | hsettled
      · exact absurd hold List.not_mem_nil
      · exact hsettled
    constructor
    · intro hno
      cases hno
    · intro hboth
      obtain ⟨via, -, hvia, hfree⟩ := hboth
      exact absurd hfree (not_unhindered_of_settled hsettled _ via hmarked hvia)
  · constructor
    · intro _
      -- the search succeeded on a chain that it entered itself
      obtain ⟨via, hvia, hentered⟩ := explore_found _ _ _ _ h
      have hnodup := @explore_nodup tuples r.user (maxHops + 1) (root r) [] List.nodup_nil
      rw [h] at hnodup
      refine ⟨via, ?_, hvia, hentered.unhindered hnodup⟩
      exact Nat.le_of_succ_le_succ hentered.length_le
    · intro _
      rfl

/-- **What a check decides, for every store and query.** A complete query is granted exactly if a chain
of ten userset hops at most leads from its relation and object to its subject, and no visit of the search
stands in the way of that chain. -/
theorem check_eq_true_iff (r : Tuple) (s : MemoryStore) :
    (TupleStore.check r : StoreM MemoryStore Bool).run s = (.ok true, s) ↔
      r.IsComplete ∧ ∃ via, via.length ≤ maxHops ∧ GrantsThrough s.tuples r.user (root r) via ∧
        Unhindered r.user (visited s.tuples r) (root r :: via) := by
  by_cases hr : r.IsComplete
  · rw [MemoryStore.run_check_of_complete hr, ← holds_iff]
    constructor
    · intro h
      have hanswer : Except.ok (holds s.tuples r.user r.relation r.object) = .ok true :=
        congrArg Prod.fst h
      exact ⟨hr, Except.ok.inj hanswer⟩
    · intro hboth
      obtain ⟨-, h⟩ := hboth
      rw [h]
  · rw [MemoryStore.run_check_of_not_complete hr]
    constructor
    · intro h
      cases congrArg Prod.fst h
    · intro hboth
      obtain ⟨hr', -⟩ := hboth
      exact absurd hr' hr

/-! ## Grants that are missed -/

/-- Team 7 of an app, written twice: its type and id are cut at one colon or at the other. -/
def namesakes : MemoryStore :=
  ⟨[⟨"app:team", "7#member", "member", "app", "team:7"⟩, ⟨"user", "1", "member", "app:team", "7"⟩],
    by decide⟩

/-- **A grant that is one hop away is not found.** The two nodes of the chain are different objects with
one text, so the second counts as visited when the first is entered. -/
theorem exists_check_misses :
    ∃ (s : MemoryStore) (r : Tuple) (via : List Node),
      r.IsComplete ∧ '#' ∉ r.objectId.toList ∧ via.length ≤ maxHops ∧
        GrantsThrough s.tuples r.user (root r) via ∧
          (TupleStore.check r : StoreM MemoryStore Bool).run s = (.ok false, s) := by
  refine ⟨namesakes, ⟨"user", "1", "member", "app", "team:7"⟩,
    [⟨"member", ⟨"app:team", "7", none⟩⟩], ?_, ?_, ?_, ⟨?_, ?_⟩, rfl⟩
  · decide
  · decide
  · decide
  · decide
  · show direct _ _ ∈ namesakes.tuples
    decide

/-- The members of the inner group are members of the outer one. -/
def nested (outer inner : Nat) : Tuple :=
  ⟨"group", inner.repr ++ "#member", "member", "group", outer.repr⟩

/-- Twelve groups, each in the one before it, with a user in the last. The first also holds the last but
one directly. -/
def ladder : List Tuple :=
  ((List.range 11).map fun i => nested i (i + 1)) ++
    [nested 0 10, ⟨"user", "1", "member", "group", "11"⟩]

theorem nodup_ladder : ladder.Nodup := by decide

/-- **The answer depends on the order of the tuples.** In one order the long way down comes first, and
reaches the last group but one with no level left; in the other the short way comes first. -/
theorem exists_orders_disagree :
    ∃ (s s' : MemoryStore) (r : Tuple), (∀ t, t ∈ s ↔ t ∈ s') ∧
      (TupleStore.check r : StoreM MemoryStore Bool).run s = (.ok false, s) ∧
        (TupleStore.check r : StoreM MemoryStore Bool).run s' = (.ok true, s') := by
  refine ⟨⟨ladder, nodup_ladder⟩, ⟨ladder.reverse, List.nodup_reverse.2 nodup_ladder⟩,
    ⟨"user", "1", "member", "group", "0"⟩, ?_, rfl, rfl⟩
  intro t
  exact List.mem_reverse.symm

end TupleSync.Check
