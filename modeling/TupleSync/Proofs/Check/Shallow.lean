import TupleSync.Proofs.Check.Completeness

/-!
# Where a check misses nothing

**Among nodes that all have their own marks, a check is complete if no way through them that repeats no
node has ten hops.** Then no node is ever entered on the last level, so nothing can stand in the way of a
chain. Neither condition speaks of the search or of the order of the tuples, and so the answer does not
depend on that order either.

What carries this is that a visit remembers how it was reached: by hops through nodes that had not been
visited before, one level each.
-/

set_option autoImplicit false

namespace TupleSync.Check

variable {tuples : List Tuple} {subject : Ref} {n m k : Node}

/-- Usersets, each of the one before it, that lead from one node to another. -/
def HopsTo (tuples : List Tuple) : Node → List Node → Node → Prop
  | n, [], m => n = m
  | n, k :: rest, m => k ∈ usersets tuples n ∧ HopsTo tuples k rest m

/-- The node was reached by hops that repeat no mark, and not through what was visited before. -/
def Reached (tuples : List Tuple) (subject : Ref) (levels : Nat) (n : Node) (before : List Visit)
    (v : Visit) : Prop :=
  ∃ via, HopsTo tuples n via v.node ∧ v.levels + via.length = levels ∧
    ((n :: via).map (mark subject)).Nodup ∧ ∀ k ∈ n :: via, mark subject k ∉ marks subject before

theorem exploreEach_reached {levels : Nat} {f : Node → List Visit → Bool × List Visit}
    (hmono : ∀ n visits, visits ⊆ (f n visits).2)
    (hf : ∀ n visits, ∀ v ∈ (f n visits).2, v ∈ visits ∨ Reached tuples subject levels n visits v)
    (ns : List Node) (visits : List Visit) :
    ∀ v ∈ (exploreEach f ns visits).2,
      v ∈ visits ∨ ∃ n ∈ ns, Reached tuples subject levels n visits v := by
  induction ns generalizing visits with
  | nil => exact fun v hv => Or.inl hv
  | cons n rest ih =>
    intro v hv
    rw [exploreEach] at hv
    have hstep := hf n visits
    have hsub := hmono n visits
    rcases hn : f n visits with ⟨_ | _, between⟩
    · rw [hn] at hv hstep hsub
      rcases ih between v hv with hold | ⟨m, hm, via, hhops, hlength, hnodup, hnew⟩
      · rcases hstep v hold with hold | hreached
        · exact Or.inl hold
        · exact Or.inr ⟨n, List.mem_cons_self, hreached⟩
      · -- what is new to the later search is new to the earlier one
        refine Or.inr ⟨m, List.mem_cons_of_mem _ hm, via, hhops, hlength, hnodup, ?_⟩
        exact fun k hk hbefore => hnew k hk (marks_mono hsub hbefore)
    · rw [hn] at hv hstep
      rcases hstep v hv with hold | hreached
      · exact Or.inl hold
      · exact Or.inr ⟨n, List.mem_cons_self, hreached⟩

/-- **Every new visit was reached without a repetition**, and each hop has cost a level. -/
theorem explore_reached (levels : Nat) (n : Node) (visits : List Visit) :
    ∀ v ∈ (explore tuples subject levels n visits).2,
      v ∈ visits ∨ Reached tuples subject levels n visits v := by
  induction levels generalizing n visits with
  | zero => exact fun v hv => Or.inl hv
  | succ levels ih =>
    intro v hv
    rw [explore] at hv
    split at hv
    · exact Or.inl hv
    · next hnew =>
      have hself : Reached tuples subject (levels + 1) n visits ⟨n, levels + 1⟩ :=
        ⟨[], rfl, rfl, List.nodup_singleton _, List.forall_mem_singleton.2 hnew⟩
      have hcons : ∀ w ∈ (⟨n, levels + 1⟩ : Visit) :: visits,
          w ∈ visits ∨ Reached tuples subject (levels + 1) n visits w := by
        intro w hw
        rcases List.mem_cons.1 hw with rfl | hw
        · exact Or.inr hself
        · exact Or.inl hw
      split at hv
      · exact hcons v hv
      · rcases exploreEach_reached (explore_mono levels) ih _ _ v hv with hold | ⟨m, hm, hreached⟩
        · exact hcons v hold
        · obtain ⟨via, hhops, hlength, hnodup, hfresh⟩ := hreached
          refine Or.inr ⟨m :: via, ⟨hm, hhops⟩, ?_, ?_, ?_⟩
          · rw [List.length_cons, ← hlength, Nat.add_assoc]
          · -- the node itself was visited before its usersets were tried
            refine List.nodup_cons.2 ⟨?_, hnodup⟩
            intro hrepeat
            obtain ⟨k, hk, heq⟩ := List.mem_map.1 hrepeat
            exact hfresh k hk (heq ▸ List.mem_cons_self)
          · intro k hk
            rcases List.mem_cons.1 hk with rfl | hk
            · exact hnew
            · exact fun hbefore => hfresh k hk (List.mem_cons_of_mem _ hbefore)

/-- Every node of a chain can be hopped to. -/
theorem GrantsThrough.exists_hopsTo {via : List Node} (h : GrantsThrough tuples subject n via)
    (hk : k ∈ n :: via) : ∃ hops, HopsTo tuples n hops k := by
  induction via generalizing n with
  | nil => exact ⟨[], (List.mem_singleton.1 hk).symm⟩
  | cons m rest ih =>
    obtain ⟨hhop, hrest⟩ := h
    rcases List.mem_cons.1 hk with rfl | hk
    · exact ⟨[], rfl⟩
    · obtain ⟨hops, hhops⟩ := ih hrest hk
      exact ⟨m :: hops, hhop, hhops⟩

/-- The nodes that can be hopped to have marks of their own. -/
def Distinct (tuples : List Tuple) (subject : Ref) (n : Node) : Prop :=
  ∀ hops hops' m m', HopsTo tuples n hops m → HopsTo tuples n hops' m' →
    mark subject m = mark subject m' → m = m'

/-- Hops that repeat no node are fewer than a check may take. -/
def Shallow (tuples : List Tuple) (n : Node) : Prop :=
  ∀ hops m, HopsTo tuples n hops m → (n :: hops).Nodup → hops.length < maxHops

/-- **Where nodes are distinct and ways are short, a check says yes exactly if there is a chain.** Nothing
here depends on the order of the tuples. -/
theorem holds_iff_of_shallow {r : Tuple} (hdistinct : Distinct tuples r.user (root r))
    (hshallow : Shallow tuples (root r)) :
    holds tuples r.user r.relation r.object = true ↔
      ∃ via, via.length ≤ maxHops ∧ GrantsThrough tuples r.user (root r) via := by
  rw [holds_iff]
  constructor
  · intro hboth
    obtain ⟨via, hlength, hvia, -⟩ := hboth
    exact ⟨via, hlength, hvia⟩
  · intro hboth
    obtain ⟨via, hlength, hvia⟩ := hboth
    refine ⟨via, hlength, hvia, ?_⟩
    intro v hv
    obtain ⟨hops, hhops, hlevels, hnodup, -⟩ : Reached tuples r.user (maxHops + 1) (root r) [] v := by
      rcases explore_reached _ _ _ v hv with hold | hreached
      · exact absurd hold List.not_mem_nil
      · exact hreached
    constructor
    · intro m hm hmark
      obtain ⟨hops', hhops'⟩ := hvia.exists_hopsTo hm
      exact hdistinct hops hops' _ _ hhops hhops' hmark
    · intro _
      have hshort : hops.length < maxHops := hshallow hops _ hhops (List.Nodup.of_map _ hnodup)
      omega

/-! ## Another order of the tuples -/

variable {tuples' : List Tuple}

theorem mem_usersets_congr (h : ∀ t, t ∈ tuples ↔ t ∈ tuples') :
    k ∈ usersets tuples n ↔ k ∈ usersets tuples' n := by
  simp only [mem_usersets_iff, h]

theorem hopsTo_congr (h : ∀ t, t ∈ tuples ↔ t ∈ tuples') {hops : List Node} :
    HopsTo tuples n hops m ↔ HopsTo tuples' n hops m := by
  induction hops generalizing n with
  | nil => exact Iff.rfl
  | cons k rest ih => exact and_congr (mem_usersets_congr h) ih

theorem grantsThrough_congr (h : ∀ t, t ∈ tuples ↔ t ∈ tuples') {via : List Node} :
    GrantsThrough tuples subject n via ↔ GrantsThrough tuples' subject n via := by
  induction via generalizing n with
  | nil => exact h _
  | cons k rest ih => exact and_congr (mem_usersets_congr h) ih

/-- **Where nodes are distinct and ways are short, every order of the tuples gives the same answer.** -/
theorem holds_congr_of_shallow {r : Tuple} (hdistinct : Distinct tuples r.user (root r))
    (hshallow : Shallow tuples (root r)) (h : ∀ t, t ∈ tuples ↔ t ∈ tuples') :
    holds tuples r.user r.relation r.object = holds tuples' r.user r.relation r.object := by
  have hdistinct' : Distinct tuples' r.user (root r) := by
    intro hops hops' m m' hm hm'
    exact hdistinct hops hops' m m' ((hopsTo_congr h).2 hm) ((hopsTo_congr h).2 hm')
  have hshallow' : Shallow tuples' (root r) := by
    intro hops m hm
    exact hshallow hops m ((hopsTo_congr h).2 hm)
  rw [Bool.eq_iff_iff, holds_iff_of_shallow hdistinct hshallow,
    holds_iff_of_shallow hdistinct' hshallow']
  simp only [grantsThrough_congr h]

end TupleSync.Check
