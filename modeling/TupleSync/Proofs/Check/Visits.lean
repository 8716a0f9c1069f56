import TupleSync.Proofs.Check.Chains
import TupleSync.Proofs.Store.Memory

/-!
# What a check visits

**The search is the same if it writes down the nodes it enters, and with how many levels left, instead of
their marks.** `search_eq_explore` says so; everything else is about `explore`, where a mark can be
traced back to the node that made it.
-/

set_option autoImplicit false

namespace TupleSync.Check

/-- A node that the search entered. -/
structure Visit where
  node : Node
  /-- How many levels were left, the node's own included. -/
  levels : Nat
  deriving Repr, DecidableEq

def marks (subject : Ref) (visits : List Visit) : List String := visits.map fun v => mark subject v.node

/-- Explores one node after the other until one leads to a grant. -/
def exploreEach (f : Node → List Visit → Bool × List Visit) :
    List Node → List Visit → Bool × List Visit
  | [], visits => (false, visits)
  | n :: rest, visits =>
    match f n visits with
    | (true, visits) => (true, visits)
    | (false, visits) => exploreEach f rest visits

/-- Searches from a node with so many levels left, and gives the visits besides the answer. -/
def explore (tuples : List Tuple) (subject : Ref) : Nat → Node → List Visit → Bool × List Visit
  | 0, _, visits => (false, visits)
  | levels + 1, n, visits =>
    if mark subject n ∈ marks subject visits then (false, visits)
    else if direct subject n ∈ tuples then (true, ⟨n, levels + 1⟩ :: visits)
    else exploreEach (explore tuples subject levels) (usersets tuples n) (⟨n, levels + 1⟩ :: visits)

variable {tuples : List Tuple} {subject : Ref}

theorem tryEach_eq_exploreEach {f : Node → List String → Bool × List String}
    {g : Node → List Visit → Bool × List Visit}
    (h : ∀ n visits, f n (marks subject visits) = ((g n visits).1, marks subject (g n visits).2))
    (ns : List Node) (visits : List Visit) :
    tryEach f ns (marks subject visits) =
      ((exploreEach g ns visits).1, marks subject (exploreEach g ns visits).2) := by
  induction ns generalizing visits with
  | nil => rfl
  | cons n rest ih =>
    rw [tryEach, exploreEach, h n visits]
    rcases hg : g n visits with ⟨_ | _, visits'⟩
    · exact ih visits'
    · rfl

/-- **The search is `explore` without the names of the nodes.** -/
theorem search_eq_explore (levels : Nat) (n : Node) (visits : List Visit) :
    search tuples subject levels n (marks subject visits) =
      ((explore tuples subject levels n visits).1,
        marks subject (explore tuples subject levels n visits).2) := by
  induction levels generalizing n visits with
  | zero => rfl
  | succ levels ih =>
    rw [search, explore]
    split
    · rfl
    · split
      · rfl
      · exact tryEach_eq_exploreEach ih (usersets tuples n) (⟨n, levels + 1⟩ :: visits)

/-! ## What a search leaves behind -/

/-- Nothing was left to do at the visit: the node is no grant, and unless it was entered on the last
level each of its usersets has left its mark. -/
def Settled (tuples : List Tuple) (subject : Ref) (visits : List Visit) (v : Visit) : Prop :=
  direct subject v.node ∉ tuples ∧
    (1 < v.levels → ∀ m ∈ usersets tuples v.node, mark subject m ∈ marks subject visits)

theorem marks_mono {visits visits' : List Visit} (h : visits ⊆ visits') :
    marks subject visits ⊆ marks subject visits' := List.map_subset _ h

theorem Settled.mono {visits visits' : List Visit} {v : Visit} (h : visits ⊆ visits')
    (hv : Settled tuples subject visits v) : Settled tuples subject visits' v :=
  ⟨hv.1, fun hlevels m hm => marks_mono h (hv.2 hlevels m hm)⟩

/-- What a step of the search adds when it fails: the nodes it was asked for are marked if it had a
level to enter them on, and every visit that is new is settled. -/
structure Failed (tuples : List Tuple) (subject : Ref) (levels : Nat) (ns : List Node)
    (visits visits' : List Visit) : Prop where
  mono : visits ⊆ visits'
  marked : 0 < levels → ∀ n ∈ ns, mark subject n ∈ marks subject visits'
  settled : ∀ v ∈ visits', v ∈ visits ∨ Settled tuples subject visits' v

theorem exploreEach_failed {levels : Nat} {f : Node → List Visit → Bool × List Visit}
    (hf : ∀ n visits visits', f n visits = (false, visits') →
      Failed tuples subject levels [n] visits visits')
    (ns : List Node) (visits visits' : List Visit) (h : exploreEach f ns visits = (false, visits')) :
    Failed tuples subject levels ns visits visits' := by
  induction ns generalizing visits with
  | nil =>
    cases h
    exact ⟨fun _ hv => hv, fun _ _ hn => absurd hn List.not_mem_nil, fun v hv => Or.inl hv⟩
  | cons n rest ih =>
    rw [exploreEach] at h
    rcases hn : f n visits with ⟨_ | _, between⟩
    · rw [hn] at h
      -- the nodes after it start from what it left behind, and only add to that
      have hfirst := hf n visits between hn
      have hrest := ih between h
      refine ⟨fun v hv => hrest.mono (hfirst.mono hv), ?_, ?_⟩
      · intro hlevels m hm
        rcases List.mem_cons.1 hm with rfl | hm
        · exact marks_mono hrest.mono (hfirst.marked hlevels m List.mem_cons_self)
        · exact hrest.marked hlevels m hm
      · intro v hv
        rcases hrest.settled v hv with hbetween | hsettled
        · rcases hfirst.settled v hbetween with hold | hsettled
          · exact Or.inl hold
          · exact Or.inr (hsettled.mono hrest.mono)
        · exact Or.inr hsettled
    · rw [hn] at h
      cases h

/-- **A search that fails leaves every new visit settled.** The induction is on the levels; a node is
settled only once all its usersets were tried, so its own visit is carried through them as an old one. -/
theorem explore_failed (levels : Nat) (n : Node) (visits visits' : List Visit)
    (h : explore tuples subject levels n visits = (false, visits')) :
    Failed tuples subject levels [n] visits visits' := by
  induction levels generalizing n visits visits' with
  | zero =>
    cases h
    exact ⟨fun _ hv => hv, fun h => absurd h (Nat.lt_irrefl 0), fun v hv => Or.inl hv⟩
  | succ levels ih =>
    rw [explore] at h
    split at h
    · next hmarked =>
      cases h
      exact ⟨fun _ hv => hv, fun _ => List.forall_mem_singleton.2 hmarked, fun v hv => Or.inl hv⟩
    · split at h
      · cases h
      · next hdirect =>
        have hbelow := exploreEach_failed ih (usersets tuples n) _ visits' h
        have hself : (⟨n, levels + 1⟩ : Visit) ∈ visits' := hbelow.mono List.mem_cons_self
        refine ⟨fun v hv => hbelow.mono (List.mem_cons_of_mem _ hv), ?_, ?_⟩
        · intro _
          exact List.forall_mem_singleton.2 (List.mem_map_of_mem hself)
        · intro v hv
          rcases hbelow.settled v hv with hold | hsettled
          · rcases List.mem_cons.1 hold with rfl | hold
            · refine Or.inr ⟨hdirect, fun hlevels => hbelow.marked ?_⟩
              exact Nat.lt_of_succ_lt_succ hlevels
            · exact Or.inl hold
          · exact Or.inr hsettled

/-! ## What a search finds -/

/-- The nodes were entered one after the other, the first of them with so many levels left. -/
def Entered (visits : List Visit) : Nat → List Node → Prop
  | _, [] => True
  | levels, n :: rest => 0 < levels ∧ ⟨n, levels⟩ ∈ visits ∧ Entered visits (levels - 1) rest

theorem exploreEach_found {f : Node → List Visit → Bool × List Visit}
    (hf : ∀ n visits, visits ⊆ (f n visits).2) (ns : List Node) (visits visits' : List Visit)
    (h : exploreEach f ns visits = (true, visits')) :
    ∃ n ∈ ns, ∃ between, visits ⊆ between ∧ f n between = (true, visits') := by
  induction ns generalizing visits with
  | nil => cases h
  | cons n rest ih =>
    rw [exploreEach] at h
    have hstep := hf n visits
    rcases hn : f n visits with ⟨_ | _, between⟩
    · rw [hn] at h hstep
      obtain ⟨m, hm, between', hsub, hfound⟩ := ih between h
      exact ⟨m, List.mem_cons_of_mem _ hm, between', fun v hv => hsub (hstep hv), hfound⟩
    · rw [hn] at h
      cases h
      exact ⟨n, List.mem_cons_self, visits, fun _ hv => hv, hn⟩

theorem exploreEach_mono {f : Node → List Visit → Bool × List Visit}
    (hf : ∀ n visits, visits ⊆ (f n visits).2) (ns : List Node) (visits : List Visit) :
    visits ⊆ (exploreEach f ns visits).2 := by
  induction ns generalizing visits with
  | nil => exact fun _ hv => hv
  | cons n rest ih =>
    rw [exploreEach]
    have hstep := hf n visits
    rcases hn : f n visits with ⟨_ | _, between⟩
    · rw [hn] at hstep
      exact fun v hv => ih between (hstep hv)
    · rw [hn] at hstep
      exact hstep

theorem explore_mono (levels : Nat) (n : Node) (visits : List Visit) :
    visits ⊆ (explore tuples subject levels n visits).2 := by
  induction levels generalizing n visits with
  | zero => exact fun _ hv => hv
  | succ levels ih =>
    rw [explore]
    split
    · exact fun _ hv => hv
    · split
      · exact List.subset_cons_self _ _
      · exact fun v hv => exploreEach_mono ih _ _ (List.mem_cons_of_mem _ hv)

/-- **A search that succeeds has entered a chain to a grant**, one node a level. -/
theorem explore_found (levels : Nat) (n : Node) (visits visits' : List Visit)
    (h : explore tuples subject levels n visits = (true, visits')) :
    ∃ via, GrantsThrough tuples subject n via ∧ Entered visits' levels (n :: via) := by
  induction levels generalizing n visits visits' with
  | zero => cases h
  | succ levels ih =>
    rw [explore] at h
    split at h
    · cases h
    · split at h
      · next hdirect =>
        cases h
        exact ⟨[], hdirect, Nat.succ_pos _, List.mem_cons_self, trivial⟩
      · obtain ⟨m, hm, between, hsub, hfound⟩ := exploreEach_found (explore_mono levels) _ _ _ h
        obtain ⟨via, hvia, hentered⟩ := ih m between visits' hfound
        have hmono := @explore_mono tuples subject levels m between
        rw [hfound] at hmono
        -- the visit was made before the userset was tried, and is still there
        refine ⟨m :: via, ⟨hm, hvia⟩, Nat.succ_pos _, ?_, hentered⟩
        exact hmono (hsub List.mem_cons_self)

theorem exploreEach_nodup {f : Node → List Visit → Bool × List Visit}
    (hf : ∀ n visits, (marks subject visits).Nodup → (marks subject (f n visits).2).Nodup)
    (ns : List Node) (visits : List Visit) (h : (marks subject visits).Nodup) :
    (marks subject (exploreEach f ns visits).2).Nodup := by
  induction ns generalizing visits with
  | nil => exact h
  | cons n rest ih =>
    rw [exploreEach]
    have hstep := hf n visits h
    rcases hn : f n visits with ⟨_ | _, between⟩
    · rw [hn] at hstep
      exact ih between hstep
    · rw [hn] at hstep
      exact hstep

theorem explore_nodup (levels : Nat) (n : Node) (visits : List Visit)
    (h : (marks subject visits).Nodup) :
    (marks subject (explore tuples subject levels n visits).2).Nodup := by
  induction levels generalizing n visits with
  | zero => exact h
  | succ levels ih =>
    rw [explore]
    split
    · exact h
    · next hnew =>
      -- only a node whose mark is new is entered
      have hcons : (marks subject (⟨n, levels + 1⟩ :: visits)).Nodup :=
        List.nodup_cons.2 ⟨hnew, h⟩
      split
      · exact hcons
      · exact exploreEach_nodup ih _ _ hcons

end TupleSync.Check
