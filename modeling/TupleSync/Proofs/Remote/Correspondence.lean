import TupleSync.Proofs.Remote.Removal
import TupleSync.Proofs.Store.Memory

/-!
# A server's keys and a memory's tuples

**A server corresponds to a store in memory if its keys are the keys of the store's tuples.** The tuples
are plain, so no key stands for two of them. What a pattern finds on the server is then what it matches in
memory: narrowing a listing hides no tuple that the pattern matches.
-/

set_option autoImplicit false

namespace TupleSync.Remote

variable {srv srv' : Server} {m m' : MemoryStore} {p t : Tuple} {ts : List Tuple}

/-- The server holds the keys of the tuples in memory. -/
structure Corresponds (srv : Server) (m : MemoryStore) : Prop where
  keys : srv.keys = Set.image Tuple.key {t | t ∈ m}
  plain : ∀ t ∈ m, t.IsPlain

/-- **Narrowing loses nothing**: the key of a tuple that the pattern matches is among those that the
listing is narrowed to. -/
theorem selects_of_matches (ht : t.IsPlain) (h : p.Matches t) : Selects (Narrowing.of? p) t.key := by
  obtain ⟨-, -, hrelation, htype, hid⟩ := h
  rw [ht.object_eq] at htype hid
  intro n hn
  rw [Narrowing.of?] at hn
  split at hn
  · cases hn
  · next hopen =>
    -- the pattern has an object type and an id, and the tuple shares both
    obtain ⟨htype', hid'⟩ := not_or.1 hopen
    cases hn
    constructor
    · rw [htype.resolve_left htype', hid.resolve_left hid']
      rfl
    · intro r hr
      split at hr
      · cases hr
      · next hrelation' =>
        cases hr
        exact (hrelation.resolve_left hrelation').symm

namespace Corresponds

theorem congr (h : Corresponds srv m) (hkeys : srv'.keys = srv.keys) : Corresponds srv' m :=
  ⟨hkeys.trans h.keys, h.plain⟩

theorem key_mem_iff (h : Corresponds srv m) (ht : t.IsPlain) : t.key ∈ srv.keys ↔ t ∈ m := by
  rw [h.keys]
  constructor
  · intro hboth
    obtain ⟨u, hu, heq⟩ := hboth
    rw [← (h.plain u hu).key_inj ht heq]
    exact hu
  · intro hm
    exact ⟨t, hm, rfl⟩

/-- **A pattern finds on the server what it matches in memory.** -/
theorem finds_iff (h : Corresponds srv m) : Finds srv p t ↔ t ∈ m ∧ p.Matches t := by
  constructor
  · intro hboth
    obtain ⟨k, hk, -, htuple, hmatches⟩ := hboth
    rw [h.keys] at hk
    obtain ⟨u, hu, rfl⟩ := hk
    rw [(h.plain u hu).tuple?_key] at htuple
    cases htuple
    exact ⟨hu, hmatches⟩
  · intro hboth
    obtain ⟨hm, hmatches⟩ := hboth
    have ht := h.plain t hm
    exact ⟨t.key, (h.key_mem_iff ht).2 hm, selects_of_matches ht hmatches, ht.tuple?_key, hmatches⟩

/-- Writing the keys of tuples is adding the tuples. -/
theorem write (h : Corresponds srv m) (hts : ∀ t ∈ ts, t.IsPlain)
    (hkeys : srv'.keys = Change.write.apply srv.keys (ts.map Tuple.key))
    (hm' : ∀ t, t ∈ m' ↔ t ∈ m ∨ t ∈ ts) : Corresponds srv' m' := by
  constructor
  · rw [hkeys, h.keys]
    ext k
    simp only [Change.apply, Set.mem_union, Set.mem_image, Set.mem_ofPred_eq, List.mem_map, hm']
    constructor
    · intro hor
      rcases hor with ⟨t, ht, rfl⟩ | ⟨t, ht, rfl⟩
      · exact ⟨t, Or.inl ht, rfl⟩
      · exact ⟨t, Or.inr ht, rfl⟩
    · intro hboth
      rcases hboth with ⟨t, ht | ht, rfl⟩
      · exact Or.inl ⟨t, ht, rfl⟩
      · exact Or.inr ⟨t, ht, rfl⟩
  · intro t ht
    rcases (hm' t).1 ht with hm | hts'
    · exact h.plain t hm
    · exact hts t hts'

/-- Deleting the keys of tuples is removing the tuples: no other tuple has one of the keys. -/
theorem delete (h : Corresponds srv m) (hts : ∀ t ∈ ts, t.IsPlain)
    (hkeys : srv'.keys = Change.delete.apply srv.keys (ts.map Tuple.key))
    (hm' : ∀ t, t ∈ m' ↔ t ∈ m ∧ t ∉ ts) : Corresponds srv' m' := by
  constructor
  · rw [hkeys, h.keys]
    ext k
    simp only [Change.apply, Set.mem_sdiff, Set.mem_image, Set.mem_ofPred_eq, List.mem_map, hm']
    constructor
    · intro hboth
      obtain ⟨⟨t, ht, rfl⟩, hgone⟩ := hboth
      exact ⟨t, ⟨ht, fun hin => hgone ⟨t, hin, rfl⟩⟩, rfl⟩
    · intro hboth
      obtain ⟨t, ⟨ht, hout⟩, rfl⟩ := hboth
      refine ⟨⟨t, ht, rfl⟩, ?_⟩
      intro hboth
      obtain ⟨u, hu, heq⟩ := hboth
      exact hout ((hts u hu).key_inj (h.plain t ht) heq ▸ hu)
  · intro t ht
    exact h.plain t ((hm' t).1 ht).1

end Corresponds
end TupleSync.Remote
