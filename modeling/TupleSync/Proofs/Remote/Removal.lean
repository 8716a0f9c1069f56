import Mathlib.Data.List.Nodup
import TupleSync.Proofs.Remote.Conversation
import TupleSync.Proofs.Tuple.Keys

/-!
# How the client removes

**Patterns are looked up first, all of them, and then the tuples that were found are deleted by their
keys.** What a pattern finds is said of the server's keys (`Finds`): the keys that the listing is narrowed
to, read as tuples, among which the pattern chooses. An open pattern stops the client before it has
changed anything.
-/

set_option autoImplicit false

namespace TupleSync.Remote

open RemoteStore

variable {srv : Server} {pattern t : Tuple} {ks : List TupleKey}

/-- The pattern finds the tuple on the server. -/
def Finds (srv : Server) (pattern t : Tuple) : Prop :=
  ∃ k ∈ srv.keys, Selects (Narrowing.of? pattern) k ∧ k.tuple? = some t ∧ pattern.Matches t

theorem mem_pick : t ∈ pick pattern ks ↔ ∃ k ∈ ks, k.tuple? = some t ∧ pattern.Matches t := by
  rw [pick, List.mem_filter, List.mem_filterMap, decide_eq_true_iff]
  constructor
  · rintro ⟨⟨k, hk, htuple⟩, hmatches⟩
    exact ⟨k, hk, htuple, hmatches⟩
  · rintro ⟨k, hk, htuple, hmatches⟩
    exact ⟨⟨k, hk, htuple⟩, hmatches⟩

theorem mem_pick_iff (h : Lists srv pattern ks) : t ∈ pick pattern ks ↔ Finds srv pattern t := by
  rw [mem_pick, Finds]
  exact exists_congr fun k => by rw [h.2 k, and_assoc]

/-- Different keys name different tuples, so a tuple is found once. -/
theorem nodup_pick (h : Lists srv pattern ks) : (pick pattern ks).Nodup := by
  refine List.Nodup.filter _ (h.1.filterMap ?_)
  intro k k' t hk hk'
  exact TupleKey.eq_of_tuple? hk hk'

theorem Finds.congr {srv' : Server} (h : srv'.keys = srv.keys) :
    Finds srv' pattern t ↔ Finds srv pattern t := by
  rw [Finds, Finds, h]

/-! ## Several patterns -/

theorem matchingAny_any (rest : List Tuple) :
    matchingAny (Tuple.any :: rest) = throw .openPattern := by
  rw [matchingAny, if_pos rfl]
  rfl

theorem matchingAny_cons {p : Tuple} (h : p ≠ Tuple.any) (rest : List Tuple) :
    matchingAny (p :: rest) = (do
      let first ← matching p
      let more ← matchingAny rest
      return first ++ more) := by
  rw [matchingAny, if_neg h]

/-- An open pattern fails whatever comes before it, and nothing is changed. -/
theorem means_matchingAny_of_mem {patterns : List Tuple} (h : Tuple.any ∈ patterns) :
    Means (matchingAny patterns) fun srv r srv' =>
      r = .error .openPattern ∧ srv'.keys = srv.keys := by
  induction patterns with
  | nil => exact absurd h List.not_mem_nil
  | cons p rest ih =>
    by_cases hp : p = Tuple.any
    · rw [hp, matchingAny_any]
      refine (means_throw _).mono ?_
      intro srv r srv' h
      exact ⟨h.1, congrArg Server.keys h.2⟩
    · have hrest : Tuple.any ∈ rest := (List.mem_cons.1 h).resolve_left (Ne.symm hp)
      rw [matchingAny_cons hp]
      refine ((means_matching p).bind_of_succeeds fun first =>
        (ih hrest).bind fun more => means_pure (first ++ more)).mono ?_
      intro srv r srv' h
      obtain ⟨first, between, ⟨ks, -, -, hkeys⟩, hmore⟩ := h
      rcases hmore with ⟨more, mid, ⟨hr, -⟩, -⟩ | ⟨e, rfl, he, hkeys'⟩
      · cases hr
      · cases he
        exact ⟨rfl, hkeys'.trans hkeys⟩

/-- **Several patterns find what one of them finds.** -/
theorem means_matchingAny {patterns : List Tuple} (h : Tuple.any ∉ patterns) :
    Means (matchingAny patterns) (Succeeds fun srv ts srv' =>
      (∀ t, t ∈ ts ↔ ∃ p ∈ patterns, Finds srv p t) ∧ srv'.keys = srv.keys) := by
  induction patterns with
  | nil =>
    refine (means_pure []).mono fun srv r srv' => Succeeds.mono ?_
    intro srv ts srv' h
    rw [h.1, h.2]
    exact ⟨fun t => by simp, rfl⟩
  | cons p rest ih =>
    obtain ⟨hp, hrest⟩ := not_or.1 (List.mem_cons.not.1 h)
    rw [matchingAny_cons (Ne.symm hp)]
    refine ((means_matching p).bind_of_succeeds fun first =>
      (ih hrest).bind_of_succeeds fun more => means_pure (first ++ more)).mono ?_
    intro srv r srv' h
    obtain ⟨first, between, ⟨ks, hlists, rfl, hkeys⟩, more, mid, ⟨hfound, hkeys'⟩, ts, hr, rfl, rfl⟩ := h
    refine ⟨_, hr, fun t => ?_, hkeys'.trans hkeys⟩
    -- the later listings see the keys that the first one saw
    rw [List.mem_append, mem_pick_iff hlists, hfound, List.exists_mem_cons_iff]
    simp only [Finds.congr hkeys]

/-! ## Deleting what was found -/

theorem means_deleteAll (ts : List Tuple) :
    Means (deleteAll ts) (Succeeds fun srv _ srv' =>
      srv'.keys = Change.delete.apply srv.keys (ts.map Tuple.key)) := by
  refine ((means_changeAll .delete (ts.map Tuple.key)).bind_of_succeeds fun _ => means_note _).mono ?_
  intro srv r srv' h
  obtain ⟨_, between, hkeys, a, hr, rfl⟩ := h
  exact ⟨a, hr, hkeys⟩

theorem means_removeBulk_of_mem {patterns : List Tuple} (h : Tuple.any ∈ patterns) :
    Means (removeBulk patterns) fun srv r srv' =>
      r = .error .openPattern ∧ srv'.keys = srv.keys := by
  refine ((means_matchingAny_of_mem h).bind fun doomed => means_deleteAll _).mono ?_
  intro srv r srv' h
  rcases h with ⟨doomed, between, ⟨hr, -⟩, -⟩ | ⟨e, rfl, he, hkeys⟩
  · cases hr
  · cases he
    exact ⟨rfl, hkeys⟩

/-- **Removing by patterns deletes the keys of what they find.** -/
theorem means_removeBulk {patterns : List Tuple} (h : Tuple.any ∉ patterns) :
    Means (removeBulk patterns) (Succeeds fun srv _ srv' =>
      ∃ ts : List Tuple, (∀ t, t ∈ ts ↔ ∃ p ∈ patterns, Finds srv p t) ∧
        srv'.keys = Change.delete.apply srv.keys (ts.map Tuple.key)) := by
  refine ((means_matchingAny h).bind_of_succeeds fun doomed => means_deleteAll _).mono ?_
  intro srv r srv' h
  obtain ⟨doomed, between, ⟨hfound, hkeys⟩, a, hr, hkeys'⟩ := h
  refine ⟨a, hr, Tuple.sort doomed.eraseDups, fun t => ?_, hkeys ▸ hkeys'⟩
  rw [Tuple.sort, List.mem_mergeSort, List.mem_eraseDups]
  exact hfound t

end TupleSync.Remote
