import TupleSync.Proofs.Remote.Changes
import TupleSync.Proofs.Remote.Paging
import TupleSync.Proofs.Remote.Removal
import TupleSync.Proofs.Tuple.Order

/-!
# What a removal by patterns deletes

**Nothing is deleted before everything was looked up, and then only what came back.** Every pattern is
followed to the last of its pages first; an open pattern or a page that cannot be read ends the removal
while it has only asked. What is deleted are the returned keys that name a tuple of their pattern, as they
were returned, each once and in the order of the tuples.

So the deletions depend on the set of keys that came back for each pattern. The server has no say in them
by the order, the pages or the repetition of what it returns, nor has the caller by the order of the
patterns.
-/

set_option autoImplicit false

namespace TupleSync.Remote

open RemoteStore

/-! ## Looking up all patterns -/

/-- The patterns are looked up one after the other, up to one that is open or cannot be followed. What
comes of it are the patterns, each with the keys that were returned for it. -/
inductive Searched (s : RemoteStore) :
    List Tuple → List Exchange → Except StoreError (List (Tuple × List TupleKey)) → Prop where
  | done : Searched s [] [] (.ok [])
  | refused {rest : List Tuple} : Searched s (Tuple.any :: rest) [] (.error .openPattern)
  | broken {p : Tuple} {rest : List Tuple} {xs : List Exchange} {e : StoreError} (hp : p ≠ Tuple.any)
      (hpaged : Paged s p "" xs (.error e)) : Searched s (p :: rest) xs (.error e)
  | next {p : Tuple} {rest : List Tuple} {xs ys : List Exchange} {ks : List TupleKey}
      {found : Except StoreError (List (Tuple × List TupleKey))} (hp : p ≠ Tuple.any)
      (hpaged : Paged s p "" xs (.ok ks)) (hrest : Searched s rest ys found) :
      Searched s (p :: rest) (xs ++ ys) (found.map ((p, ks) :: ·))

variable {s : RemoteStore} {patterns patterns' : List Tuple} {xs : List Exchange}
variable {found : Except StoreError (List (Tuple × List TupleKey))}
variable {listed listed' : List (Tuple × List TupleKey)}

theorem Searched.requests (h : Searched s patterns xs found) :
    ∀ x ∈ xs, ∃ p ∈ patterns, ∃ token, x.1 = s.pageRequest p token := by
  induction h with
  | done | refused => exact fun _ hx => absurd hx List.not_mem_nil
  | broken _ hpaged =>
    intro x hx
    exact ⟨_, List.mem_cons_self, hpaged.requests x hx⟩
  | next _ hpaged _ ih =>
    intro x hx
    rcases List.mem_append.1 hx with hx | hx
    · exact ⟨_, List.mem_cons_self, hpaged.requests x hx⟩
    · obtain ⟨p, hp, htoken⟩ := ih x hx
      exact ⟨p, List.mem_cons_of_mem _ hp, htoken⟩

/-- A pattern was followed to its last page, and these keys came back. -/
def LookedUp (s : RemoteStore) (reads : List Exchange) (p : Tuple) (ks : List TupleKey) : Prop :=
  ∃ xs, xs <:+: reads ∧ Paged s p "" xs (.ok ks)

/-- **A search with an answer has followed every pattern**, and none of them was open. -/
theorem Searched.of_ok (h : Searched s patterns xs found) (hok : found = .ok listed) :
    Tuple.any ∉ patterns ∧ listed.map Prod.fst = patterns ∧
      ∀ p ks, (p, ks) ∈ listed → LookedUp s xs p ks := by
  induction h generalizing listed with
  | done =>
    cases hok
    exact ⟨List.not_mem_nil, rfl, fun p ks hmem => absurd hmem List.not_mem_nil⟩
  | refused => cases hok
  | broken => cases hok
  | @next p rest xs ys ks found hp hpaged hrest ih =>
    cases found with
    | error e => cases hok
    | ok more =>
      cases hok
      obtain ⟨hopen, hpatterns, hlooked⟩ := ih rfl
      refine ⟨?_, ?_, ?_⟩
      · intro hmem
        exact (List.mem_cons.1 hmem).elim (fun h => hp h.symm) hopen
      · rw [List.map_cons, hpatterns]
      · intro q qs hmem
        rcases List.mem_cons.1 hmem with heq | hmem
        · cases heq
          exact ⟨xs, (List.prefix_append xs ys).isInfix, hpaged⟩
        · obtain ⟨zs, hinfix, hzs⟩ := hlooked q qs hmem
          exact ⟨zs, hinfix.trans (List.suffix_append xs ys).isInfix, hzs⟩

/-- The tuples among the returned keys that the patterns choose. -/
def chosen (listed : List (Tuple × List TupleKey)) : List Tuple :=
  listed.flatMap fun (p, ks) => pick p ks

/-- What was looked up first is an answer only together with the rest. -/
theorem says_more (first : List Tuple)
    (h : Says s (matchingAny patterns) fun xs r =>
      ∃ found, Searched s patterns xs found ∧ r = found.map chosen) :
    Says s (do
      let more ← matchingAny patterns
      return first ++ more) fun xs r =>
        ∃ found, Searched s patterns xs found ∧ r = found.map fun listed => first ++ chosen listed := by
  refine (h.bind_map fun listed => says_pure (first ++ chosen listed)).mono ?_
  rintro xs r (⟨ys, listed, _, rfl, hsearched, rfl, rfl⟩ | ⟨e, rfl, hsearched⟩)
  · rw [List.append_nil]
    exact ⟨_, hsearched, rfl⟩
  · exact ⟨_, hsearched, rfl⟩

/-- **The patterns are looked up in order, and an answer is what all of them choose.** -/
theorem says_matchingAny (patterns : List Tuple) :
    Says s (matchingAny patterns) fun xs r =>
      ∃ found, Searched s patterns xs found ∧ r = found.map chosen := by
  induction patterns with
  | nil =>
    refine (says_pure []).mono ?_
    rintro xs r ⟨rfl, rfl⟩
    exact ⟨_, .done, rfl⟩
  | cons p rest ih =>
    by_cases hp : p = Tuple.any
    · rw [hp, matchingAny_any]
      refine (says_throw _).mono ?_
      rintro xs r ⟨rfl, rfl⟩
      exact ⟨_, .refused, rfl⟩
    · rw [matchingAny_cons hp]
      refine ((says_matching s p).bind_map fun ks => says_more (pick p ks) ih).mono ?_
      rintro xs r (⟨ys, ks, zs, rfl, hpaged, found, hsearched, rfl⟩ | ⟨e, rfl, hpaged⟩)
      · refine ⟨_, .next hp hpaged hsearched, ?_⟩
        cases found <;> rfl
      · exact ⟨_, .broken hp hpaged, rfl⟩

/-! ## What is deleted -/

def Returned (listed : List (Tuple × List TupleKey)) (p : Tuple) (k : TupleKey) : Prop :=
  ∃ ks, (p, ks) ∈ listed ∧ k ∈ ks

/-- Both keys name tuples, and that of the first stands before that of the second. -/
def Precedes (k k' : TupleKey) : Prop :=
  ∃ t t', k.tuple? = some t ∧ k'.tuple? = some t' ∧ t.before t' = true

theorem not_precedes_of_precedes {k k' : TupleKey} (h : Precedes k k') : ¬Precedes k' k := by
  obtain ⟨t, t', ht, ht', hbefore⟩ := h
  rintro ⟨u', u, hu', hu, hafter⟩
  obtain rfl : t' = u' := Option.some.inj (ht'.symm.trans hu')
  obtain rfl : t = u := Option.some.inj (ht.symm.trans hu)
  exact lt_asymm (Tuple.before_iff.1 hbefore) (Tuple.before_iff.1 hafter)

instance : Std.Irrefl Precedes where
  irrefl _ h := not_precedes_of_precedes h h

instance : Std.Antisymm Precedes where
  antisymm _ _ h h' := absurd h' (not_precedes_of_precedes h)

/-- The keys to delete: those that came back for a pattern and name a tuple that it matches, each once, in
the order of the tuples. -/
structure Doomed (listed : List (Tuple × List TupleKey)) (keys : List TupleKey) : Prop where
  mem_iff : ∀ k, k ∈ keys ↔ ∃ p t, Returned listed p k ∧ k.tuple? = some t ∧ p.Matches t
  nodup : keys.Nodup
  inOrder : keys.Pairwise Precedes

theorem mem_chosen {t : Tuple} :
    t ∈ chosen listed ↔ ∃ p k, Returned listed p k ∧ k.tuple? = some t ∧ p.Matches t := by
  simp only [chosen, List.mem_flatMap, Prod.exists, mem_pick, Returned]
  constructor
  · rintro ⟨p, ks, hlisted, k, hk, htuple, hmatches⟩
    exact ⟨p, k, ⟨ks, hlisted, hk⟩, htuple, hmatches⟩
  · rintro ⟨p, k, ⟨ks, hlisted, hk⟩, htuple, hmatches⟩
    exact ⟨p, ks, hlisted, k, hk, htuple, hmatches⟩

def doomedKeys (listed : List (Tuple × List TupleKey)) : List TupleKey :=
  (Tuple.sort (chosen listed).eraseDups).map Tuple.key

/-- **A tuple that was chosen is named by the key it came with.** -/
theorem doomed_doomedKeys (listed : List (Tuple × List TupleKey)) : Doomed listed (doomedKeys listed) := by
  unfold doomedKeys
  have hmem : ∀ t, t ∈ Tuple.sort (chosen listed).eraseDups ↔
      ∃ p k, Returned listed p k ∧ k.tuple? = some t ∧ p.Matches t := by
    intro t
    rw [(Tuple.sort_perm _).mem_iff, List.mem_eraseDups, mem_chosen]
  have hascends : Tuple.Ascends (Tuple.sort (chosen listed).eraseDups) :=
    Tuple.ascends_sort (nodup_eraseDups _)
  generalize Tuple.sort (chosen listed).eraseDups = ts at hmem hascends
  -- a tuple that was read from a key has that key, so no key is made up
  have hnamed : ∀ t ∈ ts, t.key.tuple? = some t := by
    intro t ht
    obtain ⟨p, k, -, htuple, -⟩ := (hmem t).1 ht
    rw [TupleKey.key_of_tuple? htuple, htuple]
  have horder : (ts.map Tuple.key).Pairwise Precedes := by
    refine List.pairwise_map.2 (hascends.imp_of_mem fun ht hu hbefore => ?_)
    exact ⟨_, _, hnamed _ ht, hnamed _ hu, hbefore⟩
  refine ⟨fun k => ?_, horder.nodup, horder⟩
  rw [List.mem_map]
  constructor
  · rintro ⟨t, ht, rfl⟩
    obtain ⟨p, k, hreturned, htuple, hmatches⟩ := (hmem t).1 ht
    rw [TupleKey.key_of_tuple? htuple]
    exact ⟨p, t, hreturned, htuple, hmatches⟩
  · rintro ⟨p, t, hreturned, htuple, hmatches⟩
    exact ⟨t, (hmem t).2 ⟨p, k, hreturned, htuple, hmatches⟩, TupleKey.key_of_tuple? htuple⟩

/-- What names no tuple, what the pattern does not match and what came back before is passed over. -/
example :
    let member := Tuple.any.withRelation "member"
    doomedKeys [(member, [⟨"user:2", "member", "group:2"⟩, ⟨"nobody", "member", "group:2"⟩]),
        (member, [⟨"user:1", "owner", "group:2"⟩, ⟨"user:1", "member", "group:2"⟩,
          ⟨"user:2", "member", "group:2"⟩])] =
      [⟨"user:1", "member", "group:2"⟩, ⟨"user:2", "member", "group:2"⟩] := by
  cbv

/-- **What is deleted depends on what came back for each pattern, and on nothing else.** -/
theorem Doomed.unique {keys keys' : List TupleKey} (h : Doomed listed keys) (h' : Doomed listed' keys')
    (hsame : ∀ p k, Returned listed p k ↔ Returned listed' p k) : keys = keys' := by
  refine h.inOrder.eq_of_mem_iff h'.inOrder fun k => ?_
  rw [h.mem_iff, h'.mem_iff]
  simp only [hsame]

/-! ## Removals -/

theorem says_deleteAll (ts : List Tuple) :
    Says s (deleteAll ts) (Sent s .delete (chunksOf s.chunk s.chunk_pos (ts.map Tuple.key))) := by
  refine ((says_changeAll .delete (ts.map Tuple.key)).bind fun _ => says_note _).mono ?_
  rintro xs r (⟨ys, _, zs, rfl, hsent, rfl, rfl⟩ | ⟨e, rfl, hsent⟩)
  · rw [List.append_nil]
    exact hsent
  · exact hsent

/-- How a removal by patterns goes: what is asked, what comes of it, and what is then deleted. -/
structure Removal (s : RemoteStore) (n : Nat) (patterns : List Tuple) (reads : List Exchange)
    (found : Except StoreError (List (Tuple × List TupleKey))) (writes : List Exchange)
    (r : Except StoreError Unit) : Prop where
  searched : Searched s patterns reads found
  onlyReads : ∀ x ∈ reads, ∃ p ∈ patterns, ∃ token, x.1 = s.pageRequest p token
  /-- Without an answer for every pattern nothing is deleted. -/
  abandoned : ∀ e, found = .error e → writes = [] ∧ r = .error e
  /-- The deletions are those of the chunks, up to the first that fails, and each one names the keys of its
  chunk. -/
  carriedOut : ∀ listed, found = .ok listed →
    (Tuple.any ∉ patterns ∧ listed.map Prod.fst = patterns ∧
      ∀ p ks, (p, ks) ∈ listed → LookedUp s reads p ks) ∧
    ∃ keys chunks, Doomed listed keys ∧ Cut n keys chunks ∧ Sent s .delete chunks writes r ∧
      List.Forall₂ (fun x keys => x.1.Changes .delete keys) writes (chunks.take writes.length)

theorem says_removeBulk (patterns : List Tuple) :
    Says s (removeBulk patterns) fun xs r => ∃ reads found writes, xs = reads ++ writes ∧
      Removal s s.chunk patterns reads found writes r := by
  have hsaid := (says_matchingAny (s := s) patterns).bind_map
    (f := fun doomed => deleteAll (Tuple.sort doomed.eraseDups)) fun listed => says_deleteAll _
  refine hsaid.mono ?_
  rintro xs r (⟨reads, listed, writes, rfl, hsearched, hsent⟩ | ⟨e, rfl, hsearched⟩)
  · refine ⟨reads, _, writes, rfl, hsearched, hsearched.requests, ?_, ?_⟩
    · rintro e ⟨⟩
    · rintro _ ⟨⟩
      exact ⟨hsearched.of_ok rfl, _, _, doomed_doomedKeys listed, cut_chunksOf _ _, hsent,
        hsent.changes⟩
  · refine ⟨xs, _, [], (List.append_nil xs).symm, hsearched, hsearched.requests, ?_, ?_⟩
    · rintro _ ⟨⟩
      exact ⟨rfl, rfl⟩
    · rintro listed ⟨⟩

/-- **A client deletes what was returned for a pattern and matches it, and nothing else.** For every client
that comes of connecting, at any time of its life, every list of patterns, and whatever the server replies:
a removal asks first, and deletes only once each pattern, none of them open, has been followed to a page
without a token. The keys it then deletes are those that came back and name a tuple of their pattern, as
they came, each once and in the order of the tuples, cut into chunks, up to the first that fails. Two
removals that fail nowhere send the same deletions if the same keys came back for the same patterns,
in whatever order, pages and repetition. -/
theorem removeBulk_deletes_what_was_returned (config : Config) (file : Option (List UInt8))
    (start : Wire) :
    let s := (connect config file start).2
    let n := max 1 config.maxTuplesPerWrite
    (∀ patterns w log,
      let run := (TupleStore.removeBulk patterns : StoreM RemoteStore Unit).run (s.later w log)
      ∃ reads found writes, w.Heard run.2.wire (reads ++ writes) ∧
        Removal s n patterns reads found writes run.1) ∧
    (∀ patterns patterns' reads reads' listed listed' writes writes',
      Removal s n patterns reads (.ok listed) writes (.ok ()) →
      Removal s n patterns' reads' (.ok listed') writes' (.ok ()) →
      (∀ p k, Returned listed p k ↔ Returned listed' p k) →
      writes.map Prod.fst = writes'.map Prod.fst) := by
  intro s n
  constructor
  · -- every run is described by what the client says
    intro patterns w log run
    obtain ⟨_, r, w', log', hrun, hheard, reads, found, writes, rfl, hremoval⟩ :=
      says_removeBulk (s := s) patterns w log
    have hrun' : run = (r, s.later w' log') := hrun
    rw [hrun']
    refine ⟨reads, found, writes, hheard, ?_⟩
    have hchunk : s.chunk = n := chunk_connect config file start
    rwa [hchunk] at hremoval
  · -- the same keys are in the same order and have the same cut
    intro patterns patterns' reads reads' listed listed' writes writes' h h' hsame
    obtain ⟨-, keys, chunks, hdoomed, hcut, hsent, -⟩ := h.carriedOut listed rfl
    obtain ⟨-, keys', chunks', hdoomed', hcut', hsent', -⟩ := h'.carriedOut listed' rfl
    obtain rfl := hdoomed.unique hdoomed' hsame
    obtain rfl := hcut.unique hcut'
    rw [hsent.requests_of_ok rfl, hsent'.requests_of_ok rfl]

/-- Both pages are read before a key is deleted, and the keys are put in order. -/
example : let pattern := Tuple.any.withRelation "r"
    let run := (TupleStore.removeBulk [pattern] : StoreM RemoteStore Unit).run twoPages
    run.1 = .ok () ∧ run.2.wire.exchanges.map Prod.fst =
      [twoPages.pageRequest pattern "", twoPages.pageRequest pattern "t",
        twoPages.changeRequest .delete [⟨"a:1", "r", "g:2"⟩, ⟨"b:1", "r", "g:2"⟩]] := by
  cbv

end TupleSync.Remote
