import Mathlib
import TupleSync.Proofs.Remote.Changes
import TupleSync.Proofs.Remote.Correspondence
import TupleSync.Proofs.Store.Operation
import TupleSync.Proofs.Tuple.Matching

/-!
# The client and the store in memory are one store

**On a server that does what it is asked, the client gives the answers of a store in memory, and leaves
the server with the keys of that store's tuples.** `Simulates` says so of one action on each side; it is
proved for every operation, and then holds for every run of operations, of any length.

The two come to their answers differently. One edits a set of tuples. The other has the server list keys
page by page, reads them as tuples, chooses among them, and deletes keys chunk by chunk. Neither the size
of the pages nor that of the chunks shows in the result.
-/

set_option autoImplicit false

namespace TupleSync.Remote

variable {α : Type} {srv srv' : Server} {m m' : MemoryStore} {t : Tuple}

/-- Both fail with the same error, or both succeed with answers that are as good as the same. -/
inductive Agree (same : α → α → Prop) : Except StoreError α → Except StoreError α → Prop where
  | ok {a b : α} (h : same a b) : Agree same (.ok a) (.ok b)
  | error (e : StoreError) : Agree same (.error e) (.error e)

/-- From a server that corresponds to a memory, the client's action agrees with the memory's, and the two
correspond again. -/
def Simulates (same : α → α → Prop) (x : StoreM RemoteStore α) (y : StoreM MemoryStore α) : Prop :=
  Means x fun srv r srv' => ∀ m, Corresponds srv m →
    Agree same r (y.run m).1 ∧ Corresponds srv' (y.run m).2

/-- Two actions that answer nothing simulate two others if each does. -/
theorem Simulates.seq {same : α → α → Prop} {x : StoreM RemoteStore Unit}
    {y : StoreM MemoryStore Unit} {x' : StoreM RemoteStore α} {y' : StoreM MemoryStore α}
    (h : Simulates (· = ·) x y) (h' : Simulates same x' y') :
    Simulates same (x >>= fun _ => x') (y >>= fun _ => y') := by
  refine (Means.bind h fun _ => h').mono ?_
  intro srv r srv' hboth m hcorr
  rcases hrun : y.run m with ⟨r', m'⟩
  rcases hboth with ⟨_, between, hfirst, hsecond⟩ | ⟨e, rfl, hfirst⟩
  · obtain ⟨hagree, hbetween⟩ := hfirst m hcorr
    rw [hrun] at hagree hbetween
    cases hagree
    rw [storeM_bind_of_ok hrun]
    exact hsecond m' hbetween
  · obtain ⟨hagree, hbetween⟩ := hfirst m hcorr
    rw [hrun] at hagree hbetween
    cases hagree
    rw [storeM_bind_of_error hrun]
    exact ⟨.error e, hbetween⟩

theorem simulates_return (ts : List Tuple) :
    Simulates List.Perm (return ts : StoreM RemoteStore (List Tuple)) (return ts) := by
  refine (means_pure ts).mono ?_
  intro srv r srv' h m hcorr
  obtain ⟨_, rfl, rfl, rfl⟩ := h
  exact ⟨.ok (List.Perm.refl _), hcorr⟩

/-! ## Adding -/

/-- Both sides refuse the same tuples, before anything is asked of the server. -/
theorem means_requireComplete (t : Tuple) :
    Means (RemoteStore.requireComplete t) fun srv r srv' =>
      r = MemoryStore.requireComplete t ∧ srv' = srv :=
  means_of_run (RemoteStore.run_requireComplete t)

theorem means_requireAllComplete (ts : List Tuple) :
    Means (ts.forM RemoteStore.requireComplete) fun srv r srv' =>
      r = MemoryStore.requireAllComplete ts ∧ srv' = srv :=
  means_of_run (RemoteStore.run_requireAllComplete ts)

theorem simulates_add (ht : t.IsComplete → t.IsPlain) :
    Simulates (· = ·) (TupleStore.add t : StoreM RemoteStore Unit) (TupleStore.add t) := by
  refine ((means_requireComplete t).bind fun _ => means_change .write [t.key]).mono ?_
  intro srv r srv' h m hcorr
  by_cases hcomplete : t.IsComplete
  · have hok : MemoryStore.requireComplete t = .ok () := if_pos hcomplete
    rw [hok] at h
    rcases h with ⟨_, between, ⟨-, rfl⟩, _, rfl, hkeys⟩ | ⟨e, -, hr, -⟩
    · have hplain : ∀ u ∈ [t], u.IsPlain := List.forall_mem_singleton.2 (ht hcomplete)
      rw [MemoryStore.run_add_of_complete hcomplete]
      refine ⟨.ok rfl, hcorr.write hplain hkeys ?_⟩
      intro u
      rw [MemoryStore.mem_insert, List.mem_singleton]
    · cases hr
  · have herr : MemoryStore.requireComplete t = .error (.incompleteTuple t) := if_neg hcomplete
    rw [herr] at h
    rw [MemoryStore.run_add_of_not_complete hcomplete]
    rcases h with ⟨_, between, ⟨hr, -⟩, -⟩ | ⟨e, rfl, he, rfl⟩
    · cases hr
    · cases he
      exact ⟨.error _, hcorr⟩

theorem simulates_addBulk {ts : List Tuple} (hts : ∀ t ∈ ts, t.IsComplete → t.IsPlain) :
    Simulates (· = ·) (TupleStore.addBulk ts : StoreM RemoteStore Unit) (TupleStore.addBulk ts) := by
  refine ((means_requireAllComplete ts).bind fun _ =>
    means_changeAll .write (ts.map Tuple.key)).mono ?_
  intro srv r srv' h m hcorr
  rcases hfault : MemoryStore.incomplete? ts with _ | fault
  · have hcomplete := MemoryStore.incomplete?_eq_none_iff.1 hfault
    rw [MemoryStore.requireAllComplete_of_forall hcomplete] at h
    rw [MemoryStore.run_addBulk hcomplete]
    rcases h with ⟨_, between, ⟨-, rfl⟩, _, rfl, hkeys⟩ | ⟨e, -, hr, -⟩
    · refine ⟨.ok rfl, hcorr.write (fun t ht => hts t ht (hcomplete t ht)) hkeys ?_⟩
      intro u
      exact MemoryStore.mem_foldl_insert
    · cases hr
  · have herr := MemoryStore.requireAllComplete_of_incomplete? hfault
    rw [herr] at h
    rw [MemoryStore.run_addBulk_of_error herr]
    rcases h with ⟨_, between, ⟨hr, -⟩, -⟩ | ⟨e, rfl, he, rfl⟩
    · cases hr
    · cases he
      exact ⟨.error _, hcorr⟩

/-! ## Removing -/

theorem simulates_removeBulk (patterns : List Tuple) :
    Simulates (· = ·) (TupleStore.removeBulk patterns : StoreM RemoteStore Unit)
      (TupleStore.removeBulk patterns) := by
  by_cases hopen : Tuple.any ∈ patterns
  · refine (means_removeBulk_of_mem hopen).mono ?_
    intro srv r srv' h m hcorr
    rw [MemoryStore.run_removeBulk_of_mem hopen, h.1]
    exact ⟨.error _, hcorr.congr h.2⟩
  · refine (means_removeBulk hopen).mono ?_
    intro srv r srv' h m hcorr
    obtain ⟨_, rfl, ts, hfound, hkeys⟩ := h
    rw [MemoryStore.run_removeBulk hopen]
    simp only [hcorr.finds_iff] at hfound
    refine ⟨.ok rfl, hcorr.delete ?_ hkeys ?_⟩
    · intro t ht
      obtain ⟨p, -, hm, -⟩ := (hfound t).1 ht
      exact hcorr.plain t hm
    · intro t
      rw [MemoryStore.mem_eraseMatching, hfound]
      constructor
      · intro hkept
        exact ⟨hkept.1, fun ⟨p, hp, _, hmatches⟩ => hkept.2 p hp hmatches⟩
      · intro hkept
        exact ⟨hkept.1, fun p hp hmatches => hkept.2 ⟨p, hp, hkept.1, hmatches⟩⟩

/-- A complete tuple is removed by its key, any other is a pattern. -/
theorem simulates_remove (ht : t.IsComplete → t.IsPlain) :
    Simulates (· = ·) (TupleStore.remove t : StoreM RemoteStore Unit) (TupleStore.remove t) := by
  by_cases hcomplete : t.IsComplete
  · have hremove : (TupleStore.remove t : StoreM RemoteStore Unit) =
        RemoteStore.change .delete [t.key] := if_pos hcomplete
    rw [Simulates, hremove]
    refine (means_change .delete [t.key]).mono ?_
    intro srv r srv' h m hcorr
    obtain ⟨_, rfl, hkeys⟩ := h
    rw [MemoryStore.run_remove_of_complete hcomplete]
    have hplain : ∀ u ∈ [t], u.IsPlain := List.forall_mem_singleton.2 (ht hcomplete)
    refine ⟨.ok rfl, hcorr.delete hplain hkeys ?_⟩
    intro u
    rw [MemoryStore.mem_eraseWhere, List.mem_singleton, beq_eq_false_iff_ne]
  · have hremove : (TupleStore.remove t : StoreM RemoteStore Unit) =
        TupleStore.removeBulk [t] := if_neg hcomplete
    have hremove' : (TupleStore.remove t : StoreM MemoryStore Unit) =
        TupleStore.removeBulk [t] := if_neg hcomplete
    rw [hremove, hremove']
    exact simulates_removeBulk [t]

theorem simulates_removeAll :
    Simulates (· = ·) (TupleStore.removeAll : StoreM RemoteStore Unit) TupleStore.removeAll := by
  refine ((means_matching Tuple.any).bind_of_succeeds fun ts => means_deleteAll ts).mono ?_
  intro srv r srv' h m hcorr
  obtain ⟨ts, between, ⟨ks, hlists, rfl, hkeys⟩, _, rfl, hkeys'⟩ := h
  rw [hkeys] at hkeys'
  rw [MemoryStore.run_removeAll]
  refine ⟨.ok rfl, hcorr.delete ?_ hkeys' ?_⟩
  · intro t ht
    have hfound := hcorr.finds_iff.1 ((mem_pick_iff hlists).1 ht)
    exact hcorr.plain t hfound.1
  · intro t
    rw [MemoryStore.mem_eraseWhere, mem_pick_iff hlists, hcorr.finds_iff]
    constructor
    · intro hkept
      cases hkept.2
    · intro hkept
      exact absurd ⟨hkept.1, Tuple.any_matches t⟩ hkept.2

/-! ## Listing -/

/-- **Both list the same tuples**, in whatever order. -/
theorem simulates_list (pattern : Tuple) :
    Simulates List.Perm (TupleStore.list pattern : StoreM RemoteStore (List Tuple))
      (TupleStore.list pattern) := by
  refine (means_matching pattern).mono ?_
  intro srv r srv' h m hcorr
  obtain ⟨_, rfl, ks, hlists, rfl, hkeys⟩ := h
  rw [MemoryStore.run_list]
  refine ⟨.ok ?_, hcorr.congr hkeys⟩
  -- neither list repeats a tuple, so it is enough that they have the same members
  have hnodup : (m.matching pattern).Nodup := m.nodup.filter _
  have hsame : (pick pattern ks).Perm (m.matching pattern) := by
    rw [List.perm_ext_iff_of_nodup (nodup_pick hlists) hnodup]
    intro t
    rw [mem_pick_iff hlists, hcorr.finds_iff, MemoryStore.mem_matching]
  exact hsame.trans (List.mergeSort_perm _ _).symm

/-! ## Runs of operations -/

/-- **Every operation has the same outcome on both sides.** -/
theorem simulates_perform (op : Operation) (h : ∀ t ∈ op.named, t.IsComplete → t.IsPlain) :
    Simulates List.Perm (op.perform : StoreM RemoteStore (List Tuple)) op.perform := by
  cases op with
  | add t => exact (simulates_add (h t List.mem_cons_self)).seq (simulates_return [])
  | addBulk ts => exact (simulates_addBulk h).seq (simulates_return [])
  | remove t => exact (simulates_remove (h t List.mem_cons_self)).seq (simulates_return [])
  | removeBulk patterns => exact (simulates_removeBulk patterns).seq (simulates_return [])
  | removeAll => exact simulates_removeAll.seq (simulates_return [])
  | replace stale fresh =>
    have hclient : (Operation.replace stale fresh).perform = (do
        TupleStore.removeBulk [stale]
        TupleStore.add fresh
        return [] : StoreM RemoteStore (List Tuple)) := replace_eq_bind _ _ stale fresh
    have hmemory : (Operation.replace stale fresh).perform = (do
        TupleStore.removeBulk [stale]
        TupleStore.add fresh
        return [] : StoreM MemoryStore (List Tuple)) := replace_eq_bind _ _ stale fresh
    rw [hclient, hmemory]
    exact (simulates_removeBulk [stale]).seq
      ((simulates_add (h fresh List.mem_cons_self)).seq (simulates_return []))
  | list pattern => exact simulates_list pattern

/-- The call names only tuples that their keys name. -/
def OnPlain (op : Operation) : Prop := ∀ t ∈ op.named, t.IsComplete → t.IsPlain

/-- What a run of operations adds to the conversation, and what it comes to if a server serves that. -/
theorem performAll_served {ops : List Operation} (h : ∀ op ∈ ops, OnPlain op) (c : RemoteStore) :
    ∃ xs, (Operation.performAll ops c).2.storeId = c.storeId ∧
      (Operation.performAll ops c).2.wire.exchanges = c.wire.exchanges ++ xs ∧
      ∀ srv srv', Serves c.storeId srv xs srv' → ∀ m, Corresponds srv m →
        List.Forall₂ (Agree List.Perm) (Operation.performAll ops c).1 (Operation.performAll ops m).1 ∧
          Corresponds srv' (Operation.performAll ops m).2 := by
  induction ops generalizing c with
  | nil =>
    refine ⟨[], rfl, (List.append_nil _).symm, ?_⟩
    rintro srv srv' rfl m hcorr
    exact ⟨.nil, hcorr⟩
  | cons op rest ih =>
    obtain ⟨hop, hrest⟩ := List.forall_mem_cons.1 h
    obtain ⟨xs, hid, hxs, hfirst⟩ := simulates_perform op hop c
    obtain ⟨ys, hid', hys, hmore⟩ := ih hrest (op.perform.run c).2
    refine ⟨xs ++ ys, hid'.trans hid, ?_, ?_⟩
    · rw [← List.append_assoc, ← hxs]
      exact hys
    · intro srv srv' hserves m hcorr
      obtain ⟨between, hserves₁, hserves₂⟩ := serves_append.1 hserves
      obtain ⟨hagree, hcorr₁⟩ := hfirst srv between hserves₁ m hcorr
      rw [hid] at hmore
      obtain ⟨hagrees, hcorr₂⟩ := hmore between srv' hserves₂ _ hcorr₁
      exact ⟨.cons hagree hagrees, hcorr₂⟩

theorem performAll_append {σ : Type} [TupleStore σ] (done rest : List Operation) (s : σ) :
    (Operation.performAll (done ++ rest) s).2 =
      (Operation.performAll rest (Operation.performAll done s).2).2 := by
  induction done generalizing s with
  | nil => rfl
  | cons op done ih => exact ih (op.perform.run s).2

/-- **The client and the store in memory are one store.** Run any operations on a client whose server
corresponds to a store in memory, on pages and chunks of any size, and on that store. If the server
serves what the client asks, the answers agree one by one; and after any number of the operations, all of
them included, the server holds the keys of exactly the tuples that the memory then holds. -/
theorem performAll_agrees {ops : List Operation} (hplain : ∀ op ∈ ops, OnPlain op)
    {c : RemoteStore} {m : MemoryStore} {srv srv' : Server} (hcorr : Corresponds srv m)
    {xs : List (Request × Reply)}
    (hxs : (Operation.performAll ops c).2.wire.exchanges = c.wire.exchanges ++ xs)
    (hserves : Serves c.storeId srv xs srv') :
    List.Forall₂ (Agree List.Perm) (Operation.performAll ops c).1 (Operation.performAll ops m).1 ∧
    Corresponds srv' (Operation.performAll ops m).2 ∧
    ∀ done rest, ops = done ++ rest → ∃ ys zs between, xs = ys ++ zs ∧
      (Operation.performAll done c).2.wire.exchanges = c.wire.exchanges ++ ys ∧
      Serves c.storeId srv ys between ∧ Serves c.storeId between zs srv' ∧
      Corresponds between (Operation.performAll done m).2 := by
  obtain ⟨all, -, hall, hrun⟩ := performAll_served hplain c
  have hsame : xs = all := List.append_cancel_left (hxs.symm.trans hall)
  subst hsame
  obtain ⟨hagrees, hcorr'⟩ := hrun srv srv' hserves m hcorr
  refine ⟨hagrees, hcorr', ?_⟩
  rintro done rest rfl
  obtain ⟨hdone, hrest⟩ := List.forall_mem_append.1 hplain
  -- the exchanges of an initial part of the run are an initial part of all
  obtain ⟨ys, hid, hys, hfirst⟩ := performAll_served hdone c
  obtain ⟨zs, -, hzs, -⟩ := performAll_served hrest (Operation.performAll done c).2
  have hparts : xs = ys ++ zs := by
    refine List.append_cancel_left (hxs.symm.trans ?_)
    rw [performAll_append, hzs, hys, List.append_assoc]
  rw [hparts] at hserves
  obtain ⟨between, hserves₁, hserves₂⟩ := serves_append.1 hserves
  exact ⟨ys, zs, between, hparts, hys, hserves₁, hserves₂, (hfirst srv between hserves₁ m hcorr).2⟩

/-! ## A run against a script -/

def alice : Tuple := ⟨"user", "1", "member", "group", "2"⟩

/-- An empty object. -/
def acknowledged : Reply := .ok [123, 125]

def emptyPage : Reply := .ok "[[],\"t\"]".toUTF8.toList

def lastPage : Reply := .ok "[[[[\"user:1\",\"member\",\"group:2\"]]],\"\"]".toUTF8.toList

/-- A client that will get these replies. -/
def scripted : RemoteStore where
  storeId := "s"
  modelId := "m"
  pageSize := 50
  chunk := 1
  chunk_pos := by decide
  authorization := none
  wire := ⟨[acknowledged, emptyPage, lastPage, acknowledged], .closed, []⟩
  log := []

/-- Writes a tuple and removes it again by a pattern, for which all tuples are listed. -/
def script : List Operation := [.add alice, .removeBulk [Tuple.any.withRelation "member"]]

def conversation : List (Request × Reply) :=
  [(scripted.request "write" (changeBody "m" .write [alice.key]), acknowledged),
   (scripted.request "read" (readBody none 50 ""), emptyPage),
   (scripted.request "read" (readBody none 50 "t"), lastPage),
   (scripted.request "write" (changeBody "m" .delete [alice.key]), acknowledged)]

theorem exchanges_script :
    (Operation.performAll script scripted).2.wire.exchanges =
      scripted.wire.exchanges ++ conversation := by
  cbv

/-- The replies are those of a server that was empty; its first page holds nothing but a token. -/
theorem serves_conversation : ∃ srv, Serves "s" ⟨∅, fun _ => none⟩ conversation srv := by
  have hconfirms : acknowledged.Confirms := by
    refine ⟨_, .object [], rfl, ?_, ?_⟩
    · cbv
    · decide
  have hempty : emptyPage.tuples? = some ⟨[], "t"⟩ := by cbv
  have hlast : lastPage.tuples? = some ⟨[alice.key], ""⟩ := by cbv
  have hfirst : (Server.mk (Change.write.apply ∅ [alice.key]) fun _ => none).Pending none ""
      ([] ++ [alice.key]) := by
    refine ⟨List.nodup_singleton _, fun k => ?_⟩
    simp [Change.apply, Selects]
  have hsecond : ((Server.mk (Change.write.apply ∅ [alice.key]) fun _ => none).remember "t"
      [alice.key]).Pending none "t" ([alice.key] ++ []) := rfl
  have htoken : "t" = "" → [alice.key] = [] := fun h => absurd h (by decide)
  exact ⟨_, _, .granted (asks_change scripted .write [alice.key]) (.change hconfirms), _,
    .granted (asks_page scripted none "") (.page hempty hfirst htoken), _,
    .granted (asks_page scripted none "t") (.page hlast hsecond fun _ => rfl), _,
    .granted (asks_change scripted .delete [alice.key]) (.change hconfirms), rfl⟩

theorem corresponds_empty : Corresponds ⟨∅, fun _ => none⟩ MemoryStore.empty := by
  refine ⟨?_, fun t ht => absurd ht (MemoryStore.not_mem_empty t)⟩
  ext k
  simp [MemoryStore.not_mem_empty]

/-- In that run client and memory agree. -/
theorem performAll_agrees_script :
    ∃ srv, (Operation.performAll script scripted).2.wire.exchanges =
        scripted.wire.exchanges ++ conversation ∧
      Serves "s" ⟨∅, fun _ => none⟩ conversation srv ∧
      List.Forall₂ (Agree List.Perm) (Operation.performAll script scripted).1
        (Operation.performAll script MemoryStore.empty).1 ∧
      Corresponds srv (Operation.performAll script MemoryStore.empty).2 := by
  obtain ⟨srv, hserves⟩ := serves_conversation
  have hplain : ∀ op ∈ script, OnPlain op := by
    have halice : alice.IsPlain := ⟨by decide, by decide, by decide⟩
    simp [script, OnPlain, Operation.named, halice]
  have h := performAll_agrees hplain corresponds_empty exchanges_script hserves
  exact ⟨srv, exchanges_script, hserves, h.1, h.2.1⟩

end TupleSync.Remote
