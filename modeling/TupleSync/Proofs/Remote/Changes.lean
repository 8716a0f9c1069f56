import TupleSync.Proofs.Remote.Replies
import TupleSync.Proofs.Remote.Requests
import TupleSync.Proofs.Remote.Transcript
import TupleSync.Proofs.Store.Memory

/-!
# How the client changes what is stored

**Keys are cut into chunks, and the chunks are sent one after the other, up to the first that is not
confirmed.** How a list is cut is said by what a cut is, which leaves no choice; how far the client comes
is said by the replies.

A list of tuples is looked through before it is cut, so one that is not complete keeps all the others
from being written, wherever it stands.
-/

set_option autoImplicit false

namespace TupleSync

open Remote RemoteStore

/-! ## Chunks -/

/-- The list in consecutive pieces: none is empty or too long, and all but the last are full. -/
structure Cut {α : Type} (n : Nat) (xs : List α) (pieces : List (List α)) : Prop where
  flatten : pieces.flatten = xs
  ne_nil : ∀ p ∈ pieces, p ≠ []
  length_le : ∀ p ∈ pieces, p.length ≤ n
  full : ∀ p ∈ pieces.dropLast, p.length = n

section Cut

variable {α : Type} {n : Nat} {xs p : List α} {pieces pieces' : List (List α)}

theorem Cut.nil : Cut n ([] : List α) [] where
  flatten := rfl
  ne_nil _ h := absurd h List.not_mem_nil
  length_le _ h := absurd h List.not_mem_nil
  full _ h := absurd h List.not_mem_nil

/-- A piece may stand before others if it is full. -/
theorem Cut.cons (h : Cut n xs pieces) (hne : p ≠ []) (hle : p.length ≤ n)
    (hfull : pieces ≠ [] → p.length = n) : Cut n (p ++ xs) (p :: pieces) where
  flatten := by rw [List.flatten_cons, h.flatten]
  ne_nil := List.forall_mem_cons.2 ⟨hne, h.ne_nil⟩
  length_le := List.forall_mem_cons.2 ⟨hle, h.length_le⟩
  full := by
    cases pieces with
    | nil => exact fun _ hq => absurd hq List.not_mem_nil
    | cons q rest =>
      rw [List.dropLast_cons_cons]
      exact List.forall_mem_cons.2 ⟨hfull (List.cons_ne_nil _ _), h.full⟩

theorem cut_chunksOf (h : 0 < n) (xs : List α) : Cut n xs (chunksOf n h xs) := by
  fun_induction chunksOf n h xs with
  | case1 => exact .nil
  | case2 x rest ih =>
    have hne : (x :: rest).take n ≠ [] := by
      simp [Nat.pos_iff_ne_zero.1 h]
    -- more pieces follow only if this one has not used the list up
    have hfull : chunksOf n h ((x :: rest).drop n) ≠ [] → ((x :: rest).take n).length = n := by
      intro hmore
      rw [List.length_take, Nat.min_eq_left]
      refine Nat.le_of_not_le fun hle => hmore ?_
      rw [List.drop_of_length_le hle, chunksOf]
    have hcut := ih.cons hne (List.length_take_le _ _) hfull
    rwa [List.take_append_drop] at hcut

example : chunksOf 2 (by decide) [1, 2, 3, 4, 5] = [[1, 2], [3, 4], [5]] := by cbv

/-! ### There is one cut -/

theorem Cut.nil_of_nil (h : Cut n [] pieces) : pieces = [] := by
  cases pieces with
  | nil => rfl
  | cons p rest =>
    have hp : p = [] := (List.append_eq_nil_iff.1 h.flatten).1
    exact absurd hp (h.ne_nil p List.mem_cons_self)

theorem Cut.tail (h : Cut n xs (p :: pieces)) : Cut n pieces.flatten pieces where
  flatten := rfl
  ne_nil := (List.forall_mem_cons.1 h.ne_nil).2
  length_le := (List.forall_mem_cons.1 h.length_le).2
  full := by
    cases pieces with
    | nil => exact fun _ hq => absurd hq List.not_mem_nil
    | cons q rest => exact (List.forall_mem_cons.1 h.full).2

theorem Cut.head_eq_take (h : Cut n xs (p :: pieces)) : p = xs.take n := by
  have hxs : xs = p ++ pieces.flatten := h.flatten.symm
  cases pieces with
  | nil =>
    rw [hxs, List.flatten_nil, List.append_nil, List.take_of_length_le (h.length_le p List.mem_cons_self)]
  | cons q rest =>
    have hfull : p.length = n := h.full p List.mem_cons_self
    rw [hxs, List.take_left' hfull]

/-- **A list is cut in one way.** -/
theorem Cut.unique (h : Cut n xs pieces) (h' : Cut n xs pieces') : pieces = pieces' := by
  induction pieces generalizing xs pieces' with
  | nil =>
    obtain rfl : [] = xs := h.flatten
    exact h'.nil_of_nil.symm
  | cons p rest ih =>
    cases pieces' with
    | nil =>
      obtain rfl : [] = xs := h'.flatten
      exact h.nil_of_nil
    | cons p' rest' =>
      obtain rfl : p = p' := h.head_eq_take.trans h'.head_eq_take.symm
      have hrest : rest.flatten = rest'.flatten :=
        List.append_cancel_left (h.flatten.trans h'.flatten.symm)
      rw [ih h.tail (hrest ▸ h'.tail)]

end Cut

/-! ## Sending -/

namespace Remote

/-- Chunks are sent in order, up to the first that is not confirmed. -/
inductive Sent (s : RemoteStore) (ch : Change) :
    List (List TupleKey) → List Exchange → Except StoreError Unit → Prop where
  | done : Sent s ch [] [] (.ok ())
  | stopped {keys : List TupleKey} {rest : List (List TupleKey)} {reply : Reply} {e : StoreError}
      (hfails : reply.FailsWith e) :
      Sent s ch (keys :: rest) [(s.changeRequest ch keys, reply)] (.error e)
  | next {keys : List TupleKey} {rest : List (List TupleKey)} {reply : Reply} {xs : List Exchange}
      {r : Except StoreError Unit} (hconfirms : reply.Confirms) (hrest : Sent s ch rest xs r) :
      Sent s ch (keys :: rest) ((s.changeRequest ch keys, reply) :: xs) r

section Sent

variable {s : RemoteStore} {ch : Change} {chunks : List (List TupleKey)} {xs : List Exchange}
variable {r : Except StoreError Unit} {reply : Nat → Reply}

theorem Sent.requests (h : Sent s ch chunks xs r) :
    xs.map Prod.fst = (chunks.take xs.length).map (s.changeRequest ch) := by
  induction h with
  | done => rfl
  | stopped => rfl
  | next _ _ ih =>
    rw [List.map_cons, ih, List.length_cons, List.take_succ_cons, List.map_cons]

theorem Sent.requests_of_ok (h : Sent s ch chunks xs r) (hok : r = .ok ()) :
    xs.map Prod.fst = chunks.map (s.changeRequest ch) := by
  induction h with
  | done => rfl
  | stopped => cases hok
  | next _ _ ih => rw [List.map_cons, ih hok, List.map_cons]

/-- Each request changes the keys of its chunk, and no others. -/
theorem Sent.changes (h : Sent s ch chunks xs r) :
    List.Forall₂ (fun x keys => x.1.Changes ch keys) xs (chunks.take xs.length) := by
  induction h with
  | done => exact .nil
  | stopped => exact .cons (s.changes_changeBody _ _ _ _) .nil
  | next _ _ ih => exact .cons (s.changes_changeBody _ _ _ _) ih

theorem Sent.of_forall_confirms (h : Sent s ch chunks xs r)
    (hreply : ∀ i (hi : i < xs.length), xs[i].2 = reply i)
    (hgood : ∀ i < chunks.length, (reply i).Confirms) : xs.length = chunks.length ∧ r = .ok () := by
  induction h generalizing reply with
  | done => exact ⟨rfl, rfl⟩
  | @stopped _ _ first _ hfails =>
    have hfirst : first = reply 0 := hreply 0 Nat.zero_lt_one
    exact absurd (hfirst ▸ hgood 0 (Nat.succ_pos _)) hfails.1
  | @next _ rest _ xs _ _ _ ih =>
    have hlater : ∀ i (hi : i < xs.length), xs[i].2 = reply (i + 1) :=
      fun i hi => hreply (i + 1) (Nat.succ_lt_succ hi)
    obtain ⟨hlength, hr⟩ := ih hlater fun i hi => hgood (i + 1) (Nat.succ_lt_succ hi)
    exact ⟨congrArg Nat.succ hlength, hr⟩

/-- **The first failure is the end**, and its reason is the answer. -/
theorem Sent.of_failsWith {k : Nat} {e : StoreError} (h : Sent s ch chunks xs r)
    (hreply : ∀ i (hi : i < xs.length), xs[i].2 = reply i) (hk : k < chunks.length)
    (hgood : ∀ i < k, (reply i).Confirms) (hfails : (reply k).FailsWith e) :
    xs.length = k + 1 ∧ r = .error e := by
  induction h generalizing reply k with
  | done => exact absurd hk (Nat.not_lt_zero _)
  | @stopped _ _ first _ hstopped =>
    have hfirst : first = reply 0 := hreply 0 Nat.zero_lt_one
    cases k with
    | zero => exact ⟨rfl, congrArg Except.error (hstopped.unique (hfirst ▸ hfails))⟩
    | succ k => exact absurd (hfirst ▸ hgood 0 (Nat.succ_pos _)) hstopped.1
  | @next _ rest first xs _ hconfirms _ ih =>
    have hfirst : first = reply 0 := hreply 0 (Nat.succ_pos _)
    cases k with
    | zero => exact absurd (hfirst ▸ hconfirms) hfails.1
    | succ k =>
      have hlater : ∀ i (hi : i < xs.length), xs[i].2 = reply (i + 1) :=
        fun i hi => hreply (i + 1) (Nat.succ_lt_succ hi)
      have hgood' : ∀ i < k, (reply (i + 1)).Confirms :=
        fun i hi => hgood (i + 1) (Nat.succ_lt_succ hi)
      obtain ⟨hlength, hr⟩ := ih hlater (Nat.lt_of_succ_lt_succ hk) hgood' hfails
      exact ⟨congrArg Nat.succ hlength, hr⟩

theorem Sent.nil (h : Sent s ch [] xs r) : xs = [] ∧ r = .ok () := by
  cases h
  exact ⟨rfl, rfl⟩

theorem says_change (ch : Change) (keys : List TupleKey) :
    Says s (change ch keys) fun xs r => ∃ reply, xs = [(s.changeRequest ch keys, reply)] ∧
      ((reply.Confirms ∧ r = .ok ()) ∨ ∃ e, reply.FailsWith e ∧ r = .error e) := by
  have hpost := says_post (s := s) Json.Reader.json "write" (fun s => changeBody s.modelId ch keys)
    (changeBody s.modelId ch keys) fun _ _ => rfl
  refine (hpost.bind fun _ => says_pure ()).mono ?_
  rintro xs r (⟨ys, j, zs, rfl, ⟨reply, rfl, hread⟩, rfl, rfl⟩ | ⟨e, rfl, reply, rfl, hread⟩)
  · rcases read_json_cases reply with ⟨hconfirms, -⟩ | ⟨e, -, herror⟩
    · exact ⟨reply, rfl, Or.inl ⟨hconfirms, rfl⟩⟩
    · cases hread.trans herror
  · rcases read_json_cases reply with ⟨-, j, hok⟩ | ⟨e', hfails, herror⟩
    · cases hread.trans hok
    · cases hread.trans herror
      exact ⟨reply, rfl, Or.inr ⟨e, hfails, rfl⟩⟩

theorem says_forM_change (ch : Change) (chunks : List (List TupleKey)) :
    Says s (chunks.forM (change ch)) (Sent s ch chunks) := by
  induction chunks with
  | nil =>
    refine (says_pure ()).mono ?_
    rintro xs r ⟨rfl, rfl⟩
    exact .done
  | cons keys rest ih =>
    refine ((says_change ch keys).bind fun _ => ih).mono ?_
    rintro xs r (⟨ys, _, zs, rfl, ⟨reply, rfl, hreply⟩, hrest⟩ | ⟨e, rfl, reply, rfl, hreply⟩)
    · rcases hreply with ⟨hconfirms, -⟩ | ⟨e, -, hr⟩
      · exact .next hconfirms hrest
      · cases hr
    · rcases hreply with ⟨-, hr⟩ | ⟨e', hfails, hr⟩
      · cases hr
      · cases hr
        exact .stopped hfails

/-- **Changes are cut and sent chunk by chunk.** -/
theorem says_changeAll (ch : Change) (keys : List TupleKey) :
    Says s (changeAll ch keys) (Sent s ch (chunksOf s.chunk s.chunk_pos keys)) :=
  says_get fun _ _ => says_forM_change ch _

end Sent

end Remote

/-! ## Writing -/

namespace RemoteStore

theorem run_requireComplete (t : Tuple) (s : RemoteStore) :
    (requireComplete t).run s = (MemoryStore.requireComplete t, s) := by
  rw [requireComplete, MemoryStore.requireComplete]
  split <;> rfl

/-- Looking through a list of tuples is no conversation. -/
theorem run_requireAllComplete (ts : List Tuple) (s : RemoteStore) :
    (ts.forM requireComplete).run s = (MemoryStore.requireAllComplete ts, s) := by
  induction ts with
  | nil => rfl
  | cons t rest ih =>
    show (requireComplete t >>= fun _ => rest.forM requireComplete).run s =
      (MemoryStore.requireComplete t >>= fun _ => MemoryStore.requireAllComplete rest, s)
    have hfirst := run_requireComplete t s
    cases hcheck : MemoryStore.requireComplete t with
    | error e =>
      rw [hcheck] at hfirst
      exact storeM_bind_of_error hfirst
    | ok _ =>
      rw [hcheck] at hfirst
      exact (storeM_bind_of_ok hfirst).trans ih

/-- **What a client writes is looked through first and cut without loss.** For every client that comes of
connecting, at any time of its life and whatever the server replies from then on: the first tuple that is
not complete is the answer, and nothing is sent. If all are complete, the requests are those of the chunks
of their keys, in order, and each asks for the keys of its chunk to be written: all of them if every reply
confirms, and up to the first one that does not otherwise, whose reason is then the answer. -/
theorem addBulk_looks_through_and_cuts (config : Config) (file : Option (List UInt8)) (start w : Wire)
    (log : List RemoteNotice) (ts : List Tuple) :
    let s := (connect config file start).2.later w log
    let run := (TupleStore.addBulk ts : StoreM RemoteStore Unit).run s
    (∀ before t rest, ts = before ++ t :: rest → (∀ u ∈ before, u.IsComplete) → ¬t.IsComplete →
      run = (.error (.incompleteTuple t), s)) ∧
    ((∀ t ∈ ts, t.IsComplete) → ∃ chunks xs,
      Cut (max 1 config.maxTuplesPerWrite) (ts.map Tuple.key) chunks ∧
      w.Heard run.2.wire xs ∧
      xs.map Prod.fst = (chunks.take xs.length).map (s.changeRequest .write) ∧
      List.Forall₂ (fun x keys => x.1.Changes .write keys) xs (chunks.take xs.length) ∧
      (ts = [] → xs = [] ∧ run.1 = .ok ()) ∧
      ((∀ i < chunks.length, (w.reply i).Confirms) → xs.length = chunks.length ∧ run.1 = .ok ()) ∧
      ∀ k < chunks.length, ∀ e, (∀ i < k, (w.reply i).Confirms) → (w.reply k).FailsWith e →
        xs.length = k + 1 ∧ run.1 = .error e) := by
  intro s run
  have hrun : run = ((ts.forM requireComplete >>= fun _ => changeAll .write (ts.map Tuple.key) :
      StoreM RemoteStore Unit).run s) := rfl
  constructor
  · rintro before t rest rfl hbefore ht
    have hlook := run_requireAllComplete (before ++ t :: rest) s
    rw [MemoryStore.requireAllComplete_of_incomplete? (MemoryStore.incomplete?_of_first hbefore ht)]
      at hlook
    rw [hrun, storeM_bind_of_error hlook]
  · intro hcomplete
    have hlook := run_requireAllComplete ts s
    rw [MemoryStore.requireAllComplete_of_forall hcomplete] at hlook
    rw [storeM_bind_of_ok hlook] at hrun
    obtain ⟨xs, r, w', log', hchange, hheard, hsent⟩ :=
      says_changeAll (s := (connect config file start).2) .write (ts.map Tuple.key) w log
    have hcut := cut_chunksOf (connect config file start).2.chunk_pos (ts.map Tuple.key)
    -- from here on nothing counts of the chunks but that they are a cut
    generalize chunksOf _ _ _ = chunks at hsent hcut
    rw [chunk_connect] at hcut
    rw [hrun.trans hchange]
    refine ⟨chunks, xs, hcut, hheard, hsent.requests, hsent.changes, ?_, ?_, ?_⟩
    · rintro rfl
      obtain rfl := hcut.nil_of_nil
      exact hsent.nil
    · exact hsent.of_forall_confirms hheard.inOrder
    · exact fun k hk e hgood hfails => hsent.of_failsWith hheard.inOrder hk hgood hfails

end RemoteStore

end TupleSync
