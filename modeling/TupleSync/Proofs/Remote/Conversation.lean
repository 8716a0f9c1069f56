import TupleSync.Proofs.Remote.Exchange
import TupleSync.Proofs.Remote.Server
import TupleSync.Proofs.Store.Run

/-!
# What a conversation means

**An action of a client means a relation between the server before it, its answer and the server after
it.** An action only ever adds to a conversation, and what it means is said under the condition that the
server serves what it adds; so meanings are put together as actions are, and nothing has to be assumed of
the wire.

The last section follows a listing to its end: however the server cuts it into pages, the client gets all
that the server had for it, once.
-/

set_option autoImplicit false

namespace TupleSync.Remote

open RemoteStore

variable {α β : Type} {c : RemoteStore}

/-- What the action means to this client. -/
def MeansAt (c : RemoteStore) (x : StoreM RemoteStore α)
    (R : Server → Except StoreError α → Server → Prop) : Prop :=
  ∃ xs, (x.run c).2.storeId = c.storeId ∧ (x.run c).2.wire.exchanges = c.wire.exchanges ++ xs ∧
    ∀ srv srv', Serves c.storeId srv xs srv' → R srv (x.run c).1 srv'

/-- What the action means to every client. -/
def Means (x : StoreM RemoteStore α) (R : Server → Except StoreError α → Server → Prop) : Prop :=
  ∀ c, MeansAt c x R

/-- The action succeeds, and its answer stands between the two servers. -/
def Succeeds (P : Server → α → Server → Prop) (srv : Server) (r : Except StoreError α)
    (srv' : Server) : Prop :=
  ∃ a, r = .ok a ∧ P srv a srv'

/-- The second relation after the first, unless the first ends in an error. -/
def Then (R : Server → Except StoreError α → Server → Prop)
    (S : α → Server → Except StoreError β → Server → Prop) (srv : Server) (r : Except StoreError β)
    (srv' : Server) : Prop :=
  (∃ a between, R srv (.ok a) between ∧ S a between r srv') ∨ ∃ e, r = .error e ∧ R srv (.error e) srv'

/-! ## Actions put together -/

section Rules

variable {x : StoreM RemoteStore α} {f : α → StoreM RemoteStore β}
variable {R R' : Server → Except StoreError α → Server → Prop}
variable {P P' : Server → α → Server → Prop}
variable {S : α → Server → Except StoreError β → Server → Prop}

theorem MeansAt.mono (h : MeansAt c x R) (himp : ∀ srv r srv', R srv r srv' → R' srv r srv') :
    MeansAt c x R' := by
  obtain ⟨xs, hid, hexchanges, hmeans⟩ := h
  exact ⟨xs, hid, hexchanges, fun srv srv' hserves => himp _ _ _ (hmeans srv srv' hserves)⟩

theorem Means.mono (h : Means x R) (himp : ∀ srv r srv', R srv r srv' → R' srv r srv') :
    Means x R' :=
  fun c => (h c).mono himp

theorem Succeeds.mono (himp : ∀ srv a srv', P srv a srv' → P' srv a srv') {srv srv' : Server}
    {r : Except StoreError α} (h : Succeeds P srv r srv') : Succeeds P' srv r srv' := by
  obtain ⟨a, hr, ha⟩ := h
  exact ⟨a, hr, himp srv a srv' ha⟩

/-- **What comes second is said to the server that the first one left.** -/
theorem MeansAt.bind (hx : MeansAt c x R) (hf : ∀ a, Means (f a) (S a)) :
    MeansAt c (x >>= f) (Then R S) := by
  obtain ⟨xs, hid, hexchanges, hmeans⟩ := hx
  rcases hrun : x.run c with ⟨e | a, c'⟩
  · rw [hrun] at hid hexchanges hmeans
    rw [MeansAt, storeM_bind_of_error hrun]
    exact ⟨xs, hid, hexchanges, fun srv srv' hserves => Or.inr ⟨e, rfl, hmeans srv srv' hserves⟩⟩
  · rw [hrun] at hid hexchanges hmeans
    -- the second action adds its exchanges to those of the first
    obtain ⟨ys, hid', hexchanges', hmeans'⟩ := hf a c'
    rw [MeansAt, storeM_bind_of_ok hrun]
    refine ⟨xs ++ ys, hid'.trans hid, ?_, ?_⟩
    · rw [hexchanges', hexchanges, List.append_assoc]
    · intro srv srv' hserves
      obtain ⟨between, hfirst, hsecond⟩ := serves_append.1 hserves
      refine Or.inl ⟨a, between, hmeans srv between hfirst, ?_⟩
      have hid'' : c'.storeId = c.storeId := hid
      exact hmeans' between srv' (hid'' ▸ hsecond)

theorem Means.bind (hx : Means x R) (hf : ∀ a, Means (f a) (S a)) : Means (x >>= f) (Then R S) :=
  fun c => (hx c).bind hf

/-- After an action that succeeds there is always a second one. -/
theorem MeansAt.bind_of_succeeds (hx : MeansAt c x (Succeeds P)) (hf : ∀ a, Means (f a) (S a)) :
    MeansAt c (x >>= f) fun srv r srv' => ∃ a between, P srv a between ∧ S a between r srv' := by
  refine (hx.bind hf).mono ?_
  intro srv r srv' h
  rcases h with ⟨a, between, ⟨b, hok, hb⟩, hsecond⟩ | ⟨e, -, b, hok, -⟩
  · cases hok
    exact ⟨a, between, hb, hsecond⟩
  · cases hok

theorem Means.bind_of_succeeds (hx : Means x (Succeeds P)) (hf : ∀ a, Means (f a) (S a)) :
    Means (x >>= f) fun srv r srv' => ∃ a between, P srv a between ∧ S a between r srv' :=
  fun c => (hx c).bind_of_succeeds hf

/-- An action may look at the client first. -/
theorem meansAt_get {g : RemoteStore → StoreM RemoteStore α} (h : MeansAt c (g c) R) :
    MeansAt c (get >>= g) R := h

/-- An action that asks nothing leaves the server as it is. -/
theorem meansAt_of_silent (hid : (x.run c).2.storeId = c.storeId)
    (hexchanges : (x.run c).2.wire.exchanges = c.wire.exchanges) :
    MeansAt c x fun srv r srv' => r = (x.run c).1 ∧ srv' = srv := by
  refine ⟨[], hid, ?_, ?_⟩
  · rw [hexchanges, List.append_nil]
  · intro srv srv' hserves
    exact ⟨rfl, hserves⟩

/-- What a client knows by itself is no part of a conversation. -/
theorem means_of_run {r : Except StoreError α} (h : ∀ c, x.run c = (r, c)) :
    Means x fun srv r' srv' => r' = r ∧ srv' = srv := by
  intro c
  have hsilent := meansAt_of_silent (c := c) (x := x) (by rw [h c]) (by rw [h c])
  rwa [h c] at hsilent

theorem means_pure (a : α) :
    Means (pure a : StoreM RemoteStore α) (Succeeds fun srv b srv' => b = a ∧ srv' = srv) := by
  intro c
  refine (@meansAt_of_silent α c (pure a) rfl rfl).mono ?_
  intro srv r srv' h
  exact ⟨a, h.1, rfl, h.2⟩

theorem means_throw (e : StoreError) :
    Means (throw e : StoreM RemoteStore α) fun srv r srv' => r = .error e ∧ srv' = srv :=
  fun c => @meansAt_of_silent α c (throw e) rfl rfl

theorem means_note (n : RemoteNotice) :
    Means (note n) (Succeeds fun srv _ srv' => srv' = srv) := by
  intro c
  refine (@meansAt_of_silent Unit c (note n) rfl rfl).mono ?_
  intro srv r srv' h
  exact ⟨(), h.1, h.2⟩

end Rules

/-! ## One request -/

/-- A request has one reply, and what the client makes of it is what the reply says. -/
theorem meansAt_post (reader : Json.Reader α) (what : String) (body : RemoteStore → Json)
    (c : RemoteStore) :
    MeansAt c (post reader what body) fun srv r srv' => ∃ reply,
      Answers c.storeId srv (c.request what (body c)) reply srv' ∧ r = Wire.read reader reply := by
  have hsingle : ∀ (reply : Reply) (srv srv' : Server),
      Serves c.storeId srv [(c.request what (body c), reply)] srv' →
        Answers c.storeId srv (c.request what (body c)) reply srv' := by
    intro reply srv srv' hserves
    obtain ⟨between, hanswers, rfl⟩ := hserves
    exact hanswers
  have hrun : (post reader what body).run c =
      (Wire.read reader c.wire.next, { c with wire := c.wire.hear (c.request what (body c)) }) :=
    run_talk_ask reader _ c
  rw [MeansAt, hrun]
  refine ⟨[(c.request what (body c), c.wire.next)], rfl, rfl, ?_⟩
  intro srv srv' hserves
  exact ⟨_, hsingle _ srv srv' hserves, rfl⟩

/-- The client's requests are understood as it means them. -/
theorem asks_change (c : RemoteStore) (ch : Change) (keys : List TupleKey) :
    Asks c.storeId (c.changeRequest ch keys) (.change ch keys) :=
  ⟨rfl, rfl, c.changes_changeBody _ _ _ _⟩

theorem asks_page (c : RemoteStore) (narrowing : Option Narrowing) (token : String) :
    Asks c.storeId (c.request "read" (readBody narrowing c.pageSize token)) (.page narrowing token) :=
  ⟨rfl, rfl, c.narrowsTo_readBody _ _ _ _, c.continuesFrom_readBody _ _ _ _⟩

/-- **A change of some keys is made.** -/
theorem means_change (ch : Change) (keys : List TupleKey) :
    Means (change ch keys) (Succeeds fun srv _ srv' => srv'.keys = ch.apply srv.keys keys) := by
  intro c
  have hpost := meansAt_post Json.Reader.json "write" (fun s => changeBody s.modelId ch keys) c
  have hgranted : MeansAt c (post Json.Reader.json "write" fun s => changeBody s.modelId ch keys)
      (Succeeds fun srv _ srv' => srv'.keys = ch.apply srv.keys keys) := by
    refine hpost.mono ?_
    intro srv r srv' h
    obtain ⟨reply, hanswers, hr⟩ := h
    cases hanswers.grants (asks_change c ch keys) with
    | change hconfirms =>
      rcases read_json_cases reply with ⟨-, j, hok⟩ | ⟨e, hfails, -⟩
      · exact ⟨j, hr.trans hok, rfl⟩
      · exact absurd hconfirms hfails.1
  refine (hgranted.bind_of_succeeds fun _ => means_pure ()).mono ?_
  intro srv r srv' h
  obtain ⟨_, between, hkeys, _, hr, -, hsame⟩ := h
  exact ⟨(), hr, hsame ▸ hkeys⟩

/-! ## Changes in chunks -/

theorem apply_nil (ch : Change) (stored : Set TupleKey) : ch.apply stored [] = stored := by
  cases ch with
  | write => simp [Change.apply]
  | delete => simp [Change.apply]

theorem apply_append (ch : Change) (stored : Set TupleKey) (keys keys' : List TupleKey) :
    ch.apply stored (keys ++ keys') = ch.apply (ch.apply stored keys) keys' := by
  ext k
  cases ch with
  | write => simp [Change.apply, or_assoc]
  | delete => simp [Change.apply, and_assoc]

theorem means_forM_change (ch : Change) (chunks : List (List TupleKey)) :
    Means (chunks.forM (change ch))
      (Succeeds fun srv _ srv' => srv'.keys = ch.apply srv.keys chunks.flatten) := by
  induction chunks with
  | nil =>
    refine (means_pure ()).mono fun srv r srv' => Succeeds.mono ?_
    intro srv _ srv' h
    rw [h.2, List.flatten_nil, apply_nil]
  | cons keys rest ih =>
    refine ((means_change ch keys).bind_of_succeeds fun _ => ih).mono ?_
    intro srv r srv' h
    obtain ⟨_, between, hfirst, a, hr, hrest⟩ := h
    refine ⟨a, hr, ?_⟩
    show srv'.keys = _
    rw [hrest, hfirst, List.flatten_cons, apply_append]

/-- **However the keys are cut into chunks, all of them are changed.** -/
theorem means_changeAll (ch : Change) (keys : List TupleKey) :
    Means (changeAll ch keys) (Succeeds fun srv _ srv' => srv'.keys = ch.apply srv.keys keys) := by
  intro c
  refine meansAt_get ?_
  have hchunks := means_forM_change ch (chunksOf c.chunk c.chunk_pos keys) c
  rw [flatten_chunksOf] at hchunks
  exact hchunks

/-! ## Listings -/

/-- **A listing that is served is followed to its end**, and its items are what was to come of it. The
induction is on the replies; a page that is not the last hands its token to the next request. -/
theorem follow_complete {storeId : String} {narrowing : Option Narrowing} {request : String → Request}
    (hasks : ∀ token, Asks storeId (request token) (.page narrowing token)) (replies : List Reply)
    (token : String) (w : Wire) :
    ∃ xs, (follow tuplesCodec.read request (fun _ => false) token replies w).2.exchanges =
        w.exchanges ++ xs ∧
      ∀ srv srv', (token = "" ∨ srv.cursors token ≠ none) → Serves storeId srv xs srv' →
        ∃ ks, srv.Pending narrowing token ks ∧ srv'.keys = srv.keys ∧
          (follow tuplesCodec.read request (fun _ => false) token replies w).1 = ⟨ks, none⟩ := by
  induction replies generalizing token w with
  | nil =>
    -- a server that knows of the page does not leave the client without it
    refine ⟨[(request token, .failed w.after)], rfl, ?_⟩
    intro srv srv' hknown hserves
    obtain ⟨between, hanswers, rfl⟩ := hserves
    obtain ⟨p, rest, hshown, -⟩ := hanswers.page (hasks token) hknown
    cases hshown
  | cons reply replies ih =>
    have hread := read_tuplesCodec reply
    rcases hshown : reply.tuples? with _ | p
    · rw [hshown, Reply.answer] at hread
      refine ⟨[(request token, reply)], ?_, ?_⟩
      · simp only [follow, hread, Wire.record]
      · intro srv srv' hknown hserved
        obtain ⟨between, hanswers, rfl⟩ := hserved
        obtain ⟨p, rest, hshown', -⟩ := hanswers.page (hasks token) hknown
        cases hshown.symm.trans hshown'
    · rw [hshown, Reply.answer] at hread
      by_cases hlast : p.next = ""
      · refine ⟨[(request token, reply)], ?_, ?_⟩
        · simp [follow, hread, hlast, Wire.record]
        · intro srv srv' hknown hserved
          obtain ⟨between, hanswers, rfl⟩ := hserved
          obtain ⟨p', rest, hshown', hpending, hend, rfl⟩ := hanswers.page (hasks token) hknown
          cases hshown.symm.trans hshown'
          rw [hend hlast, List.append_nil] at hpending
          exact ⟨p.items, hpending, rfl, by simp [follow, hread, hlast]⟩
      · obtain ⟨xs, hxs, hmeans⟩ := ih p.next (w.record (request token) reply replies)
        have hfollow : follow tuplesCodec.read request (fun _ => false) token (reply :: replies) w =
            let more := follow tuplesCodec.read request (fun _ => false) p.next replies
              (w.record (request token) reply replies)
            ({ more.1 with items := p.items ++ more.1.items }, more.2) := by
          simp [follow, hread, hlast]
        rw [hfollow]
        refine ⟨(request token, reply) :: xs, ?_, ?_⟩
        · show (follow _ _ _ _ _ _).2.exchanges = _
          rw [hxs, Wire.record, List.append_assoc]
          rfl
        · intro srv srv' hknown hserved
          obtain ⟨between, hanswers, hserves⟩ := hserved
          obtain ⟨p', rest, hshown', hpending, -, rfl⟩ := hanswers.page (hasks token) hknown
          cases hshown.symm.trans hshown'
          -- the token of the page stands for the rest, so the rest is what the client still gets
          have hcursor : (srv.remember p.next rest).cursors p.next = some rest := if_pos rfl
          obtain ⟨ks, hks, hkeys, hlisting⟩ := hmeans _ srv' (Or.inr (by simp [hcursor])) hserves
          rw [Server.Pending, if_neg hlast, hcursor] at hks
          cases hks
          refine ⟨p.items ++ rest, hpending, hkeys, ?_⟩
          show ({ (follow _ _ _ _ _ _).1 with items := _ } : Listing TupleKey) = _
          rw [hlisting]

theorem meansAt_list {narrowing : Option Narrowing} {request : String → Request}
    (hasks : ∀ token, Asks c.storeId (request token) (.page narrowing token)) :
    MeansAt c (RemoteStore.list tuplesCodec.read request fun _ => false)
      (Succeeds fun srv listing srv' =>
        (listing.items.Nodup ∧ ∀ k, k ∈ listing.items ↔ k ∈ srv.keys ∧ Selects narrowing k) ∧
          listing.failure = none ∧ srv'.keys = srv.keys) := by
  obtain ⟨xs, hxs, hmeans⟩ := follow_complete hasks c.wire.replies "" c.wire
  refine ⟨xs, rfl, hxs, ?_⟩
  intro srv srv' hserves
  obtain ⟨ks, hks, hkeys, hlisting⟩ := hmeans srv srv' (Or.inl rfl) hserves
  exact ⟨⟨ks, none⟩, congrArg Except.ok hlisting, hks, rfl, hkeys⟩

/-- What the listed keys name is kept, and a key that names nothing is reported and passed over. -/
theorem run_filterMapM_tupleOf (ks : List TupleKey) (s : RemoteStore) :
    ∃ log, (ks.filterMapM tupleOf).run s = (.ok (ks.filterMap TupleKey.tuple?), { s with log := log }) := by
  induction ks generalizing s with
  | nil => exact ⟨s.log, rfl⟩
  | cons k rest ih =>
    obtain ⟨log, hfirst⟩ : ∃ log, (tupleOf k).run s = (.ok k.tuple?, { s with log := log }) := by
      unfold tupleOf
      cases k.tuple? with
      | some t => exact ⟨s.log, rfl⟩
      | none => exact ⟨s.log ++ [.malformedTuple k], rfl⟩
    obtain ⟨log', hrest⟩ := ih { s with log := log }
    rw [List.filterMapM_cons, List.filterMap_cons, storeM_bind_of_ok hfirst]
    cases k.tuple? with
    | none => exact ⟨log', hrest⟩
    | some t => exact ⟨log', storeM_bind_of_ok hrest⟩

theorem means_filterMapM_tupleOf (ks : List TupleKey) :
    Means (ks.filterMapM tupleOf)
      (Succeeds fun srv ts srv' => ts = ks.filterMap TupleKey.tuple? ∧ srv' = srv) := by
  intro c
  obtain ⟨log, hrun⟩ := run_filterMapM_tupleOf ks c
  refine (meansAt_of_silent (by rw [hrun]) (by rw [hrun])).mono ?_
  rintro srv r srv' ⟨hr, hsame⟩
  rw [hrun] at hr
  exact ⟨_, hr, rfl, hsame⟩

/-- The keys of the server that the pattern's listing holds, each once. -/
def Lists (srv : Server) (pattern : Tuple) (ks : List TupleKey) : Prop :=
  ks.Nodup ∧ ∀ k, k ∈ ks ↔ k ∈ srv.keys ∧ Selects (Narrowing.of? pattern) k

/-- The tuples of the listed keys that the pattern matches. -/
def pick (pattern : Tuple) (ks : List TupleKey) : List Tuple :=
  (ks.filterMap TupleKey.tuple?).filter fun t => pattern.Matches t

/-- What the client does with a listing that it has followed to its end. -/
theorem means_picked (pattern : Tuple) (listing : Listing TupleKey) :
    Means (do
      let ts ← listing.items.filterMapM tupleOf
      let _ ← listing.complete
      return ts.filter fun t => pattern.Matches t) fun srv r srv' =>
        listing.failure = none →
          Succeeds (fun srv ts srv' => ts = pick pattern listing.items ∧ srv' = srv) srv r srv' := by
  have hlast : ∀ ts : List Tuple, Means (do
      let _ ← listing.complete
      return ts.filter fun t => pattern.Matches t) fun srv r srv' =>
        listing.failure = none →
          Succeeds (fun srv us srv' => us = (ts.filter fun t => pattern.Matches t) ∧ srv' = srv)
            srv r srv' := by
    intro ts c
    cases hfailure : listing.failure with
    | none =>
      have hcomplete : listing.complete = .ok listing.items := by rw [Listing.complete, hfailure]
      rw [hcomplete]
      exact (means_pure _ c).mono fun _ _ _ h _ => h
    | some e =>
      have hcomplete : listing.complete = .error e := by rw [Listing.complete, hfailure]
      rw [hcomplete]
      refine (means_throw e c).mono ?_
      intro srv r srv' _ hnone
      cases hnone
  refine ((means_filterMapM_tupleOf listing.items).bind_of_succeeds hlast).mono ?_
  intro srv r srv' h
  obtain ⟨ts, between, ⟨rfl, rfl⟩, hpicked⟩ := h
  exact hpicked

/-- **What the pattern matches is found**, all of it, wherever the server cuts the listing. -/
theorem means_matching (pattern : Tuple) :
    Means (matching pattern) (Succeeds fun srv ts srv' =>
      ∃ ks, Lists srv pattern ks ∧ ts = pick pattern ks ∧ srv'.keys = srv.keys) := by
  intro c
  have hlist := meansAt_list (asks_page c (Narrowing.of? pattern))
  refine meansAt_get ((hlist.bind_of_succeeds (means_picked pattern)).mono ?_)
  intro srv r srv' h
  obtain ⟨listing, between, ⟨hlists, hnone, hkeys⟩, hpicked⟩ := h
  obtain ⟨ts, hr, hts, rfl⟩ := hpicked hnone
  exact ⟨ts, hr, listing.items, hlists, hts, hkeys⟩

end TupleSync.Remote
