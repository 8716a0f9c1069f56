import TupleSync.Proofs.Remote.Bootstrap
import TupleSync.Proofs.Remote.Exchange
import TupleSync.Proofs.Store.Run

/-!
# Connecting is lawful

**Whatever a server replies, the requests of a client that connects follow one from the other**, and the
attempt ends as its turns say. A client that has come some way is followed here from request to request:
`Came` keeps the turns it took, which are what went over its wire, and says of its state what the next
request needs.
-/

set_option autoImplicit false

namespace TupleSync.Bootstrap

open Remote RemoteStore

variable {c : Config} {file : Option (List UInt8)} {start w : Wire} {ts : List Turn}
variable {s : RemoteStore} {step : Step} {α : Type}

/-- The turns are lawful, and they are what was said over the wire since the start. -/
structure Said (c : Config) (file : Option (List UInt8)) (start : Wire) (ts : List Turn)
    (w : Wire) : Prop where
  lawful : Lawful c file ts
  heard : start.Heard w (ts.map (Turn.exchange c))

theorem Said.hear (h : Said c file start ts w) (hstep : Follows c file ts step) :
    Said c file start (ts ++ [⟨step, w.next⟩]) (w.hear (step.request c)) where
  lawful := h.lawful.snoc hstep
  heard := by
    rw [List.map_append]
    exact h.heard.hear _

/-- The client has come here by these turns. -/
structure Came (c : Config) (file : Option (List UInt8)) (start : Wire) (ts : List Turn)
    (s : RemoteStore) : Prop where
  said : Said c file start ts s.wire
  pageSize : s.pageSize = max 1 c.pageSize
  authorization : s.authorization = c.apiToken.map ("Bearer " ++ ·)

/-- A client that talks goes on by what it says. -/
theorem Came.withWire {ts' : List Turn} (h : Came c file start ts s)
    (hw : Said c file start ts' w) : Came c file start ts' { s with wire := w } :=
  ⟨hw, h.pageSize, h.authorization⟩

section Requests

variable (h : Came c file start ts s)
include h

theorem Came.pageRequest : s.storesRequest = fun token => (Step.page token).request c := by
  funext token
  rw [storesRequest, Step.request, h.pageSize, h.authorization]

theorem Came.makeRequest :
    ⟨.post, ["stores"], [], s.authorization, some (.object [("name", .text c.storeName)])⟩ =
      Step.make.request c := by
  rw [h.authorization]
  rfl

theorem Came.latestRequest (store : String) :
    ⟨.get, ["stores", store, "authorization-models"], [("page_size", "1")], s.authorization, none⟩ =
      (Step.latest store).request c := by
  rw [h.authorization]
  rfl

theorem Came.sendRequest (store : String) (model : Json) :
    ⟨.post, ["stores", store, "authorization-models"], [], s.authorization, some model⟩ =
      (Step.send store model).request c := by
  rw [h.authorization]
  rfl

end Requests

/-! ## Looking for the store -/

/-- What a listing of stores has come to: it broke off, it has the store, or the store has to be made. -/
inductive Looked (c : Config) (file : Option (List UInt8)) (ts : List Turn) :
    Listing StoreEntry → Prop where
  | broken {e : StoreError} {items : List StoreEntry} (hends : Ends c file ts (.error e)) :
      Looked c file ts ⟨items, some e⟩
  | found {entry : StoreEntry} {items : List StoreEntry} (hknows : Knows c ts entry.id)
      (hentry : (items.find? fun entry => entry.name == c.storeName) = some entry) :
      Looked c file ts ⟨items, none⟩
  | missing {items : List StoreEntry} (hmake : Follows c file ts .make)
      (hnone : (items.find? fun entry => entry.name == c.storeName) = none) :
      Looked c file ts ⟨items, none⟩

theorem Looked.ends {l : Listing StoreEntry} (h : Looked c file ts l) :
    ∀ e, l.complete = .error e → Ends c file ts (.error e) := by
  intro e he
  cases h with
  | broken hends => exact Except.error.inj he ▸ hends
  | found | missing => cases he

theorem Looked.prepend {items : List StoreEntry} {l : Listing StoreEntry} (h : Looked c file ts l)
    (hnone : (items.find? fun entry => entry.name == c.storeName) = none) :
    Looked c file ts { l with items := items ++ l.items } := by
  cases h with
  | broken hends => exact .broken hends
  | found hknows hentry =>
    refine .found hknows ?_
    rw [List.find?_append, hnone, Option.none_or, hentry]
  | missing hmake hnone' =>
    refine .missing hmake ?_
    rw [List.find?_append, hnone, Option.none_or, hnone']

theorem named?_page {token : String} {reply : Reply} {page : Page StoreEntry}
    (hread : reply.stores? = some page) :
    named? c [⟨.page token, reply⟩] = page.items.find? fun entry => entry.name == c.storeName := by
  simp only [named?, List.flatMap_cons, List.flatMap_nil, List.append_nil, Turn.shown, hread]

/-- The listing of stores from this page on. -/
def look (c : Config) (token : String) (w : Wire) : Listing StoreEntry × Wire :=
  follow storesCodec.read (fun token => (Step.page token).request c)
    (fun page => page.any fun entry => entry.name == c.storeName) token w.replies w

theorem Said.look_of_error {token : String} {e : StoreError} (h : Said c file start ts w)
    (hstep : Follows c file ts (.page token))
    (hread : Wire.read storesCodec.read w.next = .error e) :
    ∃ ts', Said c file start ts' (look c token w).2 ∧ Looked c file ts' (look c token w).1 := by
  rw [look, Wire.follow_eq, hread]
  refine ⟨_, h.hear hstep, .broken (.stopped List.getLast?_concat ?_)⟩
  rwa [read_storesCodec, Reply.answer_eq_error_iff] at hread

/-- **Pages are read one after another, up to one that has the store.** The induction is on the replies
that are left; once there is none the page cannot be read. -/
theorem Said.look {token : String} (h : Said c file start ts w)
    (hstep : Follows c file ts (.page token)) :
    ∃ ts', Said c file start ts' (look c token w).2 ∧ Looked c file ts' (look c token w).1 := by
  induction hreplies : w.replies generalizing ts w token with
  | nil =>
    have hread : Wire.read storesCodec.read w.next = .error w.after.error := by
      rw [Wire.next, hreplies]
      rfl
    exact h.look_of_error hstep hread
  | cons reply rest ih =>
    rcases hread : Wire.read storesCodec.read w.next with e | page
    · exact h.look_of_error hstep hread
    have huntold : c.storeId = none := by cases hstep <;> assumption
    have hsaid := h.hear hstep
    have hshown : w.next.stores? = some page := by
      rwa [read_storesCodec, Reply.answer_eq_ok_iff] at hread
    have hnamed : named? c [⟨.page token, w.next⟩] = _ := named?_page hshown
    have henough : page.items.any (fun entry => entry.name == c.storeName) =
        (page.items.find? fun entry => entry.name == c.storeName).isSome := List.isSome_find?.symm
    rw [Bootstrap.look, Wire.follow_eq, hread]
    cases hentry : page.items.find? fun entry => entry.name == c.storeName with
    | some entry =>
      simp only [henough, hentry, Option.isSome_some, or_true, if_true]
      exact ⟨_, hsaid, .found (.found huntold List.getLast?_concat (hnamed.trans hentry)) hentry⟩
    | none =>
      have hpassed : Passed c ⟨.page token, w.next⟩ page.next :=
        .page rfl hshown (hnamed.trans hentry)
      by_cases hlast : page.next = ""
      · simp only [hlast, true_or, if_true]
        exact ⟨_, hsaid, .missing (.make huntold List.getLast?_concat (hlast ▸ hpassed)) hentry⟩
      · -- the token of the page stands for the rest of the listing
        simp only [hlast, henough, hentry, Option.isSome_none, Bool.false_eq_true, or_false, if_false]
        have hnext : Follows c file (ts ++ [⟨.page token, w.next⟩]) (.page page.next) :=
          .next huntold List.getLast?_concat hpassed hlast
        have hrest : w.replies.tail = rest := by rw [hreplies, List.tail_cons]
        obtain ⟨ts', hsaid', hlooked⟩ := ih hsaid hnext hrest
        exact ⟨ts', hsaid', hlooked.prepend hentry⟩

/-! ## Actions of the client -/

section Actions

variable (c file start)

/-- The action leads this client on: to the end of its attempt, or to an answer and a state as they are
wanted. -/
def Leads (x : StoreM RemoteStore α) (s : RemoteStore) (Q : List Turn → RemoteStore → α → Prop) :
    Prop :=
  ∃ ts r s', x.run s = (r, s') ∧ Came c file start ts s' ∧
    match r with
    | .error e => Ends c file ts (.error e)
    | .ok a => Q ts s' a

end Actions

section Rules

variable {β : Type} {x : StoreM RemoteStore α} {P : List Turn → RemoteStore → α → Prop}

theorem Leads.bind {f : α → StoreM RemoteStore β} {Q : List Turn → RemoteStore → β → Prop}
    (hx : Leads c file start x s P)
    (hf : ∀ ts s' a, Came c file start ts s' → P ts s' a → Leads c file start (f a) s' Q) :
    Leads c file start (x >>= f) s Q := by
  obtain ⟨ts, r, s', hrun, hcame, hr⟩ := hx
  cases r with
  | error e => exact ⟨ts, _, s', storeM_bind_of_error hrun, hcame, hr⟩
  | ok a =>
    obtain ⟨ts', r', s'', hrun', hcame', hr'⟩ := hf ts s' a hcame hr
    exact ⟨ts', r', s'', (storeM_bind_of_ok hrun).trans hrun', hcame', hr'⟩

theorem leads_get {f : RemoteStore → StoreM RemoteStore α} (h : Leads c file start (f s) s P) :
    Leads c file start (get >>= f) s P := h

theorem leads_pure {a : α} (h : Came c file start ts s) (ha : P ts s a) :
    Leads c file start (pure a) s P :=
  ⟨ts, _, s, rfl, h, ha⟩

/-- What is read from elsewhere is an answer or the end. -/
theorem leads_liftM {r : Except StoreError α} (h : Came c file start ts s)
    (herror : ∀ e, r = .error e → Ends c file ts (.error e)) :
    Leads c file start (liftM r) s fun ts' s' a => ts' = ts ∧ s' = s ∧ r = .ok a := by
  cases r with
  | error e => exact ⟨ts, _, s, rfl, h, herror e rfl⟩
  | ok a => exact ⟨ts, _, s, rfl, h, rfl, rfl, rfl⟩

/-- **A request is a turn, and a reply that does not show what was asked for is the end.** -/
theorem leads_ask {reader : Json.Reader α} {shown : Reply → Option α} (h : Came c file start ts s)
    (hstep : Follows c file ts step) (hreads : ∀ reply, Wire.read reader reply = reply.answer (shown reply))
    (hfails : ∀ reply, shown reply = none → Turn.Fails file ⟨step, reply⟩ reply.fault) :
    Leads c file start (talk (Wire.ask reader (step.request c))) s fun ts' s' a =>
      ∃ reply, ts' = ts ++ [⟨step, reply⟩] ∧ s'.storeId = s.storeId ∧ shown reply = some a := by
  refine ⟨_, _, _, run_talk_ask reader _ s, h.withWire (h.said.hear hstep), ?_⟩
  rw [hreads]
  cases hshown : shown s.wire.next with
  | none => exact .stopped List.getLast?_concat (hfails _ hshown)
  | some a => exact ⟨_, rfl, rfl, hshown⟩

end Rules

theorem leads_modify {g : RemoteStore → RemoteStore} (h : Came c file start ts (g s)) :
    Leads c file start (modify g) s fun ts' s' _ => ts' = ts ∧ s' = g s :=
  ⟨ts, _, _, rfl, h, rfl, rfl⟩

theorem leads_note {f : Unit → StoreM RemoteStore α} {P : List Turn → RemoteStore → α → Prop}
    (h : Came c file start ts s) (n : RemoteNotice)
    (hf : ∀ s', Came c file start ts s' → s'.storeId = s.storeId → Leads c file start (f ()) s' P) :
    Leads c file start (note n >>= f) s P :=
  hf { s with log := s.log ++ [n] } ⟨h.said, h.pageSize, h.authorization⟩ rfl

theorem leads_list (h : Came c file start [] s) (huntold : c.storeId = none) :
    Leads c file start
      (list storesCodec.read s.storesRequest fun page =>
        page.any fun entry => entry.name == c.storeName) s
      fun ts _ listing => Looked c file ts listing := by
  obtain ⟨ts, hsaid, hlooked⟩ := h.said.look (.first huntold rfl)
  rw [h.pageRequest]
  exact ⟨ts, _, _, rfl, h.withWire hsaid, hlooked⟩

/-- **A store that was not told is looked for, and made if there is none.** -/
theorem leads_findOrMakeStore (h : Came c file start [] s) (huntold : c.storeId = none) :
    Leads c file start (findOrMakeStore c.storeName) s fun ts _ id => Knows c ts id := by
  refine leads_get ((leads_list h huntold).bind fun ts s' listing hcame hlooked => ?_)
  refine (leads_liftM hcame hlooked.ends).bind fun ts₁ s₁ items hcame₁ hitems => ?_
  obtain ⟨rfl, rfl, hitems⟩ := hitems
  cases hlooked with
  | broken => cases hitems
  | found hknows hentry =>
    cases hitems
    rw [hentry]
    exact leads_note hcame₁ _ fun s₂ hcame₂ _ => leads_pure hcame₂ hknows
  | missing hmake hnone =>
    cases hitems
    rw [hnone]
    have hfails : ∀ reply : Reply, reply.store? = none → Turn.Fails file ⟨.make, reply⟩ reply.fault :=
      fun reply hnone => ⟨hnone, rfl⟩
    dsimp only
    rw [h.makeRequest]
    refine (leads_ask hcame₁ hmake read_storeCodec hfails).bind fun ts₂ s₂ entry hcame₂ hmade => ?_
    obtain ⟨reply, rfl, -, hread⟩ := hmade
    exact leads_note hcame₂ _ fun s₃ hcame₃ _ =>
      leads_pure hcame₃ (.made huntold List.getLast?_concat rfl hread)

/-- The file is read as the model that it holds, and without one there is one reason. -/
theorem modelOfFile_cases (file : Option (List UInt8)) :
    (∃ model, modelOfFile file = .ok model ∧ FileHolds file model) ∨
      modelOfFile file = .error .modelSource ∧ ∀ model, ¬FileHolds file model := by
  unfold modelOfFile
  split
  · exact .inr ⟨rfl, fun model ⟨_, hbytes, _⟩ => nomatch hbytes⟩
  · next bytes =>
    split
    · next hnone =>
      refine .inr ⟨rfl, ?_⟩
      rintro model ⟨_, ⟨⟩, hsome, -⟩
      rw [Option.isNone_iff_eq_none] at hnone
      rw [hnone] at hsome
      cases hsome
    · next hsome =>
      split
      · next model hread =>
        exact .inl ⟨model, rfl, bytes, rfl, Option.isSome_iff_ne_none.2 (by simpa using hsome),
          Json.decode_json_eq_ok_iff.1 hread⟩
      · next hread =>
        refine .inr ⟨rfl, ?_⟩
        rintro model ⟨_, ⟨⟩, -, hmodel⟩
        cases hread.symm.trans (Json.decode_json_eq_ok_iff.2 hmodel)

/-- **A model that was not told is the latest, or the one of the file if there is none.** -/
theorem leads_latestOrSentModel (h : Came c file start ts s) (huntold : c.modelId = none)
    (hknows : Knows c ts s.storeId) :
    Leads c file start (latestOrSentModel c.modelFile file) s fun ts' s' id =>
      s'.storeId = s.storeId ∧ Ends c file ts' (.ok (s.storeId, id)) := by
  have hfails : ∀ reply : Reply, reply.models? = none →
      Turn.Fails file ⟨.latest s.storeId, reply⟩ reply.fault := fun reply hnone => .inl ⟨hnone, rfl⟩
  have hfails' : ∀ model (reply : Reply), reply.writtenModel? = none →
      Turn.Fails file ⟨.send s.storeId model, reply⟩ reply.fault := fun model reply hnone => ⟨hnone, rfl⟩
  refine leads_get ?_
  dsimp only
  rw [h.latestRequest]
  refine (leads_ask h (.latest huntold hknows) read_modelsCodec hfails).bind
    fun ts₁ s₁ models hcame₁ hasked => ?_
  obtain ⟨reply, rfl, hid₁, hread⟩ := hasked
  cases models with
  | cons id older =>
    exact leads_note hcame₁ _ fun s₂ hcame₂ hid₂ =>
      leads_pure hcame₂ ⟨hid₂.trans hid₁, .latest List.getLast?_concat rfl hread⟩
  | nil =>
    -- the server has no model, so it depends on the file whether there is a next request
    have hfile : ∀ e, modelOfFile file = .error e →
        Ends c file (ts ++ [⟨.latest s.storeId, reply⟩]) (.error e) := by
      intro e hmodel
      rcases modelOfFile_cases file with ⟨model, hok, -⟩ | ⟨hnone, hholds⟩
      · cases hok.symm.trans hmodel
      · cases hnone.symm.trans hmodel
        exact .stopped List.getLast?_concat (.inr ⟨hread, hholds, rfl⟩)
    refine (leads_liftM hcame₁ hfile).bind fun ts₂ s₂ model hcame₂ hmodel => ?_
    obtain ⟨rfl, rfl, hmodel⟩ := hmodel
    rw [h.sendRequest]
    have hholds : FileHolds file model := by
      rcases modelOfFile_cases file with ⟨model', hok, hholds⟩ | ⟨hnone, -⟩
      · cases hok.symm.trans hmodel
        exact hholds
      · cases hnone.symm.trans hmodel
    have hsend : Follows c file (ts ++ [⟨.latest s.storeId, reply⟩]) (.send s.storeId model) :=
      .send huntold List.getLast?_concat rfl hread hholds
    refine (leads_ask hcame₂ hsend read_writtenModelCodec (hfails' model)).bind
      fun ts₃ s₃ id hcame₃ hsent => ?_
    obtain ⟨reply', rfl, hid₃, hread'⟩ := hsent
    exact leads_note hcame₃ _ fun s₄ hcame₄ hid₄ => leads_pure hcame₄
      ⟨hid₄.trans (hid₃.trans hid₁), .sent List.getLast?_concat rfl hread'⟩

theorem leads_resolve (h : Came c file start [] s) :
    Leads c file start (resolve c file) s fun ts s' _ =>
      Ends c file ts (.ok (s'.storeId, s'.modelId)) := by
  unfold resolve
  extract_lets rest
  have hrest : ∀ ts s id, Came c file start ts s → Knows c ts id →
      Leads c file start (rest id) s fun ts s' _ => Ends c file ts (.ok (s'.storeId, s'.modelId)) := by
    intro ts s id hcame hknows
    have hset : Came c file start ts { s with storeId := id } :=
      ⟨hcame.said, hcame.pageSize, hcame.authorization⟩
    refine (leads_modify hset).bind fun ts₁ s₁ _ hcame₁ hstore => ?_
    obtain ⟨rfl, rfl⟩ := hstore
    extract_lets finish
    have hfinish : ∀ ts s model, Came c file start ts s → Ends c file ts (.ok (s.storeId, model)) →
        Leads c file start (finish model) s fun ts s' _ =>
          Ends c file ts (.ok (s'.storeId, s'.modelId)) := by
      intro ts s model hcame hends
      have hset : Came c file start ts { s with modelId := model } :=
        ⟨hcame.said, hcame.pageSize, hcame.authorization⟩
      refine (leads_modify hset).bind fun ts₁ s₁ _ hcame₁ hmodel => ?_
      obtain ⟨rfl, rfl⟩ := hmodel
      exact ⟨_, _, _, rfl, ⟨hset.said, hset.pageSize, hset.authorization⟩, hends⟩
    cases hmodel : c.modelId with
    | some model => exact hfinish _ _ model hset (.told hknows hmodel)
    | none =>
      refine (leads_latestOrSentModel hset hmodel hknows).bind fun ts₂ s₂ model hcame₂ hgot => ?_
      obtain ⟨hid, hends⟩ := hgot
      exact hfinish _ _ model hcame₂ (hid ▸ hends)
  cases hstore : c.storeId with
  | some id => exact hrest [] s id h (.told hstore rfl)
  | none =>
    refine (leads_findOrMakeStore h hstore).bind fun ts₁ s₁ id hcame₁ hknows => ?_
    exact hrest ts₁ s₁ id hcame₁ hknows

theorem authorizationOf_eq {a : Option String} (h : authorizationOf c = .ok a) :
    a = c.apiToken.map ("Bearer " ++ ·) := by
  unfold authorizationOf at h
  split at h
  · next hnone =>
    rw [hnone]
    exact (Except.ok.inj h).symm
  · next hsome =>
    rw [hsome]
    split at h
    · exact (Except.ok.inj h).symm
    · cases h

/-- A token that is not sent has a control character in it. -/
theorem ends_of_authorizationOf {e : StoreError} (h : authorizationOf c = .error e) :
    Ends c file [] (.error e) := by
  unfold authorizationOf at h
  split at h
  · cases h
  · next token htoken =>
    split at h
    · cases h
    · next hunsendable =>
      cases h
      simp only [IsSendable, not_forall, not_or, not_and, Decidable.not_not] at hunsendable
      obtain ⟨byte, hmem, htab, hcontrol⟩ := hunsendable
      refine .unsendable htoken hmem ⟨htab, ?_⟩ rfl
      by_cases hlow : byte < 32
      · exact .inl hlow
      · exact .inr (hcontrol (UInt8.not_lt.1 hlow))

/-- **Connecting never does a thing twice and stops at the first fault.** For all that a server replies,
the requests of a client that connects are those of an attempt, in order and with the replies that the wire
held for them, and the client comes to what the attempt comes to. -/
theorem connect_isAttempt (c : Config) (file : Option (List UInt8)) (start : Wire) :
    let client := RemoteStore.connect c file start
    ∃ ts, start.Heard client.2.wire (ts.map (Turn.exchange c)) ∧
      IsAttempt c file ts (client.1.map fun () => (client.2.storeId, client.2.modelId)) := by
  intro client
  cases hauth : authorizationOf c with
  | error e =>
    have hclient : client = (.error e, unresolved c none start) := by
      simp only [client, RemoteStore.connect, hauth]
    rw [hclient]
    exact ⟨[], .nil start, Lawful.nil.isAttempt (ends_of_authorizationOf hauth)⟩
  | ok a =>
    have hclient : client = (resolve c file).run (unresolved c a start) := by
      simp only [client, RemoteStore.connect, hauth]
    have hcame : Came c file start [] (unresolved c a start) :=
      ⟨⟨.nil, .nil start⟩, rfl, authorizationOf_eq hauth⟩
    obtain ⟨ts, r, s, hrun, hlast, hends⟩ := leads_resolve hcame
    rw [hclient, hrun]
    refine ⟨ts, hlast.said.heard, hlast.said.lawful.isAttempt ?_⟩
    cases r with
    | error e => exact hends
    | ok _ => exact hends

/-- Two pages of stores. -/
def twoStorePages : Wire :=
  ⟨[.ok "[[[\"1\",\"other\"]],\"t\"]".toUTF8.toList, .ok "[[[\"2\",\"heureka\"]]]".toUTF8.toList],
    .closed, []⟩

/-- The store is on the second page, so none is made. -/
example : let client := RemoteStore.connect { Config.default with modelId := some "m" } none twoStorePages
    client.1 = .ok () ∧ client.2.storeId = "2" ∧ client.2.wire.exchanges.length = 2 :=
  ⟨by cbv, by cbv, by cbv⟩

end TupleSync.Bootstrap
