import TupleSync.Proofs.Remote.Exchange
import TupleSync.Proofs.Store.Run
import TupleSync.Remote.Connect

/-!
# What a client says

**Whatever a server replies, the requests of an action follow from the replies, and so does its answer.**
Nothing is asked of the server here: a transcript is the list of requests with whatever came back, and
`Says` relates the transcripts that an action can have to the answers that it gives.

A client keeps its store, its model and its limits for life. It is the same client that an action finds
and leaves, with another wire and another log, so actions put together speak of one client.
-/

set_option autoImplicit false

namespace TupleSync

open Remote

/-! ## One client -/

/-- The client at another time of its life. -/
def RemoteStore.later (s : RemoteStore) (w : Wire) (log : List RemoteNotice) : RemoteStore :=
  { s with wire := w, log := log }

namespace RemoteStore

variable {α β : Type}

/-- The action does not change how many tuples a request of the client changes. -/
def KeepsChunk (x : StoreM RemoteStore α) : Prop := ∀ s, (x.run s).2.chunk = s.chunk

theorem KeepsChunk.bind {x : StoreM RemoteStore α} {f : α → StoreM RemoteStore β} (hx : KeepsChunk x)
    (hf : ∀ a, KeepsChunk (f a)) : KeepsChunk (x >>= f) := by
  intro s
  have hfirst := hx s
  rcases hrun : x.run s with ⟨e | a, s'⟩
  · rw [storeM_bind_of_error hrun, ← hfirst, hrun]
  · rw [storeM_bind_of_ok hrun, hf a s', ← hfirst, hrun]

theorem keepsChunk_get : KeepsChunk (get : StoreM RemoteStore RemoteStore) := fun _ => rfl

theorem keepsChunk_pure (a : α) : KeepsChunk (pure a) := fun _ => rfl

theorem keepsChunk_liftM (r : Except StoreError α) : KeepsChunk (liftM r : StoreM RemoteStore α) := by
  intro s
  cases r <;> rfl

theorem keepsChunk_talk (f : Wire → Except StoreError α × Wire) : KeepsChunk (talk f) := fun _ => rfl

theorem keepsChunk_modify {f : RemoteStore → RemoteStore} (h : ∀ s, (f s).chunk = s.chunk) :
    KeepsChunk (modify f : StoreM RemoteStore Unit) := h

theorem keepsChunk_note (n : RemoteNotice) : KeepsChunk (note n) := fun _ => rfl

theorem keepsChunk_findOrMakeStore (name : String) : KeepsChunk (findOrMakeStore name) := by
  refine keepsChunk_get.bind fun s => (keepsChunk_talk _).bind fun listing => ?_
  refine (keepsChunk_liftM _).bind fun entries => ?_
  split
  · exact (keepsChunk_note _).bind fun _ => keepsChunk_pure _
  · exact (keepsChunk_talk _).bind fun entry => (keepsChunk_note _).bind fun _ => keepsChunk_pure _

theorem keepsChunk_latestOrSentModel (path : String) (file : Option (List UInt8)) :
    KeepsChunk (latestOrSentModel path file) := by
  refine keepsChunk_get.bind fun s => (keepsChunk_talk _).bind fun models => ?_
  split
  · exact (keepsChunk_note _).bind fun _ => keepsChunk_pure _
  · refine (keepsChunk_liftM _).bind fun model => (keepsChunk_talk _).bind fun id => ?_
    exact (keepsChunk_note _).bind fun _ => keepsChunk_pure _

theorem keepsChunk_resolve (c : Config) (file : Option (List UInt8)) : KeepsChunk (resolve c file) := by
  unfold resolve
  extract_lets rest
  have hrest : ∀ store, KeepsChunk (rest store) := by
    intro store
    have hset : KeepsChunk (modify fun s => { s with storeId := store }) :=
      keepsChunk_modify fun _ => rfl
    refine hset.bind fun _ => ?_
    extract_lets finish
    have hfinish : ∀ model, KeepsChunk (finish model) := by
      intro model
      have hset : KeepsChunk (modify fun s => { s with modelId := model }) :=
        keepsChunk_modify fun _ => rfl
      exact hset.bind fun _ => keepsChunk_note _
    cases c.modelId with
    | some model => exact hfinish model
    | none => exact (keepsChunk_latestOrSentModel _ _).bind hfinish
  cases c.storeId with
  | some store => exact hrest store
  | none => exact (keepsChunk_findOrMakeStore _).bind hrest

/-- **A client is never set to change less than one tuple per request**, whether or not it connects. -/
theorem chunk_connect (c : Config) (file : Option (List UInt8)) (start : Wire) :
    (connect c file start).2.chunk = max 1 c.maxTuplesPerWrite := by
  unfold connect
  split
  · rfl
  · exact keepsChunk_resolve c file _

end RemoteStore

/-! ## Transcripts -/

namespace Remote

open RemoteStore

abbrev Exchange : Type := Request × Reply

variable {α β : Type} {s : RemoteStore}

/-- What the action of the client says and answers, whatever comes back. -/
def Says (s : RemoteStore) (x : StoreM RemoteStore α)
    (Q : List Exchange → Except StoreError α → Prop) : Prop :=
  ∀ w log, ∃ xs r w' log', x.run (s.later w log) = (r, s.later w' log') ∧ w.Heard w' xs ∧ Q xs r

section Rules

variable {x : StoreM RemoteStore α} {f : α → StoreM RemoteStore β}
variable {P P' : List Exchange → Except StoreError α → Prop}
variable {Q : α → List Exchange → Except StoreError β → Prop}

theorem Says.mono (h : Says s x P) (himp : ∀ xs r, P xs r → P' xs r) : Says s x P' := by
  intro w log
  obtain ⟨xs, r, w', log', hrun, hheard, hr⟩ := h w log
  exact ⟨xs, r, w', log', hrun, hheard, himp xs r hr⟩

/-- **What comes second is said after the first, unless the first fails.** What is known of the first may
be known of something that its answer is made from. -/
theorem Says.bind_map {γ : Type} {g : γ → α} {P : List Exchange → Except StoreError γ → Prop}
    {Q : γ → List Exchange → Except StoreError β → Prop}
    (hx : Says s x fun xs r => ∃ found, P xs found ∧ r = found.map g)
    (hf : ∀ c, Says s (f (g c)) (Q c)) :
    Says s (x >>= f) fun xs r =>
      (∃ ys c zs, xs = ys ++ zs ∧ P ys (.ok c) ∧ Q c zs r) ∨ ∃ e, r = .error e ∧ P xs (.error e) := by
  intro w log
  obtain ⟨ys, _, w₁, log₁, hrun, hheard, found, hfound, rfl⟩ := hx w log
  cases found with
  | error e => exact ⟨ys, _, w₁, log₁, storeM_bind_of_error hrun, hheard, Or.inr ⟨e, rfl, hfound⟩⟩
  | ok c =>
    obtain ⟨zs, r, w₂, log₂, hrun', hheard', hr⟩ := hf c w₁ log₁
    exact ⟨ys ++ zs, r, w₂, log₂, (storeM_bind_of_ok hrun).trans hrun', hheard.append hheard',
      Or.inl ⟨ys, c, zs, rfl, hfound, hr⟩⟩

theorem Says.bind (hx : Says s x P) (hf : ∀ a, Says s (f a) (Q a)) :
    Says s (x >>= f) fun xs r =>
      (∃ ys a zs, xs = ys ++ zs ∧ P ys (.ok a) ∧ Q a zs r) ∨ ∃ e, r = .error e ∧ P xs (.error e) := by
  refine Says.bind_map (hx.mono fun xs r hr => ⟨r, hr, ?_⟩) hf
  cases r <;> rfl

theorem says_get {g : RemoteStore → StoreM RemoteStore α} (h : ∀ w log, Says s (g (s.later w log)) P) :
    Says s (get >>= g) P := fun w log => h w log w log

theorem says_pure (a : α) : Says s (pure a) fun xs r => xs = [] ∧ r = .ok a :=
  fun w log => ⟨[], _, w, log, rfl, .nil w, rfl, rfl⟩

theorem says_throw (e : StoreError) :
    Says s (throw e : StoreM RemoteStore α) fun xs r => xs = [] ∧ r = .error e :=
  fun w log => ⟨[], _, w, log, rfl, .nil w, rfl, rfl⟩

theorem says_note (n : RemoteNotice) : Says s (note n) fun xs r => xs = [] ∧ r = .ok () :=
  fun w log => ⟨[], _, w, log ++ [n], rfl, .nil w, rfl, rfl⟩

/-- After an action that says nothing there is only what comes second. -/
theorem Says.bind_of_silent {a : α} {Q : List Exchange → Except StoreError β → Prop}
    (hx : Says s x fun xs r => xs = [] ∧ r = .ok a) (hf : Says s (f a) Q) : Says s (x >>= f) Q := by
  intro w log
  obtain ⟨_, _, w₁, log₁, hrun, hheard, rfl, rfl⟩ := hx w log
  obtain ⟨xs, r, w₂, log₂, hrun', hheard', hr⟩ := hf w₁ log₁
  exact ⟨xs, r, w₂, log₂, (storeM_bind_of_ok hrun).trans hrun', hheard.append hheard', hr⟩

/-- **An action that asks sends one request, and answers what the reply says.** -/
theorem says_post (reader : Json.Reader α) (what : String) (body : RemoteStore → Json) (content : Json)
    (hbody : ∀ w log, body (s.later w log) = content) :
    Says s (post reader what body) fun xs r =>
      ∃ reply, xs = [(s.request what content, reply)] ∧ r = Wire.read reader reply := by
  refine says_get fun w log => ?_
  rw [hbody]
  intro w log
  exact ⟨_, _, _, _, run_talk_ask reader _ _, (Wire.Heard.nil w).hear _, _, rfl, rfl⟩

end Rules

end Remote

end TupleSync
