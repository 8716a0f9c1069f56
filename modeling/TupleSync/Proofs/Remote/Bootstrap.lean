import Mathlib.Data.List.Basic
import TupleSync.Proofs.Remote.Replies
import TupleSync.Remote.Connect

/-!
# How a client comes to know its store and its model

**A client that connects takes at most four kinds of turns**: it asks for pages of stores, has a store made,
asks for the latest model and sends one. `Follows` says which request may come after which turns, and
`Ends` what an attempt comes to with the turns it took; both look at what the replies so far have shown and
at nothing else. A history in which every request follows from the turns before it goes through the four
kinds in their order, and only pages come more than once.
-/

set_option autoImplicit false

namespace TupleSync.Bootstrap

open Remote RemoteStore

inductive Step where
  | page (token : String)
  | make
  | latest (store : String)
  | send (store : String) (model : Json)

/-- The request of a step, with what the configuration says of pages and of being let in. -/
def Step.request (c : Config) (step : Step) : Request :=
  let authorization := c.apiToken.map ("Bearer " ++ ·)
  match step with
  | page token =>
    ⟨.get, ["stores"],
      ("page_size", toString (max 1 c.pageSize)) ::
        (if token = "" then [] else [("continuation_token", token)]), authorization, none⟩
  | make => ⟨.post, ["stores"], [], authorization, some (.object [("name", .text c.storeName)])⟩
  | latest store =>
    ⟨.get, ["stores", store, "authorization-models"], [("page_size", "1")], authorization, none⟩
  | send store model =>
    ⟨.post, ["stores", store, "authorization-models"], [], authorization, some model⟩

def Step.stage : Step → Nat
  | page _ => 0
  | make => 1
  | latest _ => 2
  | send _ _ => 3

/-- A step that was taken, and the reply to it. -/
structure Turn where
  step : Step
  reply : Reply

def Turn.exchange (c : Config) (t : Turn) : Request × Reply := (t.step.request c, t.reply)

/-- The stores that a turn has shown. -/
def Turn.shown (t : Turn) : List StoreEntry :=
  match t.step, t.reply.stores? with
  | .page _, some page => page.items
  | _, _ => []

/-- The file can be read and holds this model. -/
def FileHolds (file : Option (List UInt8)) (model : Json) : Prop :=
  ∃ bytes, file = some bytes ∧ (String.fromUTF8? ⟨bytes.toArray⟩).isSome = true ∧
    Json.Tells bytes model

section Rules

variable (c : Config) (file : Option (List UInt8)) (ts : List Turn)

/-- The first store of the name among those that turns have shown. -/
def named? : Option StoreEntry :=
  (ts.flatMap Turn.shown).find? fun entry => entry.name == c.storeName

/-- The turn has read a page that the store is not on, with this token for the next one. -/
inductive Passed (t : Turn) : String → Prop where
  | page {token : String} {page : Page StoreEntry} (hstep : t.step = .page token)
      (hread : t.reply.stores? = some page) (hnone : named? c [t] = none) : Passed t page.next

/-- The store is known: it was told, it is on the last page, or it has just been made. -/
inductive Knows : String → Prop where
  | told {store : String} (htold : c.storeId = some store) (hstart : ts = []) : Knows store
  | found {t : Turn} {entry : StoreEntry} (huntold : c.storeId = none)
      (hlast : ts.getLast? = some t) (hentry : named? c [t] = some entry) : Knows entry.id
  | made {t : Turn} {entry : StoreEntry} (huntold : c.storeId = none)
      (hlast : ts.getLast? = some t) (hstep : t.step = .make)
      (hread : t.reply.store? = some entry) : Knows entry.id

/-- The step may be taken after these turns. -/
inductive Follows : Step → Prop where
  | first (huntold : c.storeId = none) (hstart : ts = []) : Follows (.page "")
  | next {t : Turn} {token : String} (huntold : c.storeId = none) (hlast : ts.getLast? = some t)
      (hpassed : Passed c t token) (htoken : token ≠ "") : Follows (.page token)
  | make {t : Turn} (huntold : c.storeId = none) (hlast : ts.getLast? = some t)
      (hpassed : Passed c t "") : Follows .make
  | latest {store : String} (huntold : c.modelId = none) (hknows : Knows c ts store) :
      Follows (.latest store)
  | send {t : Turn} {store : String} {model : Json} (huntold : c.modelId = none)
      (hlast : ts.getLast? = some t) (hstep : t.step = .latest store)
      (hread : t.reply.models? = some []) (hmodel : FileHolds file model) : Follows (.send store model)

/-- Every step follows from the turns before it. -/
inductive Lawful : List Turn → Prop where
  | nil : Lawful []
  | snoc {ts : List Turn} {t : Turn} (h : Lawful ts) (hstep : Follows c file ts t.step) :
      Lawful (ts ++ [t])

end Rules

/-- Nothing can come after the turn, for this reason: its reply does not show what was asked for, or it
leaves it to the file to give a model and there is none in it. -/
def Turn.Fails (file : Option (List UInt8)) (t : Turn) (e : StoreError) : Prop :=
  match t.step with
  | .page _ => t.reply.stores? = none ∧ e = t.reply.fault
  | .make => t.reply.store? = none ∧ e = t.reply.fault
  | .latest _ => t.reply.models? = none ∧ e = t.reply.fault ∨
    t.reply.models? = some [] ∧ (∀ model, ¬FileHolds file model) ∧ e = .modelSource
  | .send _ _ => t.reply.writtenModel? = none ∧ e = t.reply.fault

/-- What an attempt with these turns comes to: an error, or store and model. -/
inductive Ends (c : Config) (file : Option (List UInt8)) (ts : List Turn) :
    Except StoreError (String × String) → Prop where
  | unsendable {token : String} {byte : UInt8} (htoken : c.apiToken = some token)
      (hmem : byte ∈ token.toUTF8.toList) (hcontrol : byte ≠ 9 ∧ (byte < 32 ∨ byte = 127))
      (hstart : ts = []) : Ends c file ts (.error (.configuration .tokenUnsendable))
  | stopped {t : Turn} {e : StoreError} (hlast : ts.getLast? = some t) (hfails : t.Fails file e) :
      Ends c file ts (.error e)
  | told {store model : String} (hknows : Knows c ts store) (htold : c.modelId = some model) :
      Ends c file ts (.ok (store, model))
  | latest {t : Turn} {store model : String} {older : List String} (hlast : ts.getLast? = some t)
      (hstep : t.step = .latest store)
      (hread : t.reply.models? = some (model :: older)) : Ends c file ts (.ok (store, model))
  | sent {t : Turn} {store id : String} {model : Json} (hlast : ts.getLast? = some t)
      (hstep : t.step = .send store model)
      (hread : t.reply.writtenModel? = some id) : Ends c file ts (.ok (store, id))

/-- The store that these turns come to: the one that was told, the first one of the name, or the one that
was made. -/
def IsStore (c : Config) (ts : List Turn) (store : String) : Prop :=
  match c.storeId, named? c ts with
  | some id, _ => store = id
  | none, some entry => store = entry.id
  | none, none => ∃ t ∈ ts, ∃ entry, t.step = .make ∧ t.reply.store? = some entry ∧ store = entry.id

/-! ## Histories -/

variable {c : Config} {file : Option (List UInt8)} {ts : List Turn} {t : Turn} {step : Step}

theorem Lawful.last (h : Lawful c file ts) (hlast : ts.getLast? = some t) :
    ∃ before, ts = before ++ [t] ∧ Lawful c file before ∧ Follows c file before t.step := by
  cases h with
  | nil => cases hlast
  | snoc h hstep =>
    cases List.getLast?_concat.symm.trans hlast
    exact ⟨_, rfl, h, hstep⟩

/-- In a lawful history every step follows from what was before it. -/
theorem Lawful.follows (h : Lawful c file ts) {before after : List Turn}
    (heq : ts = before ++ t :: after) :
    Lawful c file before ∧ Follows c file before t.step := by
  induction h generalizing after with
  | nil => simp at heq
  | @snoc ts u h hstep ih =>
    rcases List.eq_nil_or_concat after with rfl | ⟨after', v, rfl⟩
    · obtain ⟨rfl, hlast⟩ := List.append_inj' heq rfl
      cases hlast
      exact ⟨h, hstep⟩
    · rw [List.concat_eq_append, ← List.cons_append, ← List.append_assoc] at heq
      obtain ⟨rfl, -⟩ := List.append_inj' heq rfl
      exact ih rfl

/-! ## The order of the stages -/

/-- The first step is of an earlier stage than the second, or both ask for pages. -/
def Step.Before (a b : Step) : Prop := a.stage < b.stage ∨ a.stage = 0 ∧ b.stage = 0

theorem Step.Before.trans {a b d : Step} (hab : a.Before b) (hbd : b.Before d) : a.Before d := by
  unfold Before at *
  omega

theorem Passed.stage_eq {token : String} (h : Passed c t token) : t.step.stage = 0 := by
  cases h with
  | page hstep => rw [hstep, Step.stage]

/-- Only pages show stores. -/
theorem stage_eq_of_named? {entry : StoreEntry} (h : named? c [t] = some entry) :
    t.step.stage = 0 := by
  unfold named? Turn.shown at h
  cases hstep : t.step with
  | page token => rfl
  | _ => simp [hstep] at h

theorem Knows.stage_le {store : String} (h : Knows c ts store) (hlast : ts.getLast? = some t) :
    t.step.stage ≤ 1 := by
  cases h with
  | told _ hstart => simp [hstart] at hlast
  | found _ hlast' hentry =>
    cases hlast.symm.trans hlast'
    exact stage_eq_of_named? hentry ▸ Nat.zero_le 1
  | made _ hlast' hstep =>
    cases hlast.symm.trans hlast'
    exact hstep ▸ Nat.le_refl 1

theorem Follows.before_of_last (h : Follows c file ts step) (hlast : ts.getLast? = some t) :
    t.step.Before step := by
  unfold Step.Before
  cases h with
  | first _ hstart => simp [hstart] at hlast
  | next _ hlast' hpassed =>
    cases hlast.symm.trans hlast'
    exact .inr ⟨hpassed.stage_eq, rfl⟩
  | make _ hlast' hpassed =>
    cases hlast.symm.trans hlast'
    exact .inl (hpassed.stage_eq ▸ Nat.zero_lt_one)
  | latest _ hknows => exact .inl (Nat.lt_succ_of_le (hknows.stage_le hlast))
  | send _ hlast' hstep =>
    cases hlast.symm.trans hlast'
    rw [hstep]
    exact .inl (Nat.lt_succ_self 2)

/-- **Every turn before a step is of an earlier stage, or a page before a page.** -/
theorem Lawful.before (h : Lawful c file ts) (hstep : Follows c file ts step) :
    ∀ t ∈ ts, t.step.Before step := by
  induction h generalizing step with
  | nil => simp
  | snoc _ hlast ih =>
    have hnext := hstep.before_of_last List.getLast?_concat
    intro u hu
    rcases List.mem_append.1 hu with hu | hu
    · exact (ih hlast u hu).trans hnext
    · exact List.mem_singleton.1 hu ▸ hnext

theorem Lawful.pairwise (h : Lawful c file ts) : ts.Pairwise fun t u => t.step.Before u.step := by
  induction h with
  | nil => exact .nil
  | snoc h hstep ih =>
    refine List.pairwise_append.2 ⟨ih, List.pairwise_singleton _ _, fun t ht u hu => ?_⟩
    exact List.mem_singleton.1 hu ▸ h.before hstep t ht

/-- **Until the store is known there are only pages, and the store is on none of them.** -/
theorem Lawful.passed (h : Lawful c file ts) (hstep : Follows c file ts step)
    (hstage : step.stage ≤ 1) : ∀ t ∈ ts, ∃ next, Passed c t next := by
  induction h generalizing step with
  | nil => simp
  | @snoc ts t _ hlast ih =>
    have hpassed : ∃ next, Passed c t next := by
      cases hstep with
      | first _ hstart => simp at hstart
      | next _ hlast' hpassed | make _ hlast' hpassed =>
        cases List.getLast?_concat.symm.trans hlast'
        exact ⟨_, hpassed⟩
      | latest | send => simp [Step.stage] at hstage
    obtain ⟨next, hnext⟩ := hpassed
    intro u hu
    rcases List.mem_append.1 hu with hu | hu
    · exact ih hlast (hnext.stage_eq ▸ Nat.zero_le 1) u hu
    · exact List.mem_singleton.1 hu ▸ ⟨next, hnext⟩

/-! ## The store -/

theorem named?_append (ts us : List Turn) :
    named? c (ts ++ us) = (named? c ts).or (named? c us) := by
  unfold named?
  rw [List.flatMap_append, List.find?_append]

theorem named?_eq_none_of_passed (h : ∀ t ∈ ts, ∃ next, Passed c t next) : named? c ts = none := by
  induction ts with
  | nil => rfl
  | cons t rest ih =>
    obtain ⟨⟨next, hnext⟩, hrest⟩ := List.forall_mem_cons.1 h
    rw [← List.singleton_append, named?_append, ih hrest, Option.or_none]
    cases hnext with
    | page _ _ hnone => exact hnone

theorem Lawful.isStore_of_knows {store : String} (h : Lawful c file ts) (hknows : Knows c ts store) :
    IsStore c ts store := by
  unfold IsStore
  cases hknows with
  | told htold => rw [htold]
  | @found t entry huntold hlast hentry =>
    obtain ⟨before, rfl, hbefore, hstep⟩ := h.last hlast
    have hstage : t.step.stage ≤ 1 := stage_eq_of_named? hentry ▸ Nat.zero_le 1
    rw [huntold, named?_append, named?_eq_none_of_passed (hbefore.passed hstep hstage),
      Option.none_or, hentry]
  | @made t entry huntold hlast hmake hread =>
    obtain ⟨before, rfl, hbefore, hstep⟩ := h.last hlast
    have hshown : named? c [t] = none := by simp [named?, Turn.shown, hmake]
    have hpassed := hbefore.passed hstep (hmake ▸ Nat.le_refl 1)
    rw [huntold, named?_append, named?_eq_none_of_passed hpassed, Option.none_or, hshown]
    exact ⟨t, List.mem_append_right _ List.mem_cons_self, entry, hmake, hread, rfl⟩

/-- What comes after the store is known does not change it. -/
theorem IsStore.snoc {store : String} (h : IsStore c ts store) (hstage : 1 < t.step.stage) :
    IsStore c (ts ++ [t]) store := by
  have hshown : named? c [t] = none := by
    cases hnamed : named? c [t] with
    | none => rfl
    | some entry =>
      rw [stage_eq_of_named? hnamed] at hstage
      omega
  have hsame : named? c (ts ++ [t]) = named? c ts := by
    rw [named?_append, hshown, Option.or_none]
  unfold IsStore at h ⊢
  rw [hsame]
  cases htold : c.storeId with
  | some id => simpa only [htold] using h
  | none =>
    cases hnamed : named? c ts with
    | some entry => simpa only [htold, hnamed] using h
    | none =>
      simp only [htold, hnamed] at h
      obtain ⟨u, hu, hmade⟩ := h
      exact ⟨u, List.mem_append_left _ hu, hmade⟩

theorem Lawful.isStore_of_latest {store : String} (h : Lawful c file ts)
    (hlast : ts.getLast? = some t) (hstep : t.step = .latest store) : IsStore c ts store := by
  obtain ⟨before, rfl, hbefore, hlatest⟩ := h.last hlast
  rw [hstep] at hlatest
  cases hlatest with
  | latest _ hknows => exact (hbefore.isStore_of_knows hknows).snoc (hstep ▸ Nat.lt_succ_self 1)

theorem Ends.isStore {store model : String} (hends : Ends c file ts (.ok (store, model)))
    (h : Lawful c file ts) : IsStore c ts store := by
  cases hends with
  | told hknows => exact h.isStore_of_knows hknows
  | latest hlast hstep => exact h.isStore_of_latest hlast hstep
  | sent hlast hstep =>
    obtain ⟨before, rfl, hbefore, hsend⟩ := h.last hlast
    rw [hstep] at hsend
    cases hsend with
    | send _ hlatest hstep' =>
      exact (hbefore.isStore_of_latest hlatest hstep').snoc (by rw [hstep, Step.stage]; omega)

/-! ## Faults -/

theorem Turn.Fails.unique {e e' : StoreError} (h : t.Fails file e) (h' : t.Fails file e') : e = e' := by
  obtain ⟨step, reply⟩ := t
  cases step with
  | page | make | send => exact h.2.trans h'.2.symm
  | latest =>
    rcases h with ⟨hnone, rfl⟩ | ⟨hempty, -, rfl⟩
    · rcases h' with ⟨-, rfl⟩ | ⟨hempty, -, -⟩
      · rfl
      · cases hnone.symm.trans hempty
    · rcases h' with ⟨hnone, -⟩ | ⟨-, -, rfl⟩
      · cases hnone.symm.trans hempty
      · rfl

theorem Passed.not_fails {token : String} {e : StoreError} (h : Passed c t token) : ¬t.Fails file e := by
  cases h with
  | page hstep hread => simp [Turn.Fails, hstep, hread]

theorem Knows.not_fails {store : String} {e : StoreError} (h : Knows c ts store)
    (hlast : ts.getLast? = some t) : ¬t.Fails file e := by
  cases h with
  | told _ hstart => simp [hstart] at hlast
  | found _ hlast' hentry =>
    cases hlast.symm.trans hlast'
    -- a page that could not be read would have shown nothing
    unfold named? Turn.shown at hentry
    unfold Turn.Fails
    cases hstep : t.step with
    | page token =>
      cases hread : t.reply.stores? with
      | some page => simp
      | none => simp [hstep, hread] at hentry
    | _ => simp [hstep] at hentry
  | made _ hlast' hstep hread =>
    cases hlast.symm.trans hlast'
    simp [Turn.Fails, hstep, hread]

/-- Nothing follows a turn with a fault. -/
theorem Follows.not_fails {e : StoreError} (h : Follows c file ts step) (hlast : ts.getLast? = some t) :
    ¬t.Fails file e := by
  cases h with
  | first _ hstart => simp [hstart] at hlast
  | next _ hlast' hpassed | make _ hlast' hpassed =>
    cases hlast.symm.trans hlast'
    exact hpassed.not_fails
  | latest _ hknows => exact hknows.not_fails hlast
  | send _ hlast' hstep hread hmodel =>
    cases hlast.symm.trans hlast'
    have hfile : ¬∀ model, ¬FileHolds file model := fun hnone => hnone _ hmodel
    simp [Turn.Fails, hstep, hread, hfile]

theorem Ends.eq_error {r : Except StoreError (String × String)} {e : StoreError}
    (h : Ends c file ts r) (hlast : ts.getLast? = some t) (hfails : t.Fails file e) : r = .error e := by
  cases h with
  | unsendable _ _ _ hstart => simp [hstart] at hlast
  | stopped hlast' hfails' =>
    cases hlast.symm.trans hlast'
    rw [hfails'.unique hfails]
  | told hknows => exact absurd hfails (hknows.not_fails hlast)
  | latest hlast' hstep hread | sent hlast' hstep hread =>
    cases hlast.symm.trans hlast'
    simp [Turn.Fails, hstep, hread] at hfails

/-! ## What is asked at most once -/

theorem countP_stage_le_one (h : ts.Pairwise fun t u => t.step.Before u.step) {k : Nat}
    (hk : 0 < k) : ts.countP (fun t => t.step.stage = k) ≤ 1 := by
  induction h with
  | nil => exact Nat.zero_le 1
  | @cons t rest hbefore _ ih =>
    rw [List.countP_cons]
    split
    · next ht =>
      have hrest : rest.countP (fun u => u.step.stage = k) = 0 := by
        rw [List.countP_eq_zero]
        intro u hu heq
        have hlt := hbefore u hu
        simp only [Step.Before, decide_eq_true_eq] at hlt ht heq
        omega
      omega
    · exact ih

/-- The requests that write are those of two stages. -/
theorem request_makes_iff :
    ((step.request c).method = .post ∧ (step.request c).path = ["stores"]) ↔ step.stage = 1 := by
  cases step <;> simp [Step.request, Step.stage]

theorem request_sends_iff :
    ((step.request c).method = .post ∧ (step.request c).path ≠ ["stores"]) ↔ step.stage = 3 := by
  cases step <;> simp [Step.request, Step.stage]

/-! ## Attempts -/

/-- How an attempt with these turns goes that comes to `r`. -/
structure IsAttempt (c : Config) (file : Option (List UInt8)) (ts : List Turn)
    (r : Except StoreError (String × String)) : Prop where
  follows : ∀ before t after, ts = before ++ t :: after → Follows c file before t.step
  inOrder : ts.Pairwise fun t u => t.step.Before u.step
  /-- A store is made at most once, and only when the last page was read and no page had it. -/
  makesOnce : ts.countP (fun t =>
    (t.step.request c).method = .post ∧ (t.step.request c).path = ["stores"]) ≤ 1
  makesLate : ∀ before t after, ts = before ++ t :: after → t.step = .make →
    (∀ u ∈ before, ∃ next, Passed c u next) ∧ ∃ u, before.getLast? = some u ∧ Passed c u ""
  sendsOnce : ts.countP (fun t =>
    (t.step.request c).method = .post ∧ (t.step.request c).path ≠ ["stores"]) ≤ 1
  /-- What was told is not asked for. -/
  storeTold : c.storeId ≠ none → ∀ t ∈ ts, 1 < t.step.stage
  modelTold : c.modelId ≠ none → ∀ t ∈ ts, t.step.stage ≤ 1
  /-- The first fault is the end. -/
  stops : ∀ before t after e, ts = before ++ t :: after → t.Fails file e →
    after = [] ∧ r = .error e
  ends : Ends c file ts r
  isStore : ∀ store model, r = .ok (store, model) → IsStore c ts store

theorem Lawful.isAttempt {r : Except StoreError (String × String)} (h : Lawful c file ts)
    (hends : Ends c file ts r) : IsAttempt c file ts r where
  follows before t after heq := (h.follows heq).2
  inOrder := h.pairwise
  makesOnce := by
    simp only [request_makes_iff]
    exact countP_stage_le_one h.pairwise Nat.zero_lt_one
  makesLate before t after heq hmake := by
    obtain ⟨hbefore, hstep⟩ := h.follows heq
    refine ⟨hbefore.passed hstep (hmake ▸ Nat.le_refl 1), ?_⟩
    rw [hmake] at hstep
    cases hstep with
    | make _ hlast hpassed => exact ⟨_, hlast, hpassed⟩
  sendsOnce := by
    simp only [request_sends_iff]
    exact countP_stage_le_one h.pairwise (Nat.zero_lt_succ 2)
  storeTold htold t ht := by
    obtain ⟨before, after, heq⟩ := List.append_of_mem ht
    obtain ⟨-, hstep⟩ := h.follows heq
    cases hs : t.step with
    | page | make =>
      rw [hs] at hstep
      cases hstep <;> contradiction
    | latest | send => exact Nat.lt_of_lt_of_le (Nat.lt_succ_self 1) (by simp [Step.stage])
  modelTold htold t ht := by
    obtain ⟨before, after, heq⟩ := List.append_of_mem ht
    obtain ⟨-, hstep⟩ := h.follows heq
    cases hs : t.step with
    | page | make => simp [Step.stage]
    | latest | send =>
      rw [hs] at hstep
      cases hstep
      contradiction
  stops before t after e heq hfails := by
    cases after with
    | nil => exact ⟨rfl, hends.eq_error (heq ▸ List.getLast?_concat) hfails⟩
    | cons u rest =>
      have hnext : ts = (before ++ [t]) ++ u :: rest := by rw [heq, List.append_assoc]; rfl
      exact absurd hfails ((h.follows hnext).2.not_fails List.getLast?_concat)
  ends := hends
  isStore store model heq := (heq ▸ hends).isStore h

end TupleSync.Bootstrap
