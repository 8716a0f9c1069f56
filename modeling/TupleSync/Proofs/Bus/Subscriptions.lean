import Mathlib.Data.List.Nodup
import TupleSync.Proofs.Bus.Moves

/-!
# The steps of a broker bus

**A move of a broker bus changes at most one subscription, or leaves all of them behind.** `Acts` lists
what the consumer of a subscription can do, `Step` what can happen on the bus in one step, and
`step_of_move?` says that a move that can be taken is one of these steps. `Filed` relates the
subscriptions to the handlers that were registered so far; every step keeps it until the stop fires.
-/

set_option autoImplicit false

namespace TupleSync.Bus

namespace Handler

variable {β : Type} {h : Handler β} {name : EventName}

/-- A handler that is registered last is the last of its name. -/
theorem filedUnder_concat_self (table : List (Handler β)) (hname : h.name = name) :
    filedUnder (table ++ [h]) name = filedUnder table name ++ [h] := by
  rw [filedUnder, List.filter_append, List.filter_cons_of_pos (by simpa using hname)]
  rfl

theorem filedUnder_concat_of_ne (table : List (Handler β)) (hname : h.name ≠ name) :
    filedUnder (table ++ [h]) name = filedUnder table name := by
  rw [filedUnder, List.filter_append, List.filter_cons_of_neg (by simpa using hname)]
  exact List.append_nil _

theorem filedUnder_concat_ne_nil {table : List (Handler β)} (h' : filedUnder table name ≠ []) :
    filedUnder (table ++ [h]) name ≠ [] := by
  by_cases hname : h.name = name
  · rw [filedUnder_concat_self table hname]
    exact List.append_ne_nil_of_left_ne_nil h' _
  · rwa [filedUnder_concat_of_ne table hname]

end Handler

namespace Subscription

variable {β : Type} {s s' : Subscription β} {stopped : Bool} {a : Act}
  {new : List (BrokerHappening β)}

@[simp] theorem join_name (s : Subscription β) (h : Handler β) : (s.join h).name = s.name := rfl

@[simp] theorem receive_name (s : Subscription β) (payload : List UInt8) :
    (s.receive payload).name = s.name := rfl

/-- What a consumer does, with what happens and the subscription after it. -/
inductive Acts (s : Subscription β) (stopped : Bool) :
    Act → List (BrokerHappening β) → Subscription β → Prop where
  | took (payload : List UInt8) (rest : List (List UInt8)) (hconsumer : s.consumer = .waiting)
      (hstopped : stopped = false) (hpending : s.pending = payload :: rest) :
    Acts s stopped .take (Consumer.give payload s.handlers).1
      { s with pending := rest, consumer := (Consumer.give payload s.handlers).2 }
  | handed (payload : List UInt8) (current : Handler β) (rest : List (Handler β))
      (hconsumer : s.consumer = .serving payload current rest) :
    Acts s stopped .next (Consumer.give payload rest).1
      { s with consumer := (Consumer.give payload rest).2 }
  | failed (payload : List UInt8) (current : Handler β) (rest : List (Handler β)) (body : β) (e : Event)
      (hconsumer : s.consumer = .serving payload current rest)
      (hinvoked : current.givePayload payload = .invoked body e) :
    Acts s stopped .fail [.failed s.name] { s with pending := [], consumer := .gone true }
  | cutOff (hconsumer : s.consumer = .waiting) (hstopped : stopped = false)
      (hpending : s.pending = []) :
    Acts s stopped .cutOff [.unsubscribed s.name] { s with consumer := .gone false }
  | left (hconsumer : s.consumer = .waiting) (hstopped : stopped = true) :
    Acts s stopped .leave [.unsubscribed s.name] { s with pending := [], consumer := .gone false }

theorem acts_of_waiting? (hconsumer : s.consumer = .waiting)
    (h : s.waiting? stopped a = some (new, s')) : Acts s stopped a new s' := by
  cases a with
  | take =>
    simp only [waiting?] at h
    split at h
    · cases h
    · next payload rest hpending =>
      split at h
      · cases h
      · next hstopped =>
        cases h
        exact .took payload rest hconsumer (Bool.eq_false_iff.2 hstopped) hpending
  | cutOff =>
    simp only [waiting?] at h
    split at h
    · next hcan =>
      obtain ⟨hstopped, hpending⟩ := Bool.and_eq_true_iff.1 hcan
      cases h
      exact .cutOff hconsumer (by simpa using hstopped) (List.isEmpty_iff.1 hpending)
    · cases h
  | leave =>
    simp only [waiting?] at h
    split at h
    · next hstopped =>
      cases h
      exact .left hconsumer hstopped
    · cases h
  | next => cases h
  | fail => cases h

theorem acts_of_serving? {payload : List UInt8} {current : Handler β} {rest : List (Handler β)}
    (hconsumer : s.consumer = .serving payload current rest)
    (h : s.serving? payload current rest a = some (new, s')) : Acts s stopped a new s' := by
  cases a with
  | next =>
    cases h
    exact .handed payload current rest hconsumer
  | fail =>
    simp only [serving?] at h
    split at h
    · next body e hinvoked =>
      cases h
      exact .failed payload current rest body e hconsumer hinvoked
    · cases h
  | take => cases h
  | cutOff => cases h
  | leave => cases h

theorem acts_of_act? (h : s.act? stopped a = some (new, s')) : Acts s stopped a new s' := by
  rw [act?] at h
  split at h
  · next hconsumer => exact acts_of_waiting? hconsumer h
  · next payload current rest hconsumer => exact acts_of_serving? hconsumer h
  · cases h

theorem Acts.act?_eq (h : Acts s stopped a new s') : s.act? stopped a = some (new, s') := by
  cases h with
  | took payload rest hconsumer hstopped hpending =>
    simp [act?, waiting?, hconsumer, hstopped, hpending]
  | handed payload current rest hconsumer => simp [act?, serving?, hconsumer]
  | failed payload current rest body e hconsumer hinvoked =>
    simp [act?, serving?, hconsumer, hinvoked]
  | cutOff hconsumer hstopped hpending => simp [act?, waiting?, hconsumer, hstopped, hpending]
  | left hconsumer hstopped => simp [act?, waiting?, hconsumer, hstopped]

theorem Acts.name_eq (h : Acts s stopped a new s') : s'.name = s.name := by
  cases h <;> rfl

theorem Acts.handlers_eq (h : Acts s stopped a new s') : s'.handlers = s.handlers := by
  cases h <;> rfl

/-- Only a consumer that fails or is cut off is over while the stop has not fired. -/
theorem Acts.isGone_eq (h : Acts s false a new s') (hfail : a ≠ .fail) (hcut : a ≠ .cutOff) :
    s'.consumer.isGone = false := by
  have hgive : ∀ payload hs, (Consumer.give payload hs : _ × Consumer β).2.isGone = false := by
    intro payload hs
    cases hs <;> rfl
  cases h with
  | took payload rest hconsumer hstopped hpending => exact hgive payload s.handlers
  | handed payload current rest hconsumer => exact hgive payload rest
  | failed payload current rest body e hconsumer hinvoked => exact absurd rfl hfail
  | cutOff hconsumer hstopped hpending => exact absurd rfl hcut
  | left hconsumer hstopped => cases hstopped

end Subscription

namespace Broker

open Handler (filedUnder)

variable {β : Type} {b b' : Broker β} {m : Move β} {new : List (BrokerHappening β)}
  {table : List (Handler β)} {name : EventName} {s : Subscription β}

/-! ## Steps -/

/-- A move of a broker bus, with what happens and the bus after it. -/
inductive Step (b : Broker β) : Move β → List (BrokerHappening β) → Broker β → Prop where
  | joined (h : Handler β) (s : Subscription β) (hcall : b.closing = .none)
      (hsub : b.subscription? h.name = some s) :
    Step b (.register h) [.joined h.name] (b.put (s.join h))
  | subscribed (h : Handler β) (hcall : b.closing = .none) (hsub : b.subscription? h.name = none)
      (hconn : b.connected = true) :
    Step b (.register h) [.subscribed h.name b.config.queueGroup]
      { b with subscriptions := b.subscriptions ++ [.opened h] }
  | registerRefused (h : Handler β) (hcall : b.closing = .none)
      (hsub : b.subscription? h.name = none) (hconn : b.connected = false) : Step b (.register h) [] b
  | refused (h : Handler β) (hcall : b.closing = .none) (hsub : b.subscription? h.name = none)
      (hconn : b.connected = true) : Step b (.refuse h) [.refused h.name b.config.queueGroup] b
  | pushed (e : Event) (hcall : b.closing = .none) : Step b (.push e) [b.push e] b
  | running (hcall : b.closing = .none) (hforwarding : b.forwarding = false) :
    Step b .run [.running b.subscriptions.length] { b with forwarding := true }
  | runRefused (hcall : b.closing = .none) (hforwarding : b.forwarding = true) : Step b .run [] b
  | signalled : Step b .signal [] { b with signalled := true }
  | forwarded (hforwarding : b.forwarding = true) (hsignalled : b.signalled = true) :
    Step b .forward [] { b with stopped := true }
  | arrived (name : EventName) (payload : List UInt8) (s : Subscription β)
      (hsub : b.subscription? name = some s) (hgone : s.consumer.isGone = false) :
    Step b (.arrive name payload) [] (b.put (s.receive payload))
  | missed (name : EventName) (payload : List UInt8)
      (hsub : ∀ s, b.subscription? name = some s → s.consumer.isGone = true) :
    Step b (.arrive name payload) [.missed name] b
  | acted (name : EventName) (a : Act) (s s' : Subscription β) (new : List (BrokerHappening β))
      (hsub : b.subscription? name = some s) (hacts : s.Acts b.stopped a new s') :
    Step b (.act name a) new (b.put s')
  | straggled (i : Nat) (a : Act) (s s' : Subscription β) (new : List (BrokerHappening β))
      (hsub : b.abandoned[i]? = some s) (hacts : s.Acts true a new s') :
    Step b (.straggle i a) new { b with abandoned := b.abandoned.set i s' }
  | shutdownAsked (hcall : b.closing = .none) : Step b .shutdown [] b.requestShutdown
  | collected (name : EventName) (s : Subscription β) (failed : Bool)
      (hclosing : b.closing = .draining) (hsub : b.subscription? name = some s)
      (hgone : s.consumer = .gone failed) :
    Step b (.collect name) (if failed then [.failureSeen name] else [])
      { b with subscriptions := b.subscriptions.eraseP fun s => s.name = name }
  | disconnected (hclosing : b.closing = .draining) (hsub : b.subscriptions = []) :
    Step b .disconnect [] { b with forwarding := false, connected := false, closing := .flushing }
  | returned (hclosing : b.closing = .flushing) :
    Step b .join [.shutDown] { b with closing := .none }
  | givenUp (hclosing : b.closing = .flushing ∨ b.closing = .draining ∧ b.subscriptions ≠ []) :
    Step b .giveUp []
      { b with subscriptions := [], abandoned := b.subscriptions ++ b.abandoned, closing := .none }

theorem call_eq_some_iff {α : Type} {result : Option α} {x : α} :
    b.call result = some x ↔ b.closing = .none ∧ result = some x := by
  rw [call]
  split
  · next hcall => exact ⟨fun h => ⟨hcall, h⟩, fun h => h.2⟩
  · next hcall => exact ⟨nofun, fun h => absurd h.1 hcall⟩

theorem step_of_register {h : Handler β} (hmove : b.move? (.register h) = some (new, b')) :
    Step b (.register h) new b' := by
  obtain ⟨hcall, hmove⟩ := call_eq_some_iff.1 hmove
  cases hsub : b.subscription? h.name with
  | some s =>
    simp only [register, registerIf, hsub] at hmove
    cases hmove
    exact .joined h s hcall hsub
  | none =>
    by_cases hconn : b.connected = true
    · simp only [register, registerIf, hsub, if_pos hconn] at hmove
      cases hmove
      exact .subscribed h hcall hsub hconn
    · simp only [register, registerIf, hsub, if_neg hconn] at hmove
      cases hmove
      exact .registerRefused h hcall hsub (Bool.eq_false_iff.2 hconn)

theorem step_of_refuse {h : Handler β} (hmove : b.move? (.refuse h) = some (new, b')) :
    Step b (.refuse h) new b' := by
  obtain ⟨hcall, hmove⟩ := call_eq_some_iff.1 hmove
  cases hsub : b.subscription? h.name with
  | some s =>
    simp only [registerIf, hsub] at hmove
    cases hmove
  | none =>
    by_cases hconn : b.connected = true
    · simp only [registerIf, hsub, if_pos hconn] at hmove
      cases hmove
      exact .refused h hcall hsub hconn
    · simp only [registerIf, hsub, if_neg hconn] at hmove
      cases hmove

theorem step_of_run (hmove : b.move? .run = some (new, b')) : Step b .run new b' := by
  obtain ⟨hcall, hmove⟩ := call_eq_some_iff.1 hmove
  cases hforwarding : b.forwarding with
  | true =>
    simp only [run, hforwarding, if_true] at hmove
    cases hmove
    exact .runRefused hcall hforwarding
  | false =>
    simp only [run, hforwarding] at hmove
    cases hmove
    exact .running hcall hforwarding

theorem step_of_arrive {payload : List UInt8}
    (hmove : b.move? (.arrive name payload) = some (new, b')) : Step b (.arrive name payload) new b' := by
  simp only [move?, arrive] at hmove
  split at hmove
  · next s hsub =>
    split at hmove
    · next hgone =>
      cases hmove
      refine .missed name payload fun s' hs' => ?_
      rw [hsub] at hs'
      exact Option.some.inj hs' ▸ hgone
    · next hgone =>
      cases hmove
      exact .arrived name payload s hsub (Bool.eq_false_iff.2 hgone)
  · next hsub =>
    cases hmove
    exact .missed name payload fun s hs => absurd (hsub.symm.trans hs) nofun

theorem step_of_act {a : Act} (hmove : b.act? name a = some (new, b')) :
    Step b (.act name a) new b' := by
  rw [act?, Option.bind_eq_bind, Option.bind_eq_some_iff] at hmove
  obtain ⟨s, hsub, hmove⟩ := hmove
  obtain ⟨⟨what, s'⟩, hact, hmove⟩ := Option.bind_eq_some_iff.1 hmove
  cases hmove
  exact .acted name a s s' _ hsub (Subscription.acts_of_act? hact)

theorem step_of_straggle {i : Nat} {a : Act} (hmove : b.straggle? i a = some (new, b')) :
    Step b (.straggle i a) new b' := by
  rw [straggle?, Option.bind_eq_bind, Option.bind_eq_some_iff] at hmove
  obtain ⟨s, hsub, hmove⟩ := hmove
  obtain ⟨⟨what, s'⟩, hact, hmove⟩ := Option.bind_eq_some_iff.1 hmove
  cases hmove
  exact .straggled i a s s' _ hsub (Subscription.acts_of_act? hact)

theorem step_of_collect (hmove : b.collect? name = some (new, b')) :
    Step b (.collect name) new b' := by
  rw [collect?, Option.bind_eq_bind, Option.bind_eq_some_iff] at hmove
  obtain ⟨s, hsub, hmove⟩ := hmove
  split at hmove
  · next failed hgone =>
    split at hmove
    · next hclosing =>
      cases hmove
      exact .collected name s failed hclosing hsub hgone
    · cases hmove
  · cases hmove

/-- **A move that can be taken is a step.** -/
theorem step_of_move? (hmove : b.move? m = some (new, b')) : Step b m new b' := by
  cases m with
  | register h => exact step_of_register hmove
  | refuse h => exact step_of_refuse hmove
  | push e =>
    obtain ⟨hcall, hmove⟩ := call_eq_some_iff.1 hmove
    cases hmove
    exact .pushed e hcall
  | run => exact step_of_run hmove
  | signal =>
    cases hmove
    exact .signalled
  | forward =>
    simp only [move?, forward?] at hmove
    split at hmove
    · next hcan =>
      obtain ⟨hforwarding, hsignalled⟩ := Bool.and_eq_true_iff.1 hcan
      cases hmove
      exact .forwarded hforwarding hsignalled
    · cases hmove
  | arrive name payload => exact step_of_arrive hmove
  | act name a => exact step_of_act hmove
  | straggle i a => exact step_of_straggle hmove
  | shutdown =>
    obtain ⟨hcall, hmove⟩ := call_eq_some_iff.1 hmove
    cases hmove
    exact .shutdownAsked hcall
  | collect name => exact step_of_collect hmove
  | disconnect =>
    simp only [move?, disconnect?] at hmove
    split at hmove
    · next hcan =>
      obtain ⟨hclosing, hsub⟩ := Bool.and_eq_true_iff.1 hcan
      cases hmove
      exact .disconnected (of_decide_eq_true hclosing) (List.isEmpty_iff.1 hsub)
    · cases hmove
  | join =>
    simp only [move?, join?] at hmove
    split at hmove
    · next hclosing =>
      cases hmove
      exact .returned hclosing
    · cases hmove
  | giveUp =>
    simp only [move?, giveUp?] at hmove
    split at hmove
    · next hcan =>
      cases hmove
      exact .givenUp (by simpa using hcan)
    · cases hmove

/-- A step is a move that can be taken. -/
theorem Step.move?_eq (hstep : Step b m new b') : b.move? m = some (new, b') := by
  cases hstep with
  | joined h s hcall hsub => simp only [move?, call, register, registerIf, hcall, hsub, if_true]
  | subscribed h hcall hsub hconn =>
    simp only [move?, call, register, registerIf, hcall, hsub, hconn, if_true]
  | registerRefused h hcall hsub hconn => simp [move?, call, register, registerIf, hcall, hsub, hconn]
  | refused h hcall hsub hconn => simp [move?, call, registerIf, hcall, hsub, hconn]
  | pushed e hcall => simp [move?, call, hcall]
  | running hcall hforwarding => simp [move?, call, run, hcall, hforwarding]
  | runRefused hcall hforwarding => simp [move?, call, run, hcall, hforwarding]
  | signalled => rfl
  | forwarded hforwarding hsignalled => simp [move?, forward?, hforwarding, hsignalled]
  | arrived name payload s hsub hgone => simp [move?, arrive, hsub, hgone]
  | missed name payload hsub =>
    cases hfound : b.subscription? name with
    | none => simp only [move?, arrive, hfound]
    | some s => simp [move?, arrive, hfound, hsub s hfound]
  | acted name a s s' new hsub hacts => simp [move?, act?, hsub, hacts.act?_eq]
  | straggled i a s s' new hsub hacts => simp [move?, straggle?, hsub, hacts.act?_eq]
  | shutdownAsked hcall => simp [move?, call, hcall]
  | collected name s failed hclosing hsub hgone => simp [move?, collect?, hsub, hgone, hclosing]
  | disconnected hclosing hsub => simp [move?, disconnect?, hclosing, hsub]
  | returned hclosing => simp [move?, join?, hclosing]
  | givenUp hclosing =>
    rcases hclosing with hclosing | ⟨hclosing, hsub⟩
    · simp [move?, giveUp?, hclosing]
    · simp [move?, giveUp?, hclosing, hsub]

/-! ## Subscriptions -/

theorem name_of_subscription? (h : b.subscription? name = some s) : s.name = name :=
  of_decide_eq_true (List.find?_some (p := fun s : Subscription β => decide (s.name = name)) h)

theorem find?_replaceIn_self (xs : List (Subscription β)) :
    (s.replaceIn xs).find? (fun x => x.name = s.name) =
      (xs.find? fun x => x.name = s.name).map fun _ => s := by
  induction xs with
  | nil => rfl
  | cons x xs ih =>
    by_cases hx : x.name = s.name
    · simp [Subscription.replaceIn, hx]
    · simp [Subscription.replaceIn, hx, ih]

theorem find?_replaceIn_of_ne (xs : List (Subscription β)) (hname : name ≠ s.name) :
    (s.replaceIn xs).find? (fun x => x.name = name) = xs.find? fun x => x.name = name := by
  induction xs with
  | nil => rfl
  | cons x xs ih =>
    by_cases hx : x.name = s.name
    · simp [Subscription.replaceIn, hx, hname.symm]
    · simp [Subscription.replaceIn, hx, List.find?_cons, ih]

/-- A subscription that is put in the place of the one of its name is found there, and the others are
found as before. -/
theorem subscription?_put (hsub : b.subscription? name = some s) {s' : Subscription β}
    (hname : s'.name = name) (other : EventName) :
    (b.put s').subscription? other = if other = name then some s' else b.subscription? other := by
  subst hname
  by_cases hother : other = s'.name
  · subst hother
    rw [if_pos rfl, subscription?, put, find?_replaceIn_self]
    show (b.subscription? s'.name).map _ = _
    rw [hsub]
    rfl
  · rw [if_neg hother]
    exact find?_replaceIn_of_ne b.subscriptions hother

/-- What is put in the place of a subscription is found there. -/
theorem subscription?_put_self (hsub : b.subscription? name = some s) {s' : Subscription β}
    (hname : s'.name = name) : (b.put s').subscription? name = some s' :=
  (subscription?_put hsub hname name).trans (if_pos rfl)

theorem map_name_replaceIn (s : Subscription β) (xs : List (Subscription β)) :
    (s.replaceIn xs).map (fun x => x.name) = xs.map fun x => x.name := by
  induction xs with
  | nil => rfl
  | cons x xs ih =>
    rw [Subscription.replaceIn]
    split
    · next hx => rw [List.map_cons, List.map_cons, hx]
    · rw [List.map_cons, List.map_cons, ih]

@[simp] theorem map_name_put : (b.put s).subscriptions.map (fun x => x.name) =
    b.subscriptions.map fun x => x.name := map_name_replaceIn s b.subscriptions

@[simp] theorem length_put : (b.put s).subscriptions.length = b.subscriptions.length := by
  have h := congrArg List.length (map_name_put (b := b) (s := s))
  rwa [List.length_map, List.length_map] at h

/-- Of two subscriptions that are put in one place the later stays. -/
theorem put_put {s' : Subscription β} (hname : s'.name = s.name) : (b.put s).put s' = b.put s' := by
  have hreplace : ∀ xs, s'.replaceIn (s.replaceIn xs) = s'.replaceIn xs := by
    intro xs
    induction xs with
    | nil => rfl
    | cons x xs ih =>
      by_cases hx : x.name = s.name
      · simp [Subscription.replaceIn, hx, hname]
      · simp [Subscription.replaceIn, hx, hname, ih]
  simp only [put, hreplace]

/-- Subscriptions of two names are put in their places in either order. -/
theorem put_comm {s' : Subscription β} (hname : s'.name ≠ s.name) :
    (b.put s).put s' = (b.put s').put s := by
  have hreplace : ∀ xs, s'.replaceIn (s.replaceIn xs) = s.replaceIn (s'.replaceIn xs) := by
    intro xs
    induction xs with
    | nil => rfl
    | cons x xs ih =>
      by_cases hx : x.name = s.name
      · have hx' : x.name ≠ s'.name := fun h => hname (h.symm.trans hx)
        simp [Subscription.replaceIn, hx, hname.symm]
      · by_cases hx' : x.name = s'.name
        · simp [Subscription.replaceIn, hx', hname]
        · simp [Subscription.replaceIn, hx, hx', ih]
  simp only [put, hreplace]

/-- A subscription that is there can be put there. -/
theorem put_self (h : b.subscription? s.name = some s) : b.put s = b := by
  have hreplace : ∀ xs : List (Subscription β), xs.find? (fun x => x.name = s.name) = some s →
      s.replaceIn xs = xs := by
    intro xs hfind
    induction xs with
    | nil => rfl
    | cons x xs ih =>
      rw [Subscription.replaceIn]
      split
      · next hx =>
        rw [List.find?_cons_of_pos (by simpa using hx)] at hfind
        rw [Option.some.inj hfind]
      · next hx =>
        rw [List.find?_cons_of_neg (by simpa using hx)] at hfind
        rw [ih hfind]
  rw [put, hreplace b.subscriptions h]

/-- A new subscription is found where there was none of its name. -/
theorem subscription?_append (s : Subscription β) (name : EventName) :
    { b with subscriptions := b.subscriptions ++ [s] : Broker β }.subscription? name =
      (b.subscription? name).or (if s.name = name then some s else none) := by
  show List.find? _ (b.subscriptions ++ [s]) = _
  rw [List.find?_append]
  congr 1
  by_cases hname : s.name = name
  · rw [List.find?_cons_of_pos (by simpa using hname), if_pos hname]
  · rw [List.find?_cons_of_neg (by simpa using hname), if_neg hname]
    rfl

/-! ## Registrations -/

def Move.handler? : Move β → Option (Handler β)
  | .register h => some h
  | _ => none

/-- A name has one subscription at most, and it holds the handlers that were registered under it, in order
and at least one. A name without a subscription has none. -/
structure Filed (table : List (Handler β)) (b : Broker β) : Prop where
  distinct : (b.subscriptions.map fun s => s.name).Nodup
  handlers : ∀ {name s}, b.subscription? name = some s → s.handlers = filedUnder table name
  manned : ∀ {name s}, b.subscription? name = some s → filedUnder table name ≠ []
  unfiled : ∀ {name}, b.subscription? name = none → filedUnder table name = []

/-- A subscription of the bus is the one of its subject. -/
theorem Filed.subscription?_of_mem (h : Filed table b) (hmem : s ∈ b.subscriptions) :
    b.subscription? s.name = some s := by
  cases hfound : b.subscription? s.name with
  | none => simpa using List.find?_eq_none.1 hfound s hmem
  | some x =>
    rw [List.inj_on_of_nodup_map h.distinct (List.mem_of_find?_eq_some hfound) hmem
      (name_of_subscription? hfound)]

theorem Filed.of_same (h : Filed table b) (hsub : b'.subscriptions = b.subscriptions) :
    Filed table b' := by
  have hfind : ∀ name, b'.subscription? name = b.subscription? name := by
    intro name
    rw [subscription?, hsub]
    rfl
  exact ⟨hsub ▸ h.distinct, fun hs => h.handlers (hfind _ ▸ hs), fun hs => h.manned (hfind _ ▸ hs),
    fun hs => h.unfiled (hfind _ ▸ hs)⟩

/-- A change of a subscription that is not one of its handlers is none for the table. -/
theorem Filed.of_put (h : Filed table b) (hsub : b.subscription? name = some s) {s' : Subscription β}
    (hname : s'.name = name) (hhandlers : s'.handlers = s.handlers) : Filed table (b.put s') := by
  have hfind := subscription?_put hsub hname
  refine ⟨map_name_put.symm ▸ h.distinct, fun {other x} hx => ?_, fun {other x} hx => ?_, fun {other} hx => ?_⟩
  · rw [hfind] at hx
    split at hx
    · next hother =>
      cases hx
      rw [hother, hhandlers, h.handlers hsub]
    · exact h.handlers hx
  · rw [hfind] at hx
    split at hx
    · next hother => exact hother ▸ h.manned hsub
    · exact h.manned hx
  · rw [hfind] at hx
    split at hx
    · cases hx
    · exact h.unfiled hx

/-- A handler that joins a subscription is the last of its name there and in the table. -/
theorem Filed.of_joining (h : Filed table b) {k : Handler β} (hsub : b.subscription? k.name = some s) :
    Filed (table ++ [k]) (b.put (s.join k)) := by
  have hname : (s.join k).name = k.name := (s.join_name k).trans (name_of_subscription? hsub)
  have hfind := subscription?_put hsub hname
  refine ⟨map_name_put.symm ▸ h.distinct, fun {other x} hx => ?_, fun {other x} hx => ?_, fun {other} hx => ?_⟩
  · rw [hfind] at hx
    split at hx
    · next hother =>
      cases hx
      rw [hother, Handler.filedUnder_concat_self table rfl, ← h.handlers hsub]
      rfl
    · next hother => rw [Handler.filedUnder_concat_of_ne table (Ne.symm hother), ← h.handlers hx]
  · rw [hfind] at hx
    split at hx
    · next hother => exact hother ▸ Handler.filedUnder_concat_ne_nil (h.manned hsub)
    · exact Handler.filedUnder_concat_ne_nil (h.manned hx)
  · -- a name that still has no subscription is not the one that was joined
    rw [hfind] at hx
    split at hx
    · cases hx
    · next hother =>
      rw [Handler.filedUnder_concat_of_ne table (Ne.symm hother)]
      exact h.unfiled hx

/-- The first handler of a name opens its subscription. -/
theorem Filed.of_opening (h : Filed table b) {k : Handler β} (hsub : b.subscription? k.name = none) :
    Filed (table ++ [k]) { b with subscriptions := b.subscriptions ++ [.opened k] } := by
  refine ⟨?_, fun {other x} hx => ?_, fun {other x} hx => ?_, fun {other} hx => ?_⟩
  · have hnew : k.name ∉ b.subscriptions.map fun s => s.name := by
      intro hmem
      obtain ⟨s, hs, hname⟩ := List.mem_map.1 hmem
      simpa [hname] using List.find?_eq_none.1 hsub s hs
    rw [List.map_append]
    exact h.distinct.append (List.nodup_singleton _) (List.disjoint_singleton.2 hnew)
  · rw [subscription?_append, Option.or_eq_some_iff] at hx
    rcases hx with hx | ⟨hnone, hx⟩
    · have hother : k.name ≠ other := by
        rintro rfl
        rw [hsub] at hx
        cases hx
      rw [Handler.filedUnder_concat_of_ne table hother]
      exact h.handlers hx
    · split at hx
      · next hother =>
        cases hx
        rw [Handler.filedUnder_concat_self table hother, h.unfiled hnone]
        rfl
      · cases hx
  · rw [subscription?_append, Option.or_eq_some_iff] at hx
    rcases hx with hx | ⟨-, hx⟩
    · exact Handler.filedUnder_concat_ne_nil (h.manned hx)
    · split at hx
      · next hother =>
        rw [Handler.filedUnder_concat_self table hother]
        exact List.append_ne_nil_of_right_ne_nil _ (List.cons_ne_nil _ _)
      · cases hx
  · rw [subscription?_append, Option.or_eq_none_iff] at hx
    have hother : k.name ≠ other := by
      rintro rfl
      rw [Subscription.opened, if_pos rfl] at hx
      cases hx.2
    rw [Handler.filedUnder_concat_of_ne table hother]
    exact h.unfiled hx.1

/-- **Until a shutdown is asked for every step keeps the handlers filed**, a registration with its handler
added. -/
theorem Filed.step (h : Filed table b) (hstep : Step b m new b') (hconn : b.connected = true)
    (hcall : b.closing = .none) : Filed (table ++ m.handler?.toList) b' := by
  have hsame : m.handler? = none → Filed table b' → Filed (table ++ m.handler?.toList) b' := by
    intro hm hfiled
    rwa [hm, Option.toList_none, List.append_nil]
  cases hstep with
  | joined k s _ hsub => exact h.of_joining hsub
  | subscribed k _ hsub _ => exact h.of_opening hsub
  | registerRefused k _ hsub hcut =>
    rw [hconn] at hcut
    cases hcut
  | arrived name payload s hsub hgone =>
    have hname : (s.receive payload).name = name :=
      (s.receive_name payload).trans (name_of_subscription? hsub)
    exact hsame rfl (h.of_put hsub hname rfl)
  | acted name a s s' new hsub hacts =>
    exact hsame rfl (h.of_put hsub (hacts.name_eq.trans (name_of_subscription? hsub)) hacts.handlers_eq)
  | collected name s failed hclosing hsub hgone =>
    rw [hcall] at hclosing
    cases hclosing
  | givenUp hclosing => simp [hcall] at hclosing
  | _ => exact hsame rfl (h.of_same rfl)

end Broker

end TupleSync.Bus
