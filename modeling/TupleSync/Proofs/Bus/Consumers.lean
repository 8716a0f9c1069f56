import Mathlib.Data.List.Perm.Subperm
import TupleSync.Proofs.Bus.Subscriptions

/-!
# Messages in the hands of consumers

**A message that a consumer takes is given to the handlers one after the other, and those that have not
got it yet are due to get it.** What a consumer delivers and what it has due are, together, what it had due
and the message that it takes; only a handler that fails takes something away. A step of the bus is a step
of at most one consumer (`Shift`), so the same is said of all of them.
-/

set_option autoImplicit false

namespace TupleSync.Bus

def BrokerHappening.delivered? {β : Type} : BrokerHappening β → Option (Delivery β)
  | delivered d => some d
  | _ => none

namespace Broker

/-- What the handlers are given, in order. -/
def deliveriesIn {β : Type} (hs : List (BrokerHappening β)) : List (Delivery β) :=
  hs.filterMap BrokerHappening.delivered?

@[simp] theorem deliveriesIn_append {β : Type} (hs new : List (BrokerHappening β)) :
    deliveriesIn (hs ++ new) = deliveriesIn hs ++ deliveriesIn new :=
  List.filterMap_append

end Broker

open Broker (deliveriesIn)

/-! ## One consumer -/

namespace Consumer

variable {β : Type}

/-- What the handlers are still to be given of the message that is served. -/
def due : Consumer β → List (Delivery β)
  | serving payload _ rest => rest.map fun h => h.givePayload payload
  | _ => []

def isServing : Consumer β → Bool
  | serving _ _ _ => true
  | _ => false

theorem due_of_not_isServing {c : Consumer β} (h : c.isServing = false) : c.due = [] := by
  cases c with
  | serving payload current rest => cases h
  | _ => rfl

/-- A message in the hands of the first of some handlers is given to it, and is due to the others. -/
theorem deliveriesIn_give (payload : List UInt8) (hs : List (Handler β)) :
    deliveriesIn (give payload hs).1 ++ (give payload hs).2.due =
      hs.map fun h => h.givePayload payload := by
  cases hs <;> rfl

end Consumer

namespace Subscription

variable {β : Type} {s s' : Subscription β} {stopped : Bool} {a : Act}
  {new : List (BrokerHappening β)}

/-- The message that the consumer takes where it does this. -/
def taken? (s : Subscription β) : Act → Option (List UInt8)
  | .take => s.pending.head?
  | _ => none

/-- What the handlers of the subscription are given of a message, all in all. -/
def given (s : Subscription β) (payload : List UInt8) : List (Delivery β) :=
  s.handlers.map fun h => h.givePayload payload

/-- **What is delivered and what is due then was due before, or is the message that is taken.** -/
theorem Acts.deliveries_eq (h : Acts s stopped a new s') (hfail : a ≠ .fail) :
    deliveriesIn new ++ s'.consumer.due =
      s.consumer.due ++ (s.taken? a).toList.flatMap s.given := by
  cases h with
  | took payload rest hconsumer hstopped hpending =>
    rw [Consumer.deliveriesIn_give, hconsumer, taken?, hpending]
    exact (List.append_nil _).symm
  | handed payload current rest hconsumer =>
    rw [Consumer.deliveriesIn_give, hconsumer, Consumer.due]
    exact (List.append_nil _).symm
  | failed payload current rest body e hconsumer hinvoked => exact absurd rfl hfail
  | cutOff hconsumer hstopped hpending =>
    rw [hconsumer]
    rfl
  | left hconsumer hstopped =>
    rw [hconsumer]
    rfl

/-- A handler that fails takes away what was due. -/
theorem Acts.deliveries_sublist (h : Acts s stopped a new s') :
    (deliveriesIn new ++ s'.consumer.due).Sublist
      (s.consumer.due ++ (s.taken? a).toList.flatMap s.given) := by
  by_cases hfail : a = .fail
  · subst hfail
    cases h with
    | failed payload current rest body e hconsumer hinvoked => exact List.nil_sublist _
  · exact h.deliveries_eq hfail ▸ List.Sublist.refl _

/-- Once the stop has fired no message is taken. -/
theorem Acts.taken?_eq_none (h : Acts s true a new s') : s.taken? a = none := by
  cases h with
  | took payload rest hconsumer hstopped hpending => cases hstopped
  | _ => rfl

/-- A consumer gives a handler something only where it takes a message or goes on with one. -/
theorem Acts.deliveriesIn_eq_nil (h : Acts s stopped a new s') (htake : a ≠ .take) (hnext : a ≠ .next) :
    deliveriesIn new = [] := by
  cases h with
  | took payload rest hconsumer hstopped hpending => exact absurd rfl htake
  | handed payload current rest hconsumer => exact absurd rfl hnext
  | _ => rfl

end Subscription

/-! ## All consumers -/

namespace Broker

variable {β : Type} {b b' : Broker β} {m : Move β} {ms : List (Move β)}
  {hs new : List (BrokerHappening β)} {name : EventName} {s : Subscription β}

/-- The message that a consumer takes in a move: the oldest of its subject. -/
def taken? (b : Broker β) : Move β → Option (EventName × List UInt8)
  | .act name a => do
    let s ← b.subscription? name
    let payload ← s.taken? a
    return (name, payload)
  | _ => none

/-- The messages that consumers take in a run, in order. -/
def takenIn (b : Broker β) : List (Move β) → List (EventName × List UInt8)
  | [] => []
  | m :: rest =>
    (b.taken? m).toList ++
      match b.move? m with
      | some (_, b) => takenIn b rest
      | none => []

theorem taken?_act (hsub : b.subscription? name = some s) (a : Act) :
    b.taken? (.act name a) = (s.taken? a).map fun payload => (name, payload) := by
  rw [taken?, hsub]
  cases h : s.taken? a with
  | none => simp [h]
  | some payload => simp [h]

theorem takenIn_append {ms' : List (Move β)} (h : takeAll? move? b ms = some (hs, b')) :
    b.takenIn (ms ++ ms') = b.takenIn ms ++ b'.takenIn ms' := by
  induction ms generalizing b hs with
  | nil =>
    cases h
    rfl
  | cons m ms ih =>
    obtain ⟨first, between, more, hfirst, hmore, rfl⟩ := exists_of_takeAll?_cons h
    rw [List.cons_append, takenIn, takenIn, hfirst, List.append_assoc]
    exact congrArg _ (ih hmore)

theorem takenIn_concat {last : Broker β} (hrun : takeAll? move? b ms = some (hs, b'))
    (hmove : b'.move? m = some (new, last)) :
    b.takenIn (ms ++ [m]) = b.takenIn ms ++ (b'.taken? m).toList := by
  rw [takenIn_append hrun, takenIn, hmove]
  exact congrArg _ (List.append_nil _)

/-- The consumers of a bus, those that it has left behind among them. -/
def crew (b : Broker β) : List (Consumer β) :=
  (b.subscriptions ++ b.abandoned).map fun s => s.consumer

/-- All that handlers are still to be given. -/
def due (b : Broker β) : List (Delivery β) := b.crew.flatMap Consumer.due

/-- What a step does to the consumers. -/
inductive Shift (b : Broker β) (m : Move β) (new : List (BrokerHappening β)) (b' : Broker β) : Prop where
  | same (hcrew : b'.crew = b.crew) (hnew : deliveriesIn new = []) (htaken : b.taken? m = none)
  /-- One of them does something; it is that of a subject, or was left behind after the stop. -/
  | acted (before after : List (Consumer β)) (s s' : Subscription β) (stopped : Bool) (a : Act)
    (hmove : m = .act s.name a ∧ b.subscription? s.name = some s ∧ stopped = b.stopped ∨
      (∃ i, m = .straggle i a) ∧ stopped = true)
    (hcrew : b.crew = before ++ s.consumer :: after) (hcrew' : b'.crew = before ++ s'.consumer :: after)
    (hacts : s.Acts stopped a new s')
    (htaken : b.taken? m = (s.taken? a).map fun payload => (s.name, payload))
  | hired (before after : List (Consumer β)) (hcrew : b.crew = before ++ after)
    (hcrew' : b'.crew = before ++ .waiting :: after) (hnew : deliveriesIn new = [])
    (htaken : b.taken? m = none)
  | dismissed (before after : List (Consumer β)) (failed : Bool)
    (hcrew : b.crew = before ++ .gone failed :: after) (hcrew' : b'.crew = before ++ after)
    (hnew : deliveriesIn new = []) (htaken : b.taken? m = none)

/-- The subscription of a subject has a place among the others, and another of the name that is put there
takes that place. -/
theorem exists_split_of_subscription? (hsub : b.subscription? name = some s) :
    ∃ before after, b.subscriptions = before ++ s :: after ∧
      (b.subscriptions.eraseP fun x => x.name = name) = before ++ after ∧
      ∀ s' : Subscription β, s'.name = name → (b.put s').subscriptions = before ++ s' :: after := by
  obtain ⟨hname, before, after, hsplit, hbefore⟩ := List.find?_eq_some_iff_append.1 hsub
  have hname : s.name = name := of_decide_eq_true hname
  have hbefore : ∀ x ∈ before, x.name ≠ name := by
    intro x hx
    simpa using hbefore x hx
  refine ⟨before, after, hsplit, ?_, ?_⟩
  · rw [hsplit, List.eraseP_append_right _ (fun x hx => by simpa using hbefore x hx),
      List.eraseP_cons_of_pos (by simpa using hname)]
  · intro s' hs'
    have hplace : ∀ xs : List (Subscription β), (∀ x ∈ xs, x.name ≠ name) →
        s'.replaceIn (xs ++ s :: after) = xs ++ s' :: after := by
      intro xs hxs
      induction xs with
      | nil => simp [Subscription.replaceIn, hname, hs']
      | cons x xs ih =>
        obtain ⟨hx, hxs⟩ := List.forall_mem_cons.1 hxs
        simp [Subscription.replaceIn, hs', hx, ih hxs]
    rw [put, hsplit]
    exact hplace before hbefore

theorem crew_eq (before after : List (Subscription β)) (hsub : b.subscriptions = before ++ s :: after) :
    b.crew = before.map (fun s => s.consumer) ++
      s.consumer :: (after ++ b.abandoned).map fun s => s.consumer := by
  rw [crew, hsub, List.append_assoc, List.map_append]
  rfl

/-- A change of a subscription that is not one of its consumer leaves the consumers alone. -/
theorem crew_put (hsub : b.subscription? name = some s) {s' : Subscription β} (hname : s'.name = name)
    (hconsumer : s'.consumer = s.consumer) : (b.put s').crew = b.crew := by
  obtain ⟨before, after, hsplit, -, hput⟩ := exists_split_of_subscription? hsub
  rw [crew_eq before after hsplit, crew_eq before after (hput s' hname), hconsumer]
  rfl

/-- **A step of the bus is a step of at most one consumer.** -/
theorem Step.shift (hstep : Step b m new b') : Shift b m new b' := by
  cases hstep with
  | joined h s hcall hsub =>
    have hname : (s.join h).name = h.name := (s.join_name h).trans (name_of_subscription? hsub)
    exact .same (crew_put hsub hname rfl) rfl rfl
  | subscribed h hcall hsub hconn =>
    refine .hired (b.subscriptions.map fun s => s.consumer) (b.abandoned.map fun s => s.consumer) ?_ ?_
      rfl rfl
    · rw [crew, List.map_append]
    · simp [crew, Subscription.opened]
  | arrived name payload s hsub hgone =>
    have hname : (s.receive payload).name = name :=
      (s.receive_name payload).trans (name_of_subscription? hsub)
    exact .same (crew_put hsub hname rfl) rfl rfl
  | acted name a s s' new hsub hacts =>
    obtain rfl : s.name = name := name_of_subscription? hsub
    obtain ⟨before, after, hsplit, -, hput⟩ := exists_split_of_subscription? hsub
    exact .acted _ _ s s' b.stopped a (Or.inl ⟨rfl, hsub, rfl⟩) (crew_eq before after hsplit)
      (crew_eq before after (hput s' hacts.name_eq)) hacts (taken?_act hsub a)
  | straggled i a s s' new hsub hacts =>
    obtain ⟨hi, hget⟩ := List.getElem?_eq_some_iff.1 hsub
    refine .acted ((b.subscriptions ++ b.abandoned.take i).map fun s => s.consumer)
      ((b.abandoned.drop (i + 1)).map fun s => s.consumer) s s' true a (Or.inr ⟨⟨i, rfl⟩, rfl⟩) ?_ ?_ hacts
      ?_
    · have hsplit : b.abandoned = b.abandoned.take i ++ s :: b.abandoned.drop (i + 1) := by
        rw [← hget, ← List.drop_eq_getElem_cons hi, List.take_append_drop]
      rw [crew]
      conv_lhs => rw [hsplit]
      simp
    · rw [crew]
      simp [List.set_eq_take_append_cons_drop, hi]
    · rw [hacts.taken?_eq_none]
      rfl
  | collected name s failed hclosing hsub hgone =>
    obtain ⟨before, after, hsplit, herase, -⟩ := exists_split_of_subscription? hsub
    refine .dismissed (before.map fun s => s.consumer) ((after ++ b.abandoned).map fun s => s.consumer)
      failed ?_ ?_ ?_ rfl
    · rw [crew_eq before after hsplit, hgone]
    · rw [crew]
      simp [herase]
    · cases failed <;> rfl
  | givenUp hclosing =>
    refine .same ?_ rfl rfl
    simp [crew]
  | pushed e hcall =>
    refine .same rfl ?_ rfl
    rw [push]
    split <;> rfl
  | _ => exact .same rfl rfl rfl

/-! ## A message to its end -/

/-- **A message that is being served is given to all that it is due to, if nothing else is done**, and the
consumer waits again. -/
theorem exists_finishing (hsub : b.subscription? name = some s) (hgone : s.consumer.isGone = false) :
    ∃ n new, takeAll? move? b (List.replicate n (.act name .next)) =
      some (new, b.put { s with consumer := .waiting }) ∧ deliveriesIn new = s.consumer.due := by
  obtain rfl : s.name = name := name_of_subscription? hsub
  cases hconsumer : s.consumer with
  | waiting =>
    have hsame : { s with consumer := .waiting } = s := by
      rw [← hconsumer]
    refine ⟨0, [], ?_, rfl⟩
    rw [hsame, put_self hsub]
    rfl
  | gone failed =>
    rw [hconsumer] at hgone
    cases hgone
  | serving payload current rest =>
    induction rest generalizing b s current with
    | nil =>
      have hstep := Step.acted s.name .next s _ _ hsub (.handed payload current [] hconsumer)
      exact ⟨1, _, takeAll?_cons hstep.move?_eq rfl, rfl⟩
    | cons h rest ih =>
      have hstep := Step.acted s.name .next s _ _ hsub (.handed payload current (h :: rest) hconsumer)
      let s' : Subscription β := { s with consumer := .serving payload h rest }
      obtain ⟨n, new, hrun, hnew⟩ := @ih (b.put s') s' rfl (subscription?_put_self hsub rfl) h rfl
      have hput : (b.put s').put { s' with consumer := .waiting } = b.put { s with consumer := .waiting } :=
        put_put rfl
      rw [hput] at hrun
      refine ⟨n + 1, _, takeAll?_cons hstep.move?_eq hrun, ?_⟩
      rw [deliveriesIn_append, hnew]
      rfl

/-! ## After the stop -/

/-- A stop that has fired stays fired. -/
theorem stopped_of_step (hstep : Step b m new b') (h : b'.stopped = false) : b.stopped = false := by
  cases hstep with
  | forwarded hforwarding hsignalled => cases h
  | shutdownAsked hcall => cases h
  | _ => exact h

theorem stopped_of_run (hrun : takeAll? move? b ms = some (hs, b')) (hlive : b'.stopped = false) :
    b.stopped = false :=
  takeAll?_induct (fun _ _ c => c.stopped = false → b.stopped = false)
    (fun _ _ _ _ _ _ _ hlaw hmove hlast => hlaw (stopped_of_step (step_of_move? hmove) hlast)) id
    hrun hlive

theorem Shift.taken?_eq_none (h : Shift b m new b') (hstopped : b.stopped = true) :
    b.taken? m = none := by
  cases h with
  | same hcrew hnew htaken => exact htaken
  | hired before after hcrew hcrew' hnew htaken => exact htaken
  | dismissed before after failed hcrew hcrew' hnew htaken => exact htaken
  | acted before after s s' stopped a hmove hcrew hcrew' hacts htaken =>
    have hstop : stopped = true := by
      rcases hmove with ⟨-, -, hstop⟩ | ⟨-, hstop⟩
      · exact hstop.trans hstopped
      · exact hstop
    subst hstop
    rw [htaken, hacts.taken?_eq_none]
    rfl

/-- What is delivered in a step that takes no message, and what is due then, was due before. -/
theorem Shift.subperm_due (h : Shift b m new b') (htaken : b.taken? m = none) :
    (deliveriesIn new ++ b'.due).Subperm b.due := by
  -- where nobody does anything nothing is delivered, and the same is due
  have hsame : deliveriesIn new = [] → b'.due = b.due → (deliveriesIn new ++ b'.due).Subperm b.due := by
    intro hnew hdue
    rw [hnew, hdue]
    exact List.Subperm.refl _
  cases h with
  | same hcrew hnew _ => exact hsame hnew (by rw [due, due, hcrew])
  | hired before after hcrew hcrew' hnew _ =>
    exact hsame hnew (by simp [due, hcrew, hcrew', Consumer.due])
  | dismissed before after failed hcrew hcrew' hnew _ =>
    exact hsame hnew (by simp [due, hcrew, hcrew', Consumer.due])
  | acted before after s s' stopped a hmove hcrew hcrew' hacts htaken' =>
    have hnone : s.taken? a = none := by
      rw [htaken'] at htaken
      exact Option.map_eq_none_iff.1 htaken
    have hless := hacts.deliveries_sublist
    rw [hnone, Option.toList_none, List.flatMap_nil, List.append_nil] at hless
    rw [due, due, hcrew, hcrew']
    simp only [List.flatMap_append, List.flatMap_cons]
    -- what is new was due at the place of this consumer
    have hplace : (deliveriesIn new ++ (before.flatMap Consumer.due ++
        (s'.consumer.due ++ after.flatMap Consumer.due))).Perm (before.flatMap Consumer.due ++
        ((deliveriesIn new ++ s'.consumer.due) ++ after.flatMap Consumer.due)) := by
      rw [List.append_assoc (deliveriesIn new)]
      exact List.perm_append_comm_assoc _ _ _
    exact hplace.subperm.trans ((hless.append_right _).append_left _).subperm

/-- **Once the stop has fired no message is taken any more**, and what the handlers are given was due to
them by then. -/
theorem after_stop (hstopped : b.stopped = true) (hrun : takeAll? move? b ms = some (hs, b')) :
    b.takenIn ms = [] ∧ (deliveriesIn hs ++ b'.due).Subperm b.due := by
  suffices hlaw : b'.stopped = true ∧ b.takenIn ms = [] ∧
      (deliveriesIn hs ++ b'.due).Subperm b.due from hlaw.2
  refine takeAll?_induct (fun ms hs c => c.stopped = true ∧ b.takenIn ms = [] ∧
    (deliveriesIn hs ++ c.due).Subperm b.due) ?_ ?_ hrun
  · intro ms hs c m new last hrun hlaw hmove
    obtain ⟨hc, hnone, hdue⟩ := hlaw
    have hshift := (step_of_move? hmove).shift
    have htaken := hshift.taken?_eq_none hc
    refine ⟨?_, ?_, ?_⟩
    · by_contra hlast
      rw [stopped_of_step (step_of_move? hmove) (Bool.eq_false_iff.2 hlast)] at hc
      cases hc
    · rw [takenIn_concat hrun hmove, hnone, htaken]
      rfl
    · rw [deliveriesIn_append, List.append_assoc]
      exact ((List.subperm_append_left _).2 (hshift.subperm_due htaken)).trans hdue
  · exact ⟨hstopped, rfl, List.Subperm.refl _⟩

end Broker

end TupleSync.Bus
