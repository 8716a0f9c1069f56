import TupleSync.Proofs.Bus.Subjects

/-!
# What the handlers of a subject are given

**Each message that is taken from a subject is handed out to the handlers that are registered by then**: each
of them is invoked with the event, or each drops the message with a warning. Of a message that is being
served the first handlers have got their part, and the others are due to get it; nothing else is given to
anyone. A consumer that is there can always serve a message to its end and take the next.
-/

set_option autoImplicit false

namespace TupleSync.Bus

open Handler (filedUnder)

namespace Broker

variable {β : Type} {b b' : Broker β} {m : Move β} {ms : List (Move β)}
  {hs new : List (BrokerHappening β)} {config : BrokerConfig} {name : EventName}
  {payload : List UInt8} {table : List (Handler β)}

/-! ## A message for some handlers -/

/-- What the handlers of a subject are given of a message, in order: each that is there is invoked with the
event, or each drops the message with a warning. -/
def handOut (table : List (Handler β)) (name : EventName) (payload : List UInt8) : List (Delivery β) :=
  match Event.ofPayload name payload with
  | .ok e => (filedUnder table name).map fun h => .invoked h.body e
  | .error f => (filedUnder table name).map fun _ => .undecodable name f payload.length

theorem handOut_eq (table : List (Handler β)) (name : EventName) (payload : List UInt8) :
    handOut table name payload = (filedUnder table name).map fun h => h.givePayload payload := by
  have hname : ∀ h ∈ filedUnder table name, h.name = name := by
    intro h hmem
    exact of_decide_eq_true (List.mem_filter.1 hmem).2
  unfold handOut
  split
  · next e hread =>
    refine List.map_congr_left fun h hmem => ?_
    rw [Handler.givePayload, hname h hmem, hread]
  · next f hread =>
    refine List.map_congr_left fun h hmem => ?_
    rw [Handler.givePayload, hname h hmem, hread]

/-- The record of a message that cannot be read. -/
def warning (name : EventName) (payload : List UInt8) : Log.Record :=
  ⟨.warn, "events_bus::handlers", "dropping event that could not be decoded",
    [("subject", .shown name.text), ("bytes", .number payload.length)]⟩

/-- A message that cannot be read leaves one warning for each handler of its subject. -/
theorem records_handOut {f : Json.Fault} (table : List (Handler β))
    (h : Event.ofPayload name payload = .error f) :
    ((handOut table name payload).map .delivered).filterMap BrokerHappening.record? =
      (filedUnder table name).map fun _ => warning name payload := by
  rw [handOut, h, List.map_map, List.filterMap_map, ← List.filterMap_eq_map]
  rfl

/-- A handler is invoked with what can be read of a message that is handed out on its subject. -/
theorem invoked_mem_handOut {k : Handler β} {e : Event} (hk : k ∈ table)
    (hread : Event.ofPayload k.name payload = .ok e) :
    .invoked k.body e ∈ handOut table k.name payload := by
  have hfiled : k ∈ filedUnder table k.name := List.mem_filter.2 ⟨hk, decide_eq_true rfl⟩
  rw [handOut, hread]
  exact List.mem_map.2 ⟨k, hfiled, rfl⟩

/-! ## Given and due -/

/-- What the handlers of a subject are given, in order. -/
def deliveriesOn (name : EventName) (hs : List (BrokerHappening β)) : List (Delivery β) :=
  (deliveriesIn hs).filter fun d => d.subject = name

theorem deliveriesOn_append (hs new : List (BrokerHappening β)) :
    deliveriesOn name (hs ++ new) = deliveriesOn name hs ++ deliveriesOn name new := by
  rw [deliveriesOn, deliveriesIn_append, List.filter_append, deliveriesOn, deliveriesOn]

/-- What the handlers of a subject are still to be given of the message that is served there. -/
def dueOn (b : Broker β) (name : EventName) : List (Delivery β) :=
  ((b.subscription? name).map fun s => s.consumer.due).getD []

theorem dueOn_of_subscription? {s : Subscription β} (h : b.subscription? name = some s) :
    b.dueOn name = s.consumer.due := by
  rw [dueOn, h]
  rfl

theorem dueOn_put {s : Subscription β} {subject : EventName} (hsub : b.subscription? subject = some s)
    {s' : Subscription β} (hname : s'.name = s.name) (name : EventName) :
    (b.put s').dueOn name = if name = subject then s'.consumer.due else b.dueOn name := by
  rw [dueOn, subscription?_put hsub (hname.trans (name_of_subscription? hsub))]
  split <;> rfl

/-- What a run hands out on a subject: each message that the consumer takes, for the handlers that are
registered by then, where these are registered before. -/
def handedOn (b : Broker β) (name : EventName) (table : List (Handler β)) :
    List (Move β) → List (Delivery β)
  | [] => []
  | m :: rest =>
    (onSubject name (b.taken? m).toList).flatMap (handOut table name) ++
      match b.move? m with
      | some (_, b) => handedOn b name (table ++ m.handler?.toList) rest
      | none => []

theorem handedOn_concat {last : Broker β} (hrun : takeAll? move? b ms = some (hs, b'))
    (hmove : b'.move? m = some (new, last)) (table : List (Handler β)) :
    b.handedOn name table (ms ++ [m]) = b.handedOn name table ms ++
      (onSubject name (b'.taken? m).toList).flatMap (handOut (table ++ registeredIn ms) name) := by
  induction ms generalizing b hs table with
  | nil =>
    cases hrun
    simp [handedOn, hmove, registeredIn]
  | cons k ms ih =>
    obtain ⟨first, between, more, hfirst, hmore, rfl⟩ := exists_of_takeAll?_cons hrun
    rw [List.cons_append, handedOn, handedOn, hfirst, registeredIn_cons, List.append_assoc,
      ← List.append_assoc table]
    exact congrArg _ (ih hmore (table ++ k.handler?.toList))

/-- A handler gets what it is given where a message is taken from its subject or gone on with. -/
theorem deliveriesIn_eq_nil (hstep : Step b m new b')
    (hm : ∀ name, m ≠ .act name .take ∧ m ≠ .act name .next) (halone : b.abandoned = []) :
    deliveriesIn new = [] := by
  cases hstep.shift with
  | same hcrew hnew htaken => exact hnew
  | hired before after hcrew hcrew' hnew htaken => exact hnew
  | dismissed before after failed hcrew hcrew' hnew htaken => exact hnew
  | acted before after s s' stopped a hmove hcrew hcrew' hacts htaken =>
    rcases hmove with ⟨rfl, -⟩ | ⟨⟨i, rfl⟩, -⟩
    · obtain ⟨htake, hnext⟩ := hm s.name
      exact hacts.deliveriesIn_eq_nil (fun ha => htake (ha ▸ rfl)) fun ha => hnext (ha ▸ rfl)
    · cases hstep with
      | straggled _ _ s s' _ hsub _ =>
        rw [halone] at hsub
        cases hsub

/-- What the handlers of a subject are given in a step and are due to get after it was due before, or is
handed out of the message that is taken. -/
theorem Live.deliveriesOn_of_step (h : Live config ms hs b) (hstep : Step b m new b')
    (hlive : b'.stopped = false) {name : EventName} (hwhole : Unbroken name (ms ++ [m])) :
    deliveriesOn name new ++ b'.dueOn name = b.dueOn name ++
      (onSubject name (b.taken? m).toList).flatMap (handOut (registeredIn ms) name) := by
  -- most steps give nobody anything
  have hsame : b.taken? m = none → deliveriesIn new = [] → b'.dueOn name = b.dueOn name →
      deliveriesOn name new ++ b'.dueOn name = b.dueOn name ++
        (onSubject name (b.taken? m).toList).flatMap (handOut (registeredIn ms) name) := by
    intro htaken hnew hdue
    rw [htaken, deliveriesOn, hnew, hdue]
    simp [onSubject]
  cases hstep with
  | joined k s hcall hsub =>
    refine hsame rfl rfl ?_
    rw [dueOn_put hsub (s.join_name k)]
    split
    · next hname => exact hname ▸ (dueOn_of_subscription? hsub).symm
    · rfl
  | subscribed k hcall hsub hconn =>
    refine hsame rfl rfl ?_
    rw [dueOn, subscription?_append, dueOn]
    cases b.subscription? name with
    | some s => rfl
    | none =>
      by_cases hname : k.name = name
      · simp [Subscription.opened, Consumer.due, hname]
      · simp [Subscription.opened, hname]
  | arrived subject payload s hsub hgone =>
    refine hsame rfl rfl ?_
    rw [dueOn_put hsub (s.receive_name payload)]
    split
    · next hname => exact hname ▸ (dueOn_of_subscription? hsub).symm
    · rfl
  | acted subject a s s' new hsub hacts =>
    have hsubject := h.subject_of_acts hsub hacts
    rw [onSubject_taken? hsub, dueOn_put hsub hacts.name_eq]
    by_cases hname : name = subject
    · subst hname
      have hall : deliveriesOn name new = deliveriesIn new :=
        List.filter_eq_self.2 fun d hd => decide_eq_true (hsubject d (List.mem_append_left _ hd))
      have hgiven : s.given = handOut (registeredIn ms) name := by
        funext payload
        rw [Subscription.given, handOut_eq, h.filed.handlers hsub]
      rw [if_pos rfl, if_pos rfl, hall, hacts.deliveries_eq hwhole.of_act.1, dueOn_of_subscription? hsub,
        hgiven]
    · have hnone : deliveriesOn name new = [] := by
        refine List.filter_eq_nil_iff.2 fun d hd => ?_
        rw [hsubject d (List.mem_append_left _ hd)]
        simpa using Ne.symm hname
      rw [if_neg hname, if_neg hname, hnone, List.flatMap_nil, List.append_nil, List.nil_append]
  | straggled i a s s' new hsub hacts =>
    rw [h.alone] at hsub
    cases hsub
  | collected subject s failed hclosing hsub hgone =>
    rw [h.closing] at hclosing
    cases hclosing
  | givenUp hclosing => simp [h.closing] at hclosing
  | pushed e hcall =>
    refine hsame rfl ?_ rfl
    rw [push]
    split <;> rfl
  | _ => exact hsame rfl rfl rfl

section Run

variable {past : List (Move β)} {before : List (BrokerHappening β)}

/-- **What the handlers of a subject were given and are due to get is what was handed out there, in
order.** -/
theorem Live.deliveriesOn_of_run {name : EventName} (h : Live config past before b)
    (hrun : takeAll? move? b ms = some (hs, b')) (hlive : b'.stopped = false)
    (hwhole : Unbroken name (past ++ ms)) :
    deliveriesOn name hs ++ b'.dueOn name =
      b.dueOn name ++ b.handedOn name (registeredIn past) ms := by
  refine takeAll?_induct (fun ms hs c => c.stopped = false → Unbroken name (past ++ ms) →
    deliveriesOn name hs ++ c.dueOn name = b.dueOn name ++ b.handedOn name (registeredIn past) ms) ?_ ?_
    hrun hlive hwhole
  · intro ms hs c m new last hrun hlaw hmove hlast hwhole
    rw [← List.append_assoc] at hwhole
    have hstep := step_of_move? hmove
    have hc := stopped_of_step hstep hlast
    have hstepped := (h.run hrun hc).deliveriesOn_of_step hstep hlast hwhole
    rw [registeredIn_append] at hstepped
    rw [deliveriesOn_append, List.append_assoc, hstepped, ← List.append_assoc,
      hlaw hc hwhole.of_append.1, handedOn_concat hrun hmove, List.append_assoc]
  · intro _ _
    rw [handedOn, List.append_nil]
    rfl

/-- From when a subject has a handler all that arrives there waits for its turn. -/
theorem Live.onSubject_of_run {name : EventName} (h : Live config past before b)
    (hname : name ∈ subjectsIn past) (hrun : takeAll? move? b ms = some (hs, b'))
    (hlive : b'.stopped = false) (hwhole : Unbroken name (past ++ ms)) :
    b.pendingOn name ++ onSubject name (arrivalsIn ms) =
      onSubject name (b.takenIn ms) ++ b'.pendingOn name := by
  refine takeAll?_induct (fun ms _ c => c.stopped = false → Unbroken name (past ++ ms) →
    b.pendingOn name ++ onSubject name (arrivalsIn ms) =
      onSubject name (b.takenIn ms) ++ c.pendingOn name) ?_ ?_ hrun hlive hwhole
  · intro ms _ c m new last hrun hlaw hmove hlast hwhole
    rw [← List.append_assoc] at hwhole
    have hstep := step_of_move? hmove
    have hc := stopped_of_step hstep hlast
    have hstepped := (h.run hrun hc).onSubject_of_step hstep hlast hwhole
    -- all that arrives on the subject is heard
    have hheard : onSubject name (m.arrival?.toList.filter fun x => x.1 ∈ subjectsIn (past ++ ms)) =
        onSubject name m.arrival?.toList := by
      rw [onSubject, List.filter_filter]
      congr 1
      refine List.filter_congr fun x _ => ?_
      by_cases hx : x.1 = name
      · simp [hx, mem_subjectsIn_append hname ms]
      · simp [hx]
    rw [hheard] at hstepped
    rw [arrivalsIn_concat, takenIn_concat hrun hmove, onSubject_append, onSubject_append,
      ← List.append_assoc, hlaw hc hwhole.of_append.1, List.append_assoc, ← hstepped, List.append_assoc]
  · intro _ _
    simp [onSubject, arrivalsIn, takenIn]

end Run

/-- A message that is taken from a subject is handed out there, to all that were registered before. -/
theorem mem_handedOn {k : Handler β} {d : Delivery β} (hrun : takeAll? move? b ms = some (hs, b'))
    (htaken : payload ∈ onSubject k.name (b.takenIn ms))
    (hd : ∀ more, d ∈ handOut (table ++ more) k.name payload) : d ∈ b.handedOn k.name table ms := by
  induction ms generalizing b hs table with
  | nil => cases htaken
  | cons m ms ih =>
    obtain ⟨first, between, more, hfirst, hmore, rfl⟩ := exists_of_takeAll?_cons hrun
    rw [takenIn, hfirst, onSubject_append] at htaken
    rw [handedOn, hfirst]
    rcases List.mem_append.1 htaken with htaken | htaken
    · have hnow := hd []
      rw [List.append_nil] at hnow
      exact List.mem_append_left _ (List.mem_flatMap.2 ⟨payload, htaken, hnow⟩)
    · refine List.mem_append_right _ (ih hmore htaken fun others => ?_)
      rw [List.append_assoc]
      exact hd _

/-! ## What can be done next -/

/-- **A consumer takes the oldest message, if it serves none and one waits, and the first of the handlers
that are registered by then gets it.** -/
theorem Live.take_iff (h : Live config ms hs b) (hlive : b.stopped = false) :
    b.move? (.act name .take) = some (new, b') ↔ ∃ s payload rest first others,
      b.subscription? name = some s ∧ s.consumer = .waiting ∧ s.pending = payload :: rest ∧
        filedUnder (registeredIn ms) name = first :: others ∧
        new = [.delivered (first.givePayload payload)] ∧
        b' = b.put { s with pending := rest, consumer := .serving payload first others } := by
  constructor
  · intro hmove
    cases step_of_move? hmove with
    | acted _ _ s s' _ hsub hacts =>
      cases hacts with
      | took payload rest hconsumer hstopped hpending =>
        obtain ⟨first, others, hfiled⟩ := List.exists_cons_of_ne_nil (h.filed.manned hsub)
        refine ⟨s, payload, rest, first, others, hsub, hconsumer, hpending, hfiled, ?_, ?_⟩
        · rw [h.filed.handlers hsub, hfiled]
          rfl
        · rw [h.filed.handlers hsub, hfiled]
          rfl
  · rintro ⟨s, payload, rest, first, others, hsub, hconsumer, hpending, hfiled, rfl, rfl⟩
    have hgive : Consumer.give payload s.handlers =
        ([.delivered (first.givePayload payload)], .serving payload first others) := by
      rw [h.filed.handlers hsub, hfiled]
      rfl
    have hstep := Step.acted name .take s _ _ hsub (.took payload rest hconsumer hlive hpending)
    rw [hgive] at hstep
    exact hstep.move?_eq

/-- **A consumer that is there serves the message that it has begun to its end, if nothing else is done, and
can then take the next if one waits.** -/
theorem Live.exists_serving_on (h : Live config ms hs b) (hlive : b.stopped = false)
    (hname : name ∈ subjectsIn ms) (hwhole : Unbroken name ms) :
    ∃ n new b', b.moves? (List.replicate n (.act name .next)) = some (new, b') ∧
      deliveriesIn new = b.dueOn name ∧ b'.pendingOn name = b.pendingOn name ∧
      (b.pendingOn name ≠ [] → ∃ r, b'.move? (.act name .take) = some r) := by
  obtain ⟨s, hsub⟩ := h.exists_subscription_iff.2 hname
  obtain ⟨n, new, hrun, hnew⟩ := exists_finishing hsub (h.there hsub hwhole)
  let s' : Subscription β := { s with consumer := .waiting }
  have hsubject : s.name = name := name_of_subscription? hsub
  have hsub' : (b.put s').subscription? name = some s' := subscription?_put_self hsub hsubject
  have hpending : (b.put s').pendingOn name = b.pendingOn name := by
    rw [pendingOn_of_subscription? hsub', pendingOn_of_subscription? hsub]
  refine ⟨n, new, b.put s', (moves?_eq _ _).trans hrun, hnew.trans (dueOn_of_subscription? hsub).symm,
    hpending, fun hwaiting => ?_⟩
  rw [pendingOn_of_subscription? hsub] at hwaiting
  obtain ⟨payload, rest, hrest⟩ := List.exists_cons_of_ne_nil hwaiting
  exact ⟨_, (Step.acted name .take s' _ _ hsub' (.took payload rest rfl hlive hrest)).move?_eq⟩

end Broker

end TupleSync.Bus
