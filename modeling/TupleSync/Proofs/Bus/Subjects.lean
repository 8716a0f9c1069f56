import TupleSync.Proofs.Bus.Messages
import TupleSync.Proofs.Event.Payload
import TupleSync.Proofs.Tuple.Order

/-!
# The subjects of a broker bus

**Until its stop fires a broker bus has one subscription for each name that handlers are registered under,
opened by the first of them, and every message that arrives there waits for its turn.** `Live` is what a
run keeps until then: the bus is connected, its subscriptions are those of the names, and every consumer is
there that neither lost the connection nor failed with a handler. The messages of such a subject are
accounted for one by one. What was taken and what still waits is what was heard, in order; and what the
handlers were given and are still to be given is what was taken, in order, for the handlers that were
registered by then.
-/

set_option autoImplicit false

namespace TupleSync.Bus

open Handler (filedUnder)

def BrokerHappening.subscribed? {β : Type} : BrokerHappening β → Option (EventName × String)
  | subscribed name group => some (name, group)
  | _ => none

/-- The subject that a handler is given something on. -/
def Delivery.subject {β : Type} : Delivery β → EventName
  | .invoked _ e => e.name
  | .misfiled expected _ => expected
  | .undecodable subject _ _ => subject

/-- A handler is given a payload on the subject of its name. -/
theorem Handler.subject_givePayload {β : Type} (h : Handler β) (payload : List UInt8) :
    (h.givePayload payload).subject = h.name := by
  rw [givePayload]
  split
  · next e hread => exact Event.name_of_ofPayload hread
  · rfl

namespace Broker

variable {β : Type} {b b' : Broker β} {m : Move β} {ms : List (Move β)}
  {hs new : List (BrokerHappening β)} {config : BrokerConfig} {name : EventName}

/-! ## Registrations and subscriptions -/

/-- The handlers that are registered in a run, in order. -/
def registeredIn (ms : List (Move β)) : List (Handler β) := ms.filterMap Move.handler?

/-- The names that handlers are registered under in a run, in the order of the first handlers. -/
def subjectsIn (ms : List (Move β)) : List EventName :=
  ((registeredIn ms).map fun h => h.name).eraseDups

/-- The subscriptions that are opened in a run, each with its group. -/
def openedIn (hs : List (BrokerHappening β)) : List (EventName × String) :=
  hs.filterMap BrokerHappening.subscribed?

@[simp] theorem openedIn_append (hs new : List (BrokerHappening β)) :
    openedIn (hs ++ new) = openedIn hs ++ openedIn new :=
  List.filterMap_append

theorem registeredIn_append (ms more : List (Move β)) :
    registeredIn (ms ++ more) = registeredIn ms ++ registeredIn more :=
  List.filterMap_append

theorem registeredIn_cons (m : Move β) (ms : List (Move β)) :
    registeredIn (m :: ms) = m.handler?.toList ++ registeredIn ms := by
  cases hm : m.handler? with
  | none => exact List.filterMap_cons_none hm
  | some h => exact List.filterMap_cons_some hm

theorem registeredIn_concat (ms : List (Move β)) (m : Move β) :
    registeredIn (ms ++ [m]) = registeredIn ms ++ m.handler?.toList := by
  rw [registeredIn_append, registeredIn_cons]
  exact congrArg _ (List.append_nil _)

theorem mem_subjectsIn : name ∈ subjectsIn ms ↔ ∃ h ∈ registeredIn ms, h.name = name := by
  rw [subjectsIn, List.mem_eraseDups, List.mem_map]

theorem mem_subjectsIn_append (h : name ∈ subjectsIn ms) (more : List (Move β)) :
    name ∈ subjectsIn (ms ++ more) := by
  rw [mem_subjectsIn] at h ⊢
  obtain ⟨k, hk, hname⟩ := h
  rw [registeredIn_append]
  exact ⟨k, List.mem_append_left _ hk, hname⟩

theorem nodup_subjectsIn (ms : List (Move β)) : (subjectsIn ms).Nodup := nodup_eraseDups _

theorem subjectsIn_concat_of_none (hm : m.handler? = none) :
    subjectsIn (ms ++ [m]) = subjectsIn ms := by
  rw [subjectsIn, registeredIn_concat, hm, Option.toList_none, List.append_nil, subjectsIn]

/-- Only a handler of a new name adds a subject. -/
theorem subjectsIn_concat_register (h : Handler β) :
    subjectsIn (ms ++ [.register h]) =
      subjectsIn ms ++ if h.name ∈ subjectsIn ms then [] else [h.name] := by
  rw [subjectsIn, registeredIn_concat, List.map_append, List.eraseDups_append, ← subjectsIn]
  congr 1
  by_cases hknown : h.name ∈ subjectsIn ms
  · rw [if_pos hknown]
    simp [Move.handler?, List.removeAll, mem_subjectsIn.1 hknown]
  · rw [if_neg hknown]
    rw [mem_subjectsIn] at hknown
    simp [Move.handler?, List.removeAll, hknown, List.eraseDups_cons]

/-! ## A bus whose stop has not fired -/

/-- In a run the consumer of a subject neither lost the connection nor failed with a handler. -/
def Unbroken (name : EventName) (ms : List (Move β)) : Prop :=
  .act name .fail ∉ ms ∧ .act name .cutOff ∉ ms

theorem Unbroken.of_append {more : List (Move β)} (h : Unbroken name (ms ++ more)) :
    Unbroken name ms ∧ Unbroken name more :=
  ⟨⟨fun hm => h.1 (List.mem_append_left _ hm), fun hm => h.2 (List.mem_append_left _ hm)⟩,
    fun hm => h.1 (List.mem_append_right _ hm), fun hm => h.2 (List.mem_append_right _ hm)⟩

theorem Unbroken.of_act {a : Act} (h : Unbroken name (ms ++ [.act name a])) : a ≠ .fail ∧ a ≠ .cutOff := by
  refine ⟨?_, ?_⟩
  · rintro rfl
    exact h.1 (List.mem_append_right _ (List.mem_singleton_self _))
  · rintro rfl
    exact h.2 (List.mem_append_right _ (List.mem_singleton_self _))

/-- What holds of a broker bus and its past until the stop fires. -/
structure Live (config : BrokerConfig) (ms : List (Move β)) (hs : List (BrokerHappening β))
    (b : Broker β) : Prop where
  configured : b.config = config
  connected : b.connected = true
  closing : b.closing = .none
  alone : b.abandoned = []
  filed : Filed (registeredIn ms) b
  names : b.subscriptions.map (fun s => s.name) = subjectsIn ms
  there : ∀ {name s}, b.subscription? name = some s → Unbroken name ms → s.consumer.isGone = false
  own : ∀ {name s}, b.subscription? name = some s → ∀ d ∈ s.consumer.due, d.subject = name
  opened : openedIn hs = (subjectsIn ms).map fun name => (name, config.queueGroup)

theorem Live.of_connect {start : Broker β} (h : connect true config = .ok start) :
    Live config [] [] start := by
  have hfiled := (filed_of_connect h).1
  cases h
  exact ⟨rfl, rfl, rfl, rfl, hfiled, rfl, fun hs => (nomatch hs), fun hs => (nomatch hs), rfl⟩

/-- A subject has a subscription as soon as it has a handler. -/
theorem Live.exists_subscription_iff (h : Live config ms hs b) :
    (∃ s, b.subscription? name = some s) ↔ name ∈ subjectsIn ms := by
  rw [← h.names, ← Option.isSome_iff_exists, subscription?, List.find?_isSome]
  simp

theorem Live.subscription?_eq_none_iff (h : Live config ms hs b) :
    b.subscription? name = none ↔ name ∉ subjectsIn ms := by
  rw [← h.exists_subscription_iff, Option.eq_none_iff_forall_ne_some]
  simp

/-- A move that leaves the subscriptions alone leaves the bus as it should be. -/
theorem Live.of_quiet (h : Live config ms hs b) (hstep : Step b m new b') (hm : m.handler? = none)
    (hconfig : b'.config = b.config) (hconnected : b'.connected = b.connected)
    (hclosing : b'.closing = b.closing) (halone : b'.abandoned = b.abandoned)
    (hsubs : b'.subscriptions = b.subscriptions) (hnew : openedIn new = []) :
    Live config (ms ++ [m]) (hs ++ new) b' := by
  have hfind : ∀ name, b'.subscription? name = b.subscription? name := by
    intro name
    rw [subscription?, hsubs]
    rfl
  exact {
    configured := hconfig.trans h.configured
    connected := hconnected.trans h.connected
    closing := hclosing.trans h.closing
    alone := halone.trans h.alone
    filed := registeredIn_concat ms m ▸ h.filed.step hstep h.connected h.closing
    names := by rw [hsubs, h.names, subjectsIn_concat_of_none hm]
    there := fun hs hwhole => h.there (hfind _ ▸ hs) hwhole.of_append.1
    own := fun hs => h.own (hfind _ ▸ hs)
    opened := by rw [openedIn_append, hnew, List.append_nil, h.opened, subjectsIn_concat_of_none hm] }

/-- A move that changes the subscription of one subject leaves the bus as it should be, if it does so with
the subscription. -/
theorem Live.of_put (h : Live config ms hs b) {s s' : Subscription β} (hsub : b.subscription? name = some s)
    (hstep : Step b m new (b.put s')) (hsubjects : subjectsIn (ms ++ [m]) = subjectsIn ms)
    (hname : s'.name = s.name) (hthere : Unbroken name (ms ++ [m]) → s'.consumer.isGone = false)
    (hown : ∀ d ∈ s'.consumer.due, d.subject = name) (hnew : openedIn new = []) :
    Live config (ms ++ [m]) (hs ++ new) (b.put s') := by
  have hfind := subscription?_put hsub (hname.trans (name_of_subscription? hsub))
  exact {
    configured := h.configured
    connected := h.connected
    closing := h.closing
    alone := h.alone
    filed := registeredIn_concat ms m ▸ h.filed.step hstep h.connected h.closing
    names := by rw [map_name_put, h.names, hsubjects]
    there := by
      intro other x hx hwhole
      rw [hfind] at hx
      split at hx
      · next hother =>
        cases hx
        exact hthere (hother ▸ hwhole)
      · exact h.there hx hwhole.of_append.1
    own := by
      intro other x hx
      rw [hfind] at hx
      split at hx
      · next hother =>
        cases hx
        exact hother ▸ hown
      · exact h.own hx
    opened := by rw [openedIn_append, hnew, List.append_nil, h.opened, hsubjects] }

theorem openedIn_of_acts {s s' : Subscription β} {stopped : Bool} {a : Act}
    (h : s.Acts stopped a new s') : openedIn new = [] := by
  have hgive : ∀ payload hs, openedIn (Consumer.give payload hs : List (BrokerHappening β) × _).1 = [] := by
    intro payload hs
    cases hs <;> rfl
  cases h with
  | took payload rest hconsumer hstopped hpending => exact hgive payload s.handlers
  | handed payload current rest hconsumer => exact hgive payload rest
  | _ => rfl

/-- What the handlers of a subject are given of a message is of this subject. -/
theorem Live.subject_of_acts (h : Live config ms hs b) {s s' : Subscription β} {stopped : Bool} {a : Act}
    (hsub : b.subscription? name = some s) (hacts : s.Acts stopped a new s') :
    ∀ d ∈ deliveriesIn new ++ s'.consumer.due, d.subject = name := by
  intro d hd
  rcases List.mem_append.1 (hacts.deliveries_sublist.subset hd) with hd | hd
  · exact h.own hsub d hd
  · obtain ⟨payload, -, hd⟩ := List.mem_flatMap.1 hd
    rw [Subscription.given, h.filed.handlers hsub] at hd
    obtain ⟨k, hk, rfl⟩ := List.mem_map.1 hd
    rw [k.subject_givePayload]
    exact of_decide_eq_true (List.mem_filter.1 hk).2

/-- **Until the stop fires every step leaves the bus as it should be.** -/
theorem Live.step (h : Live config ms hs b) (hstep : Step b m new b') (hlive : b'.stopped = false) :
    Live config (ms ++ [m]) (hs ++ new) b' := by
  have hfiled := registeredIn_concat ms m ▸ h.filed.step hstep h.connected h.closing
  cases hstep with
  | joined k s hcall hsub =>
    have hknown : k.name ∈ subjectsIn ms := h.exists_subscription_iff.1 ⟨s, hsub⟩
    have hsame : subjectsIn (ms ++ [.register k]) = subjectsIn ms := by
      rw [subjectsIn_concat_register, if_pos hknown, List.append_nil]
    have hthere := h.there hsub
    have hown := h.own hsub
    exact h.of_put hsub (.joined k s hcall hsub) hsame (s.join_name k)
      (fun hwhole => hthere hwhole.of_append.1) hown rfl
  | subscribed k hcall hsub hconn =>
    have hmore : subjectsIn (ms ++ [.register k]) = subjectsIn ms ++ [k.name] := by
      rw [subjectsIn_concat_register, if_neg (h.subscription?_eq_none_iff.1 hsub)]
    refine ⟨h.configured, h.connected, h.closing, h.alone, hfiled, ?_, ?_, ?_, ?_⟩
    · rw [List.map_append, h.names, hmore]
      rfl
    · intro other x hx hwhole
      rw [subscription?_append, Option.or_eq_some_iff] at hx
      rcases hx with hx | ⟨-, hx⟩
      · exact h.there hx hwhole.of_append.1
      · split at hx
        · cases hx
          rfl
        · cases hx
    · intro other x hx
      rw [subscription?_append, Option.or_eq_some_iff] at hx
      rcases hx with hx | ⟨-, hx⟩
      · exact h.own hx
      · split at hx
        · cases hx
          exact fun d hd => absurd hd List.not_mem_nil
        · cases hx
    · rw [openedIn_append, h.opened, hmore, List.map_append, h.configured]
      rfl
  | registerRefused k hcall hsub hconn =>
    rw [h.connected] at hconn
    cases hconn
  | pushed e hcall =>
    refine h.of_quiet (.pushed e hcall) rfl rfl rfl rfl rfl rfl ?_
    rw [push, if_pos h.connected]
    rfl
  | forwarded hforwarding hsignalled => cases hlive
  | arrived name payload s hsub hgone =>
    have hown := h.own hsub
    exact h.of_put hsub (.arrived name payload s hsub hgone) (subjectsIn_concat_of_none rfl)
      (s.receive_name payload) (fun _ => hgone) hown rfl
  | acted name a s s' new hsub hacts =>
    refine h.of_put hsub (.acted name a s s' new hsub hacts) (subjectsIn_concat_of_none rfl)
      hacts.name_eq ?_ ?_ (openedIn_of_acts hacts)
    · intro hwhole
      obtain ⟨hfail, hcut⟩ := hwhole.of_act
      rw [show b.stopped = false from hlive] at hacts
      exact hacts.isGone_eq hfail hcut
    · exact fun d hd => h.subject_of_acts hsub hacts d (List.mem_append_right _ hd)
  | straggled i a s s' new hsub hacts =>
    rw [h.alone] at hsub
    cases hsub
  | shutdownAsked hcall => cases hlive
  | collected name s failed hclosing hsub hgone =>
    rw [h.closing] at hclosing
    cases hclosing
  | disconnected hclosing hsub =>
    rw [h.closing] at hclosing
    cases hclosing
  | returned hclosing =>
    rw [h.closing] at hclosing
    cases hclosing
  | givenUp hclosing => simp [h.closing] at hclosing
  | refused k hcall hsub hconn =>
    exact h.of_quiet (.refused k hcall hsub hconn) rfl rfl rfl rfl rfl rfl rfl
  | running hcall hforwarding => exact h.of_quiet (.running hcall hforwarding) rfl rfl rfl rfl rfl rfl rfl
  | runRefused hcall hforwarding =>
    exact h.of_quiet (.runRefused hcall hforwarding) rfl rfl rfl rfl rfl rfl rfl
  | signalled => exact h.of_quiet .signalled rfl rfl rfl rfl rfl rfl rfl
  | missed name payload hsub => exact h.of_quiet (.missed name payload hsub) rfl rfl rfl rfl rfl rfl rfl

/-- A live bus stays so through a run that ends before the stop fires. -/
theorem Live.run {past : List (Move β)} {before : List (BrokerHappening β)}
    (h : Live config past before b) (hrun : takeAll? move? b ms = some (hs, b'))
    (hlive : b'.stopped = false) : Live config (past ++ ms) (before ++ hs) b' := by
  refine takeAll?_induct (fun ms hs c => c.stopped = false → Live config (past ++ ms) (before ++ hs) c)
    ?_ ?_ hrun hlive
  · intro ms hs c m new last _ hlaw hmove hlast
    have hstep := step_of_move? hmove
    rw [← List.append_assoc, ← List.append_assoc]
    exact (hlaw (stopped_of_step hstep hlast)).step hstep hlast
  · intro _
    rwa [List.append_nil, List.append_nil]

/-- **A registration opens the subscription of its name or joins it**; the broker is asked only for a name
that has none. -/
theorem Live.registerIf (h : Live config ms hs b) (k : Handler β) :
    (∃ b', b.register k = .ok (if k.name ∈ subjectsIn ms then .joined k.name
      else .subscribed k.name config.queueGroup, b')) ∧
      b.registerIf false k =
        if k.name ∈ subjectsIn ms then b.register k else .error (.subscriptionRefused k.name) := by
  by_cases hknown : k.name ∈ subjectsIn ms
  · obtain ⟨s, hsub⟩ := h.exists_subscription_iff.2 hknown
    refine ⟨⟨b.put (s.join k), ?_⟩, ?_⟩
    · rw [register, Broker.registerIf, hsub, if_pos hknown]
    · rw [register, Broker.registerIf, Broker.registerIf, hsub, if_pos hknown]
  · have hsub := h.subscription?_eq_none_iff.2 hknown
    refine ⟨⟨{ b with subscriptions := b.subscriptions ++ [.opened k] }, ?_⟩, ?_⟩
    · rw [register, Broker.registerIf, hsub, if_neg hknown, ← h.configured]
      simp [h.connected]
    · rw [Broker.registerIf, hsub, if_neg hknown]
      simp [h.connected]

/-! ## Messages -/

/-- The messages that wait on a subject, the oldest first. -/
def pendingOn (b : Broker β) (name : EventName) : List (List UInt8) :=
  ((b.subscription? name).map fun s => s.pending).getD []

theorem pendingOn_of_subscription? {s : Subscription β} (h : b.subscription? name = some s) :
    b.pendingOn name = s.pending := by
  rw [pendingOn, h]
  rfl

/-- The payloads of the messages on a subject. -/
def onSubject (name : EventName) (messages : List (EventName × List UInt8)) : List (List UInt8) :=
  (messages.filter fun x => x.1 = name).map fun x => x.2

@[simp] theorem onSubject_append (messages more : List (EventName × List UInt8)) :
    onSubject name (messages ++ more) = onSubject name messages ++ onSubject name more := by
  simp [onSubject]

/-- The messages that arrive in a run on subjects that have a handler by then, where these have one from
the beginning. -/
def heardIn (known : List EventName) : List (Move β) → List (EventName × List UInt8)
  | [] => []
  | m :: rest =>
    (m.arrival?.toList.filter fun x => x.1 ∈ known) ++
      heardIn (known ++ m.handler?.toList.map fun h => h.name) rest

theorem heardIn_concat (known : List EventName) (ms : List (Move β)) (m : Move β) :
    heardIn known (ms ++ [m]) = heardIn known ms ++
      m.arrival?.toList.filter fun x => x.1 ∈ known ++ (registeredIn ms).map fun h => h.name := by
  induction ms generalizing known with
  | nil => simp [heardIn, registeredIn]
  | cons k ms ih =>
    rw [List.cons_append, heardIn, heardIn, ih, registeredIn_cons, List.map_append]
    simp only [List.append_assoc]

/-- A change of a subscription shows in the messages of its subject and of no other. -/
theorem pendingOn_put {s : Subscription β} {subject : EventName}
    (hsub : b.subscription? subject = some s) {s' : Subscription β} (hname : s'.name = s.name)
    (name : EventName) :
    (b.put s').pendingOn name = if name = subject then s'.pending else b.pendingOn name := by
  rw [pendingOn, subscription?_put hsub (hname.trans (name_of_subscription? hsub))]
  split <;> rfl

/-- What a consumer takes was the first of the messages that wait. -/
theorem pending_of_acts {s s' : Subscription β} {a : Act} (h : s.Acts false a new s') (hfail : a ≠ .fail) :
    (s.taken? a).toList ++ s'.pending = s.pending := by
  cases h with
  | took payload rest hconsumer hstopped hpending =>
    rw [Subscription.taken?, hpending]
    rfl
  | failed payload current rest body e hconsumer hinvoked => exact absurd rfl hfail
  | left hconsumer hstopped => cases hstopped
  | _ => rfl

/-- What is taken from a subject is taken from its subscription. -/
theorem onSubject_taken? {s : Subscription β} {subject : EventName}
    (hsub : b.subscription? subject = some s) (a : Act) (name : EventName) :
    onSubject name (b.taken? (.act subject a)).toList =
      if name = subject then (s.taken? a).toList else [] := by
  rw [taken?_act hsub]
  cases s.taken? a with
  | none => simp [onSubject]
  | some payload =>
    by_cases hname : name = subject
    · simp [onSubject, hname]
    · simp [onSubject, hname, Ne.symm hname]

/-- The messages of a subject after a step: one that is heard waits behind the others, and one that is
taken was the first of them. -/
theorem Live.onSubject_of_step (h : Live config ms hs b) (hstep : Step b m new b')
    (hlive : b'.stopped = false) {name : EventName} (hwhole : Unbroken name (ms ++ [m])) :
    onSubject name (b.taken? m).toList ++ b'.pendingOn name =
      b.pendingOn name ++ onSubject name (m.arrival?.toList.filter fun x => x.1 ∈ subjectsIn ms) := by
  -- most steps leave the messages alone
  have hsame : b.taken? m = none → m.arrival? = none → b'.pendingOn name = b.pendingOn name →
      onSubject name (b.taken? m).toList ++ b'.pendingOn name =
        b.pendingOn name ++ onSubject name (m.arrival?.toList.filter fun x => x.1 ∈ subjectsIn ms) := by
    intro htaken harrival hpending
    rw [htaken, harrival, hpending]
    simp [onSubject]
  cases hstep with
  | joined k s hcall hsub =>
    refine hsame rfl rfl ?_
    rw [pendingOn_put hsub (s.join_name k)]
    split
    · next hname => exact hname ▸ (pendingOn_of_subscription? hsub).symm
    · rfl
  | subscribed k hcall hsub hconn =>
    refine hsame rfl rfl ?_
    rw [pendingOn, subscription?_append, pendingOn]
    cases b.subscription? name with
    | some s => rfl
    | none =>
      by_cases hname : k.name = name
      · simp [Subscription.opened, hname]
      · simp [Subscription.opened, hname]
  | arrived subject payload s hsub hgone =>
    have hknown : subject ∈ subjectsIn ms := h.exists_subscription_iff.1 ⟨s, hsub⟩
    rw [pendingOn_put hsub (s.receive_name payload)]
    by_cases hname : name = subject
    · subst hname
      simp [taken?, Move.arrival?, hknown, onSubject, pendingOn_of_subscription? hsub,
        Subscription.receive]
    · simp [taken?, Move.arrival?, hknown, onSubject, hname, Ne.symm hname]
  | missed subject payload hsub =>
    by_cases hname : subject = name
    · -- a consumer that is there misses only what it has no handler for
      subst hname
      have hunknown : subject ∉ subjectsIn ms := by
        intro hknown
        obtain ⟨s, hs⟩ := h.exists_subscription_iff.2 hknown
        have hgone := h.there hs hwhole.of_append.1
        rw [hsub s hs] at hgone
        cases hgone
      simp [taken?, Move.arrival?, hunknown, onSubject]
    · have hother : onSubject name ([(subject, payload)].filter fun x => x.1 ∈ subjectsIn ms) = [] := by
        rw [onSubject, List.filter_filter]
        simp [hname]
      show [] ++ b.pendingOn name = b.pendingOn name ++ onSubject name ([(subject, payload)].filter _)
      rw [hother, List.append_nil, List.nil_append]
  | acted subject a s s' new hsub hacts =>
    rw [show b.stopped = false from hlive] at hacts
    show onSubject name (b.taken? (.act subject a)).toList ++ (b.put s').pendingOn name =
      b.pendingOn name ++ []
    rw [onSubject_taken? hsub, pendingOn_put hsub hacts.name_eq, List.append_nil]
    by_cases hname : name = subject
    · subst hname
      rw [if_pos rfl, if_pos rfl, pending_of_acts hacts hwhole.of_act.1, pendingOn_of_subscription? hsub]
    · rw [if_neg hname, if_neg hname, List.nil_append]
  | straggled i a s s' new hsub hacts =>
    rw [h.alone] at hsub
    cases hsub
  | collected subject s failed hclosing hsub hgone =>
    rw [h.closing] at hclosing
    cases hclosing
  | givenUp hclosing => simp [h.closing] at hclosing
  | _ => exact hsame rfl rfl rfl

/-- **What was taken from a subject and what still waits there is what was heard there, in order.** -/
theorem onSubject_takenIn {start : Broker β} (hconnect : connect true config = .ok start)
    (hrun : start.moves? ms = some (hs, b)) (hlive : b.stopped = false) (name : EventName)
    (hwhole : Unbroken name ms) :
    onSubject name (start.takenIn ms) ++ b.pendingOn name = onSubject name (heardIn [] ms) := by
  rw [moves?_eq] at hrun
  refine takeAll?_induct (fun ms _ c => c.stopped = false → Unbroken name ms →
    onSubject name (start.takenIn ms) ++ c.pendingOn name = onSubject name (heardIn [] ms)) ?_ ?_ hrun
    hlive hwhole
  · intro ms past c m new last hrun hlaw hmove hlast hwhole
    have hstep := step_of_move? hmove
    have hbefore := stopped_of_step hstep hlast
    have hstepped :=
      ((Live.of_connect hconnect).run hrun hbefore).onSubject_of_step hstep hlast hwhole
    have hknown : (fun x : EventName × List UInt8 => decide (x.1 ∈ subjectsIn ms)) =
        fun x => decide (x.1 ∈ [] ++ (registeredIn ms).map fun h => h.name) := by
      funext x
      rw [List.nil_append, subjectsIn, decide_eq_decide, List.mem_eraseDups]
    rw [List.nil_append, hknown] at hstepped
    rw [takenIn_concat hrun hmove, onSubject_append, List.append_assoc, hstepped, ← List.append_assoc,
      hlaw hbefore hwhole.of_append.1, heardIn_concat, onSubject_append]
  · intro _ _
    cases hconnect
    rfl

end Broker

end TupleSync.Bus
