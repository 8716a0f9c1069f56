import TupleSync.Proofs.Bus.Consumers

/-!
# Events through a broker

**What a broker bus delivers is determined by its handlers and the events whose messages it takes**: the
payload of each event, in order, is given to the handlers of its subject. `Delivers` asks for a run, any
run, in which the messages arrive in the order of the events and are served in that order, each before the
next is taken; consumers of different subjects might also serve them side by side. Messages of subjects
without a consumer are not taken, and no handler misses them.
-/

set_option autoImplicit false

namespace TupleSync.Bus

open Handler (filedUnder)

variable {β : Type}

/-- The message of an event: its payload, on the subject of its name. -/
def message (e : Event) : EventName × List UInt8 := (e.name, e.payloadBytes)

namespace Broker

variable {b b' : Broker β} {m : Move β} {ms : List (Move β)} {hs new : List (BrokerHappening β)}
  {table : List (Handler β)} {name : EventName}

def Move.arrival? : Move β → Option (EventName × List UInt8)
  | .arrive name payload => some (name, payload)
  | _ => none

/-- The messages that arrive in a run, in order. -/
def arrivalsIn (ms : List (Move β)) : List (EventName × List UInt8) := ms.filterMap Move.arrival?

theorem arrivalsIn_concat (ms : List (Move β)) (m : Move β) :
    arrivalsIn (ms ++ [m]) = arrivalsIn ms ++ m.arrival?.toList := by
  rw [arrivalsIn, List.filterMap_append, ← arrivalsIn]
  cases hm : m.arrival? <;> simp [hm]

/-- The moves in which a handler fails. -/
def Move.fails : Move β → Bool
  | .act _ .fail => true
  | .straggle _ .fail => true
  | _ => false

/-- No message is being served. -/
def Idle (b : Broker β) : Prop := ∀ c ∈ b.crew, c.isServing = false

/-- In a run every message is taken when no other is being served. -/
def InTurn (b : Broker β) : List (Move β) → Prop
  | [] => True
  | m :: rest =>
    ((b.taken? m).isSome = true → b.Idle) ∧
      ∀ new b', b.move? m = some (new, b') → InTurn b' rest

/-- **A broker bus delivers so** if these handlers are registered on one that was just connected, the
messages of these events arrive in some run of it in which no handler fails, the consumers serve them one
after the other in the order of their arrival, except those that have no consumer, and this is what the
handlers are given. -/
def Delivers (config : BrokerConfig) (table : List (Handler β)) (es : List Event)
    (ds : List (Delivery β)) : Prop :=
  ∃ start before b, connect true config = .ok start ∧
    start.moves? (table.map .register) = some (before, b) ∧
    ∃ ms hs b', (∀ m ∈ ms, m.handler? = none ∧ m.fails = false) ∧ b.moves? ms = some (hs, b') ∧
      arrivalsIn ms = es.map message ∧
      b.takenIn ms = (es.filter fun e => filedUnder table e.name ≠ []).map message ∧
      b.InTurn ms ∧ b'.Idle ∧ deliveriesIn hs = ds

/-- A message is given to the handlers of its subject. -/
def fanout (table : List (Handler β)) (message : EventName × List UInt8) : List (Delivery β) :=
  (filedUnder table message.1).map fun h => h.givePayload message.2

/-! ## What is delivered -/

/-- Every subscription holds the handlers of a table that are filed under its name. -/
def Staffed (table : List (Handler β)) (b : Broker β) : Prop :=
  ∀ s ∈ b.subscriptions, s.handlers = filedUnder table s.name

theorem Filed.staffed (h : Filed table b) : Staffed table b := fun _ hmem =>
  h.handlers (h.subscription?_of_mem hmem)

theorem mem_replaceIn {s x : Subscription β} {xs : List (Subscription β)} (h : x ∈ s.replaceIn xs) :
    x = s ∨ x ∈ xs := by
  induction xs with
  | nil => cases h
  | cons y ys ih =>
    rw [Subscription.replaceIn] at h
    split at h
    · rcases List.mem_cons.1 h with rfl | h
      · exact Or.inl rfl
      · exact Or.inr (List.mem_cons_of_mem _ h)
    · rcases List.mem_cons.1 h with rfl | h
      · exact Or.inr List.mem_cons_self
      · exact (ih h).imp_right (List.mem_cons_of_mem _)

theorem Staffed.of_put (h : Staffed table b) {s s' : Subscription β} (hsub : b.subscription? name = some s)
    (hname : s'.name = s.name) (hhandlers : s'.handlers = s.handlers) : Staffed table (b.put s') := by
  intro x hx
  rcases mem_replaceIn hx with rfl | hx
  · rw [hhandlers, hname]
    exact h s (List.mem_of_find?_eq_some hsub)
  · exact h x hx

/-- A move that registers nothing leaves the subscriptions staffed. -/
theorem Staffed.step (h : Staffed table b) (hstep : Step b m new b') (hm : m.handler? = none) :
    Staffed table b' := by
  cases hstep with
  | joined k s hcall hsub => cases hm
  | subscribed k hcall hsub hconn => cases hm
  | arrived name payload s hsub hgone => exact h.of_put hsub rfl rfl
  | acted name a s s' new hsub hacts => exact h.of_put hsub hacts.name_eq hacts.handlers_eq
  | collected name s failed hclosing hsub hgone => exact fun x hx => h x (List.mem_of_mem_eraseP hx)
  | givenUp hclosing => exact fun _ hx => (nomatch hx)
  | _ => exact h

/-- At most one message is being served. -/
def AtMostOne (b : Broker β) : Prop := b.crew.countP Consumer.isServing ≤ 1

theorem Idle.atMostOne (h : b.Idle) : AtMostOne b := by
  have hnone : b.crew.countP Consumer.isServing = 0 := by
    rw [List.countP_eq_zero]
    intro c hc
    simp [h c hc]
  rw [AtMostOne, hnone]
  exact Nat.zero_le 1

theorem flatMap_due_eq_nil {cs : List (Consumer β)} (h : ∀ c ∈ cs, c.isServing = false) :
    cs.flatMap Consumer.due = [] :=
  List.flatMap_eq_nil_iff.2 fun c hc => Consumer.due_of_not_isServing (h c hc)

theorem Idle.due_eq_nil (h : b.Idle) : b.due = [] := flatMap_due_eq_nil h

/-- Where one consumer serves a message and at most one does, the others do not. -/
theorem not_isServing_of_countP {before after : List (Consumer β)} {c : Consumer β}
    (hcount : (before ++ c :: after).countP Consumer.isServing ≤ 1) (hc : c.isServing = true) :
    (∀ x ∈ before, x.isServing = false) ∧ ∀ x ∈ after, x.isServing = false := by
  rw [List.countP_append, List.countP_cons_of_pos hc] at hcount
  have hbefore : before.countP Consumer.isServing = 0 := by omega
  have hafter : after.countP Consumer.isServing = 0 := by omega
  exact ⟨fun x hx => Bool.eq_false_iff.2 (List.countP_eq_zero.1 hbefore x hx),
    fun x hx => Bool.eq_false_iff.2 (List.countP_eq_zero.1 hafter x hx)⟩

/-- Where the others serve nothing, all that is due and being served is with this one. -/
theorem due_of_crew {before after : List (Consumer β)} {c : Consumer β}
    (hcrew : b.crew = before ++ c :: after) (hbefore : ∀ x ∈ before, x.isServing = false)
    (hafter : ∀ x ∈ after, x.isServing = false) : b.due = c.due ∧ AtMostOne b := by
  have hnone : before.countP Consumer.isServing = 0 ∧ after.countP Consumer.isServing = 0 :=
    ⟨List.countP_eq_zero.2 fun x hx => Bool.eq_false_iff.1 (hbefore x hx),
      List.countP_eq_zero.2 fun x hx => Bool.eq_false_iff.1 (hafter x hx)⟩
  constructor
  · rw [due, hcrew, List.flatMap_append, List.flatMap_cons, flatMap_due_eq_nil hbefore,
      flatMap_due_eq_nil hafter, List.nil_append, List.append_nil]
  · rw [AtMostOne, hcrew, List.countP_append, hnone.1, List.countP_cons, hnone.2]
    split <;> omega

/-- **Where messages are served in turn, what a step delivers and what is due then was due before, or is the
message that is taken.** -/
theorem deliveriesIn_of_step (hstaffed : Staffed table b) (hone : AtMostOne b) (hstep : Step b m new b')
    (hturn : (b.taken? m).isSome = true → b.Idle) (hfail : m.fails = false) :
    deliveriesIn new ++ b'.due = b.due ++ (b.taken? m).toList.flatMap (fanout table) ∧ AtMostOne b' := by
  -- where nobody does anything the same is due
  have hsame : b'.due = b.due → deliveriesIn new = [] → b.taken? m = none →
      deliveriesIn new ++ b'.due = b.due ++ (b.taken? m).toList.flatMap (fanout table) := by
    intro hdue hnew htaken
    rw [hdue, hnew, htaken]
    exact (List.append_nil _).symm
  cases hstep.shift with
  | same hcrew hnew htaken =>
    exact ⟨hsame (by rw [due, due, hcrew]) hnew htaken, by rwa [AtMostOne, hcrew]⟩
  | hired before after hcrew hcrew' hnew htaken =>
    refine ⟨hsame (by simp [due, hcrew, hcrew', Consumer.due]) hnew htaken, ?_⟩
    rw [AtMostOne, hcrew] at hone
    rw [AtMostOne, hcrew']
    simpa [Consumer.isServing] using hone
  | dismissed before after failed hcrew hcrew' hnew htaken =>
    refine ⟨hsame (by simp [due, hcrew, hcrew', Consumer.due]) hnew htaken, ?_⟩
    rw [AtMostOne, hcrew] at hone
    rw [AtMostOne, hcrew']
    simpa [Consumer.isServing] using hone
  | acted before after s s' stopped a hmove hcrew hcrew' hacts htaken =>
    have hgiven : (b.taken? m).toList.flatMap (fanout table) = (s.taken? a).toList.flatMap s.given := by
      rcases hmove with ⟨-, hsub, -⟩ | ⟨-, rfl⟩
      · rw [htaken]
        cases s.taken? a with
        | none => rfl
        | some payload => simp [fanout, Subscription.given, hstaffed s (List.mem_of_find?_eq_some hsub)]
      · rw [htaken, hacts.taken?_eq_none]
        rfl
    have hnofail : a ≠ .fail := by
      rintro rfl
      rcases hmove with ⟨rfl, -⟩ | ⟨⟨i, rfl⟩, -⟩ <;> cases hfail
    have hmine := hacts.deliveries_eq hnofail
    rw [hgiven]
    by_cases hserving : s.consumer.isServing = true
    · -- the one that serves a message goes on with it
      rw [AtMostOne, hcrew] at hone
      obtain ⟨hbefore, hafter⟩ := not_isServing_of_countP hone hserving
      obtain ⟨hdue, -⟩ := due_of_crew hcrew hbefore hafter
      obtain ⟨hdue', hone'⟩ := due_of_crew hcrew' hbefore hafter
      exact ⟨by rw [hdue, hdue', hmine], hone'⟩
    · cases htake : s.taken? a with
      | some payload =>
        -- a message is taken, and nobody serves another
        have hidle : b.Idle := hturn (by rw [htaken, htake]; rfl)
        have hothers : (∀ x ∈ before, x.isServing = false) ∧ ∀ x ∈ after, x.isServing = false := by
          rw [Idle, hcrew] at hidle
          exact ⟨fun x hx => hidle x (List.mem_append_left _ hx),
            fun x hx => hidle x (List.mem_append_right _ (List.mem_cons_of_mem _ hx))⟩
        obtain ⟨hdue, -⟩ := due_of_crew hcrew hothers.1 hothers.2
        obtain ⟨hdue', hone'⟩ := due_of_crew hcrew' hothers.1 hothers.2
        exact ⟨by rw [hdue, hdue', hmine, htake], hone'⟩
      | none =>
        -- the consumer leaves, and the others are as they were
        have hidle := Bool.eq_false_iff.2 hserving
        rw [htake, Consumer.due_of_not_isServing hidle] at hmine
        obtain ⟨hnew, hdue'⟩ := List.append_eq_nil_iff.1 hmine
        have hleft : s'.consumer.isServing = false := by
          cases hacts with
          | took payload rest hconsumer hstopped hpending => simp [Subscription.taken?, hpending] at htake
          | handed payload current rest hconsumer => simp [hconsumer, Consumer.isServing] at hidle
          | _ => rfl
        refine ⟨?_, ?_⟩
        · rw [hnew, due, due, hcrew, hcrew']
          simp [hdue', Consumer.due_of_not_isServing hidle]
        · rw [AtMostOne, hcrew] at hone
          rw [AtMostOne, hcrew']
          simpa [hidle, hleft] using hone

/-- **In a run without registrations and failures in which messages are served in turn, every message that
is taken is given to the handlers of its subject**, and nothing else is delivered. -/
theorem deliveriesIn_of_moves? (hstaffed : Staffed table b) (hone : AtMostOne b)
    (hms : ∀ m ∈ ms, m.handler? = none ∧ m.fails = false) (hturn : b.InTurn ms)
    (hrun : takeAll? move? b ms = some (hs, b')) :
    deliveriesIn hs ++ b'.due = b.due ++ (b.takenIn ms).flatMap (fanout table) := by
  induction ms generalizing b hs with
  | nil =>
    cases hrun
    exact (List.append_nil _).symm
  | cons m ms ih =>
    obtain ⟨first, between, more, hfirst, hmore, rfl⟩ := exists_of_takeAll?_cons hrun
    obtain ⟨⟨hm, hfail⟩, hms⟩ := List.forall_mem_cons.1 hms
    have hstep := step_of_move? hfirst
    obtain ⟨hdue, hone'⟩ := deliveriesIn_of_step hstaffed hone hstep hturn.1 hfail
    rw [deliveriesIn_append, List.append_assoc,
      ih (hstaffed.step hstep hm) hone' hms (hturn.2 first between hfirst) hmore, ← List.append_assoc,
      hdue, takenIn, hfirst, List.flatMap_append, List.append_assoc]

/-- An event without handlers is given to nobody, whether its message is taken or not. -/
theorem flatMap_filter_fanout (table : List (Handler β)) (es : List Event) :
    ((es.filter fun e => filedUnder table e.name ≠ []).flatMap fun e => fanout table (message e)) =
      es.flatMap fun e => fanout table (message e) := by
  induction es with
  | nil => rfl
  | cons e es ih =>
    by_cases hnone : filedUnder table e.name = []
    · have hgiven : fanout table (message e) = [] := by
        rw [fanout, show (message e).1 = e.name from rfl, hnone]
        rfl
      rw [List.filter_cons_of_neg (by simpa using hnone), ih, List.flatMap_cons, hgiven]
      rfl
    · rw [List.filter_cons_of_pos (by simpa using hnone), List.flatMap_cons, List.flatMap_cons, ih]

/-! ## A run for any events -/

/-- The bus is connected, and every consumer waits for a message. -/
structure Quiet (b : Broker β) : Prop where
  connected : b.connected = true
  stopped : b.stopped = false
  closing : b.closing = .none
  alone : b.abandoned = []
  waiting : ∀ s ∈ b.subscriptions, s.consumer = .waiting ∧ s.pending = []

theorem Quiet.idle (h : Quiet b) : b.Idle := by
  intro c hc
  rw [crew, h.alone, List.append_nil] at hc
  obtain ⟨s, hs, rfl⟩ := List.mem_map.1 hc
  rw [(h.waiting s hs).1]
  rfl

theorem filed_of_connect {config : BrokerConfig} {start : Broker β}
    (h : connect true config = .ok start) : Filed [] start ∧ Quiet start := by
  cases h
  exact ⟨⟨List.nodup_nil, fun hs => (nomatch hs), fun hs => (nomatch hs), fun _ => rfl⟩,
    rfl, rfl, rfl, rfl, fun _ hs => (nomatch hs)⟩

theorem Quiet.exists_register (h : Quiet b) (k : Handler β) :
    ∃ new b', Step b (.register k) new b' ∧ Quiet b' := by
  cases hsub : b.subscription? k.name with
  | some s =>
    refine ⟨_, _, .joined k s h.closing hsub, h.connected, h.stopped, h.closing, h.alone, fun x hx => ?_⟩
    rcases mem_replaceIn hx with rfl | hx
    · exact h.waiting s (List.mem_of_find?_eq_some hsub)
    · exact h.waiting x hx
  | none =>
    refine ⟨_, _, .subscribed k h.closing hsub h.connected, h.connected, h.stopped, h.closing, h.alone,
      fun x hx => ?_⟩
    rcases List.mem_append.1 hx with hx | hx
    · exact h.waiting x hx
    · rw [List.mem_singleton.1 hx]
      exact ⟨rfl, rfl⟩

/-- A bus that was just connected takes any handlers. -/
theorem Quiet.exists_register_all (more : List (Handler β)) {table : List (Handler β)} {b : Broker β}
    (h : Quiet b) (hfiled : Filed table b) :
    ∃ hs b', takeAll? move? b (more.map .register) = some (hs, b') ∧ Quiet b' ∧
      Filed (table ++ more) b' := by
  induction more generalizing table b with
  | nil => exact ⟨[], b, rfl, h, (List.append_nil table).symm ▸ hfiled⟩
  | cons k more ih =>
    obtain ⟨new, between, hstep, hquiet⟩ := h.exists_register k
    obtain ⟨hs, b', hrun, hquiet', hfiled'⟩ := ih hquiet (hfiled.step hstep h.connected h.closing)
    refine ⟨new ++ hs, b', takeAll?_cons hstep.move?_eq hrun, hquiet', ?_⟩
    rwa [List.append_assoc] at hfiled'

theorem InTurn.append {ms' : List (Move β)} (h : b.InTurn ms)
    (hrun : takeAll? move? b ms = some (hs, b')) (h' : b'.InTurn ms') : b.InTurn (ms ++ ms') := by
  induction ms generalizing b hs with
  | nil =>
    cases hrun
    exact h'
  | cons m ms ih =>
    obtain ⟨first, between, more, hfirst, hmore, rfl⟩ := exists_of_takeAll?_cons hrun
    refine ⟨h.1, fun new c hmove => ?_⟩
    rw [hfirst] at hmove
    cases hmove
    exact ih (h.2 first between hfirst) hmore

/-- While handlers are only gone on with nothing is taken. -/
theorem taken_replicate_next (b : Broker β) (name : EventName) (n : Nat) :
    b.InTurn (List.replicate n (.act name .next)) ∧ b.takenIn (List.replicate n (.act name .next)) = [] := by
  have hnone : ∀ c : Broker β, c.taken? (.act name .next) = none := by
    intro c
    cases hsub : c.subscription? name with
    | none => rw [taken?, hsub]; rfl
    | some s => rw [taken?_act hsub]; rfl
  induction n generalizing b with
  | zero => exact ⟨trivial, rfl⟩
  | succ n ih =>
    rw [List.replicate_succ]
    refine ⟨⟨fun h => ?_, fun _ c _ => (ih c).1⟩, ?_⟩
    · rw [hnone] at h
      cases h
    · rw [takenIn, hnone]
      split
      · next c _ => exact (ih c).2
      · rfl

/-- A message that waits alone is taken and served, if nothing else is done. -/
theorem exists_serving {s : Subscription β} {payload : List UInt8} (hsub : b.subscription? name = some s)
    (hconsumer : s.consumer = .waiting) (hpending : s.pending = [payload]) (hstopped : b.stopped = false)
    (hidle : b.Idle) :
    ∃ ms hs, (∀ m ∈ ms, m.handler? = none ∧ m.fails = false) ∧
      takeAll? move? b ms = some (hs, b.put { s with pending := [] }) ∧
      arrivalsIn ms = [] ∧ b.InTurn ms ∧ b.takenIn ms = [(name, payload)] := by
  have hname : s.name = name := name_of_subscription? hsub
  let busy : Subscription β :=
    { s with pending := [], consumer := (Consumer.give payload s.handlers).2 }
  have htake : Step b (.act name .take) (Consumer.give payload s.handlers).1 (b.put busy) :=
    .acted name .take s busy _ hsub (.took payload [] hconsumer hstopped hpending)
  have hbusy : (b.put busy).subscription? name = some busy := subscription?_put_self hsub hname
  have hgoes : busy.consumer.isGone = false := by
    show (Consumer.give payload s.handlers).2.isGone = false
    cases s.handlers <;> rfl
  obtain ⟨n, new, hnexts, -⟩ := exists_finishing hbusy hgoes
  have hdone : (b.put busy).put { busy with consumer := .waiting } = b.put { s with pending := [] } := by
    have hsame : { busy with consumer := .waiting } = { s with pending := [] } := by
      rw [← hconsumer]
    rw [hsame]
    exact put_put rfl
  rw [hdone] at hnexts
  have htaken : b.taken? (.act name .take) = some (name, payload) := by
    rw [taken?_act hsub, Subscription.taken?, hpending]
    rfl
  obtain ⟨hturn, hnone⟩ := taken_replicate_next (b.put busy) name n
  refine ⟨.act name .take :: List.replicate n (.act name .next), _, ?_,
    takeAll?_cons htake.move?_eq hnexts, ?_, ⟨fun _ => hidle, fun new c hmove => ?_⟩, ?_⟩
  · intro m hm
    rcases List.mem_cons.1 hm with rfl | hm
    · exact ⟨rfl, rfl⟩
    · rw [List.eq_of_mem_replicate hm]
      exact ⟨rfl, rfl⟩
  · simp [arrivalsIn, Move.arrival?]
  · rw [htake.move?_eq] at hmove
    cases hmove
    exact hturn
  · rw [takenIn, htaken, htake.move?_eq]
    show [(name, payload)] ++ (b.put busy).takenIn _ = _
    rw [hnone]
    rfl

/-- A message that arrives at a quiet bus is served, if its subject has a consumer. -/
theorem Quiet.exists_carrying_one (h : Quiet b) (hfiled : Filed table b) (e : Event) :
    ∃ ms hs, (∀ m ∈ ms, m.handler? = none ∧ m.fails = false) ∧ takeAll? move? b ms = some (hs, b) ∧
      arrivalsIn ms = [message e] ∧ b.InTurn ms ∧
      b.takenIn ms = if filedUnder table e.name ≠ [] then [message e] else [] := by
  have hquiet : ∀ m ∈ [Move.arrive (β := β) e.name e.payloadBytes], m.handler? = none ∧ m.fails = false := by
    intro m hm
    rw [List.mem_singleton.1 hm]
    exact ⟨rfl, rfl⟩
  cases hsub : b.subscription? e.name with
  | none =>
    have hmiss : Step b (.arrive e.name e.payloadBytes) [.missed e.name] b :=
      .missed e.name e.payloadBytes fun s hs => absurd (hsub.symm.trans hs) nofun
    refine ⟨[.arrive e.name e.payloadBytes], _, hquiet, takeAll?_cons hmiss.move?_eq rfl, rfl,
      ⟨nofun, fun _ _ _ => trivial⟩, ?_⟩
    rw [hfiled.unfiled hsub, takenIn, hmiss.move?_eq]
    simp [taken?, takenIn]
  | some s =>
    obtain ⟨hconsumer, hpending⟩ := h.waiting s (List.mem_of_find?_eq_some hsub)
    have hname : s.name = e.name := name_of_subscription? hsub
    -- the message waits, is served, and the bus is as it was
    have harrive : Step b (.arrive e.name e.payloadBytes) [] (b.put (s.receive e.payloadBytes)) :=
      .arrived e.name e.payloadBytes s hsub (by rw [hconsumer]; rfl)
    have hfull : (b.put (s.receive e.payloadBytes)).subscription? e.name =
        some (s.receive e.payloadBytes) :=
      subscription?_put_self hsub ((s.receive_name _).trans hname)
    have hone : (s.receive e.payloadBytes).pending = [e.payloadBytes] := by
      rw [Subscription.receive, hpending]
      rfl
    have hidle : (b.put (s.receive e.payloadBytes)).Idle := by
      rw [Idle, crew_put hsub ((s.receive_name _).trans hname) rfl]
      exact h.idle
    obtain ⟨ms, hs, hms, hrun, harrivals, hturn, htaken⟩ :=
      exists_serving hfull hconsumer hone h.stopped hidle
    have hback : (b.put (s.receive e.payloadBytes)).put
        { s.receive e.payloadBytes with pending := [] } = b := by
      have hsame : { s.receive e.payloadBytes with pending := [] } = s := by
        rw [← hpending]
        rfl
      rw [hsame, put_put (s.receive_name _).symm]
      exact put_self (hname.symm ▸ hsub)
    rw [hback] at hrun
    refine ⟨.arrive e.name e.payloadBytes :: ms, _, ?_, takeAll?_cons harrive.move?_eq hrun, ?_,
      ⟨nofun, fun new c hmove => ?_⟩, ?_⟩
    · exact List.forall_mem_append.2 ⟨hquiet, hms⟩
    · rw [arrivalsIn, List.filterMap_cons, ← arrivalsIn, harrivals]
      rfl
    · rw [harrive.move?_eq] at hmove
      cases hmove
      exact hturn
    · rw [if_pos (hfiled.manned hsub), takenIn, harrive.move?_eq]
      exact htaken

/-- A quiet bus carries any events one after the other. -/
theorem Quiet.exists_carrying_all (h : Quiet b) (hfiled : Filed table b) (es : List Event) :
    ∃ ms hs, (∀ m ∈ ms, m.handler? = none ∧ m.fails = false) ∧ takeAll? move? b ms = some (hs, b) ∧
      arrivalsIn ms = es.map message ∧ b.InTurn ms ∧
      b.takenIn ms = (es.filter fun e => filedUnder table e.name ≠ []).map message := by
  induction es with
  | nil => exact ⟨[], [], fun _ hm => absurd hm List.not_mem_nil, rfl, rfl, trivial, rfl⟩
  | cons e es ih =>
    obtain ⟨ms, hs, hms, hrun, harrivals, hturn, htaken⟩ := h.exists_carrying_one hfiled e
    obtain ⟨ms', hs', hms', hrun', harrivals', hturn', htaken'⟩ := ih
    refine ⟨ms ++ ms', hs ++ hs', List.forall_mem_append.2 ⟨hms, hms'⟩,
      takeAll?_append hrun hrun', ?_, hturn.append hrun hturn', ?_⟩
    · rw [arrivalsIn, List.filterMap_append, ← arrivalsIn, ← arrivalsIn, harrivals, harrivals']
      rfl
    · rw [takenIn_append hrun, htaken, htaken', List.filter_cons]
      simp only [decide_eq_true_eq]
      split
      · rfl
      · rfl

theorem exists_delivers (config : BrokerConfig) (table : List (Handler β)) (es : List Event) :
    ∃ ds, Delivers config table es ds := by
  have hconnect : connect true config =
    .ok (⟨config, true, [], [], false, false, false, .none⟩ : Broker β) := rfl
  obtain ⟨hfiled, hquiet⟩ := filed_of_connect hconnect
  obtain ⟨before, b, hregister, hquiet, hfiled⟩ := hquiet.exists_register_all table hfiled
  obtain ⟨ms, hs, hms, hrun, harrivals, hturn, htaken⟩ := hquiet.exists_carrying_all hfiled es
  exact ⟨_, _, before, b, hconnect, (moves?_eq _ _).trans hregister, ms, hs, b, hms,
    (moves?_eq _ _).trans hrun, harrivals, htaken, hturn, hquiet.idle, rfl⟩

/-! ## Deliveries and events -/

/-- What a broker bus delivers is determined by its handlers and events. -/
theorem Delivers.eq {config : BrokerConfig} {es : List Event} {ds : List (Delivery β)}
    (h : Delivers config table es ds) :
    ds = es.flatMap fun e => fanout table (message e) := by
  obtain ⟨start, before, b, hconnect, hregister, ms, hs, b', hms, hrun, -, htaken, hturn, hidle, rfl⟩ := h
  have hready : Filed table b ∧ Quiet b := by
    obtain ⟨hfiled, hquiet⟩ := filed_of_connect hconnect
    obtain ⟨before', b₁, hregister', hquiet', hfiled'⟩ := hquiet.exists_register_all table hfiled
    rw [moves?_eq, hregister'] at hregister
    cases hregister
    exact ⟨hfiled', hquiet'⟩
  rw [moves?_eq] at hrun
  have hall := deliveriesIn_of_moves? hready.1.staffed hready.2.idle.atMostOne hms hturn hrun
  rw [hidle.due_eq_nil, hready.2.idle.due_eq_nil, List.append_nil, List.nil_append, htaken,
    List.flatMap_map] at hall
  exact hall.trans (flatMap_filter_fanout table es)

theorem delivers_iff {config : BrokerConfig} {es : List Event} {ds : List (Delivery β)} :
    Delivers config table es ds ↔ ds = es.flatMap fun e => fanout table (message e) := by
  refine ⟨Delivers.eq, ?_⟩
  rintro rfl
  obtain ⟨ds, hds⟩ := exists_delivers config table es
  exact hds.eq ▸ hds

end Broker

end TupleSync.Bus
