import TupleSync.Proofs.Bus.Service

/-!
# Messages that cannot be read

**A message that cannot be read leaves one warning for each handler of its subject, and nothing else.**
The run without it is made beside the run with it. As long as the message waits the two buses differ in
that message alone, and while it is served in that the consumer is at it. A move that is not one of the
consumer with this message does the same on both (`step_beside`); when the message has been served the two
buses are the same again.

The main statement puts this beside what becomes of every other message.
-/

set_option autoImplicit false

namespace TupleSync.Bus

open Handler (filedUnder)

/-- The third list consists of the others, each in its order. -/
inductive Merged {α : Type} : List α → List α → List α → Prop where
  | nil : Merged [] [] []
  | left (x : α) {xs ys zs : List α} (h : Merged xs ys zs) : Merged (x :: xs) ys (x :: zs)
  | right (y : α) {xs ys zs : List α} (h : Merged xs ys zs) : Merged xs (y :: ys) (y :: zs)

theorem Merged.nil_right {α : Type} (xs : List α) : Merged xs [] xs := by
  induction xs with
  | nil => exact .nil
  | cons x xs ih => exact .left x ih

theorem Merged.append_left {α : Type} {xs ys zs : List α} (front : List α) (h : Merged xs ys zs) :
    Merged (front ++ xs) ys (front ++ zs) := by
  induction front with
  | nil => exact h
  | cons x front ih => exact .left x ih

/-! ## One more message on a subscription -/

namespace Subscription

variable {β : Type} {s s₁ : Subscription β} {k : Nat} {payload : List UInt8} {a : Act}
  {new : List (BrokerHappening β)} {current : Handler β} {rest : List (Handler β)}

/-- The subscription with one more message, behind as many as are given. -/
def lodge (s : Subscription β) (k : Nat) (payload : List UInt8) : Subscription β :=
  { s with pending := s.pending.insertIdx k payload }

/-- The subscription with the consumer at a message. -/
def hold (s : Subscription β) (payload : List UInt8) (current : Handler β) (rest : List (Handler β)) :
    Subscription β :=
  { s with consumer := .serving payload current rest }

@[simp] theorem lodge_name (s : Subscription β) (k : Nat) (payload : List UInt8) :
    (s.lodge k payload).name = s.name := rfl

theorem insertIdx_concat {α : Type} (x y : α) {k : Nat} {xs : List α} (hk : k ≤ xs.length) :
    (xs ++ [y]).insertIdx k x = xs.insertIdx k x ++ [y] := by
  induction xs generalizing k with
  | nil =>
    obtain rfl : k = 0 := Nat.le_zero.1 hk
    rfl
  | cons z xs ih =>
    cases k with
    | zero => rfl
    | succ k =>
      rw [List.cons_append, List.insertIdx_succ_cons, List.insertIdx_succ_cons,
        ih (Nat.le_of_succ_le_succ hk), List.cons_append]

/-- **A consumer with one more message waiting takes that message, if it is the oldest, and otherwise does
what it does without.** A handler that fails takes the message along with the others. -/
theorem Acts.of_lodge (hk : k ≤ s.pending.length) (h : (s.lodge k payload).Acts false a new s₁) :
    (∃ j s', j ≤ s'.pending.length ∧ s.Acts false a new s' ∧ s₁ = s'.lodge j payload) ∨
      (a = .fail ∧ s.Acts false a new s₁) ∨
      (a = .take ∧ s.consumer = .waiting ∧ new = (Consumer.give payload s.handlers).1 ∧
        s₁ = { s with consumer := (Consumer.give payload s.handlers).2 }) := by
  cases h with
  | took first others hconsumer hstopped hpending =>
    cases k with
    | zero =>
      obtain ⟨rfl, rfl⟩ := List.cons.inj hpending
      exact Or.inr (Or.inr ⟨rfl, hconsumer, rfl, rfl⟩)
    | succ j =>
      cases hwaiting : s.pending with
      | nil =>
        rw [hwaiting] at hk
        cases hk
      | cons oldest more =>
        rw [hwaiting] at hk
        simp only [lodge, hwaiting, List.insertIdx_succ_cons] at hpending
        obtain ⟨rfl, rfl⟩ := List.cons.inj hpending
        exact Or.inl ⟨j, _, Nat.le_of_succ_le_succ hk, .took oldest more hconsumer rfl hwaiting, rfl⟩
  | handed message current rest hconsumer =>
    exact Or.inl ⟨k, { s with consumer := (Consumer.give message rest).2 }, hk,
      .handed message current rest hconsumer, rfl⟩
  | failed message current rest body e hconsumer hinvoked =>
    exact Or.inr (Or.inl ⟨rfl, .failed message current rest body e hconsumer hinvoked⟩)
  | cutOff hconsumer hstopped hpending =>
    have hlength := congrArg List.length hpending
    rw [lodge, List.length_insertIdx_of_le_length hk] at hlength
    cases hlength
  | left hconsumer hstopped => cases hstopped

/-- A consumer that is at a message which its handler does not take can only go on with it. -/
theorem Acts.of_hold (hbad : ∀ body e, current.givePayload payload ≠ .invoked body e)
    (h : (s.hold payload current rest).Acts false a new s₁) :
    a = .next ∧ new = (Consumer.give payload rest).1 ∧
      s₁ = { s with consumer := (Consumer.give payload rest).2 } := by
  cases h with
  | took first others hconsumer hstopped hpending => cases hconsumer
  | handed message current rest hconsumer =>
    cases hconsumer
    exact ⟨rfl, rfl, rfl⟩
  | failed message current rest body e hconsumer hinvoked =>
    cases hconsumer
    exact absurd hinvoked (hbad body e)
  | cutOff hconsumer hstopped hpending => cases hconsumer
  | left hconsumer hstopped => cases hconsumer

end Subscription

namespace Broker

variable {β : Type} {b b' c d : Broker β} {m : Move β} {ms past : List (Move β)}
  {hs new before : List (BrokerHappening β)} {config : BrokerConfig} {name : EventName}
  {payload : List UInt8} {s s₁ : Subscription β} {k : Nat}

/-! ## Two buses beside each other -/

/-- A relation between two subscriptions of a subject that stays when a handler joins both or a message
arrives at both. -/
structure Kept (R : Subscription β → Subscription β → Prop) : Prop where
  name_eq : ∀ {s₁ s}, R s₁ s → s₁.name = s.name
  isGone_eq : ∀ {s₁ s}, R s₁ s → s₁.consumer.isGone = s.consumer.isGone
  joining : ∀ {s₁ s}, R s₁ s → ∀ h : Handler β, R (s₁.join h) (s.join h)
  arriving : ∀ {s₁ s}, R s₁ s → ∀ payload : List UInt8, R (s₁.receive payload) (s.receive payload)

theorem replaceIn_append_of_ne {x : Subscription β} (hname : x.name ≠ s.name) (xs : List (Subscription β)) :
    s.replaceIn (xs ++ [x]) = s.replaceIn xs ++ [x] := by
  induction xs with
  | nil => simp [Subscription.replaceIn, hname]
  | cons y ys ih =>
    by_cases hy : y.name = s.name
    · simp [Subscription.replaceIn, hy]
    · simp [Subscription.replaceIn, hy, ih]

/-- **A step of a bus with another subscription in the place of one is a step of the bus without it**, but
for what the consumer of this subscription does. -/
theorem step_beside {R : Subscription β → Subscription β → Prop} (hR : Kept R)
    (hsub : c.subscription? name = some s) (h : R s₁ s) (hcall : c.closing = .none)
    (halone : c.abandoned = []) (hstep : Step (c.put s₁) m new d) (hlive : d.stopped = false) :
    (∃ c' s' s₁', Step c m new c' ∧ c'.subscription? name = some s' ∧ R s₁' s' ∧ d = c'.put s₁') ∨
      ∃ a s₁', m = .act name a ∧ s₁.Acts false a new s₁' ∧ d = c.put s₁' := by
  have hname : s₁.name = name := (hR.name_eq h).trans (name_of_subscription? hsub)
  have hfind := subscription?_put hsub hname
  -- a change elsewhere can be made before the exchange
  have helse : ∀ {other : EventName} {x : Subscription β} (y : Subscription β), other ≠ name →
      c.subscription? other = some x → y.name = other → Step c m new (c.put y) →
      d = (c.put s₁).put y →
      ∃ c' s' s₁', Step c m new c' ∧ c'.subscription? name = some s' ∧ R s₁' s' ∧ d = c'.put s₁' := by
    intro other x y hother hx hy hstep' hd
    refine ⟨c.put y, s, s₁, hstep', ?_, h, hd.trans (put_comm ?_)⟩
    · rw [subscription?_put hx hy, if_neg hother.symm, hsub]
    · rw [hy, hname]
      exact hother
  cases hstep with
  | joined k x _ hx =>
    rw [hfind] at hx
    by_cases hk : k.name = name
    · rw [if_pos hk] at hx
      cases hx
      have hsubject : (s.join k).name = name := (s.join_name k).trans (name_of_subscription? hsub)
      refine Or.inl ⟨_, s.join k, s₁.join k, .joined k s hcall (hk ▸ hsub),
        subscription?_put_self hsub hsubject, hR.joining h k, ?_⟩
      rw [put_put (s₁.join_name k), put_put (hR.name_eq (hR.joining h k))]
    · rw [if_neg hk] at hx
      have hother : (x.join k).name = k.name := (x.join_name k).trans (name_of_subscription? hx)
      exact Or.inl (helse _ hk hx hother (.joined k x hcall hx) rfl)
  | subscribed k _ hx hconn =>
    rw [hfind] at hx
    split at hx
    · cases hx
    · next hk =>
      refine Or.inl ⟨_, s, s₁, .subscribed k hcall hx hconn, ?_, h, ?_⟩
      · rw [subscription?_append, hsub]
        rfl
      · have hother : (Subscription.opened k).name ≠ s₁.name := fun hx => hk (hx.trans hname)
        simp only [put, replaceIn_append_of_ne hother]
  | registerRefused k _ hx hconn =>
    rw [hfind] at hx
    split at hx
    · cases hx
    · exact Or.inl ⟨c, s, s₁, .registerRefused k hcall hx hconn, hsub, h, rfl⟩
  | refused k _ hx hconn =>
    rw [hfind] at hx
    split at hx
    · cases hx
    · exact Or.inl ⟨c, s, s₁, .refused k hcall hx hconn, hsub, h, rfl⟩
  | pushed e _ => exact Or.inl ⟨c, s, s₁, .pushed e hcall, hsub, h, rfl⟩
  | running _ hforwarding =>
    rw [length_put]
    exact Or.inl ⟨{ c with forwarding := true }, s, s₁, .running hcall hforwarding, hsub, h, rfl⟩
  | runRefused _ hforwarding => exact Or.inl ⟨c, s, s₁, .runRefused hcall hforwarding, hsub, h, rfl⟩
  | signalled => exact Or.inl ⟨{ c with signalled := true }, s, s₁, .signalled, hsub, h, rfl⟩
  | forwarded hforwarding hsignalled => cases hlive
  | arrived other message x hx hgone =>
    rw [hfind] at hx
    by_cases hother : other = name
    · subst hother
      rw [if_pos rfl] at hx
      cases hx
      have hsubject : (s.receive message).name = other :=
        (s.receive_name message).trans (name_of_subscription? hsub)
      refine Or.inl ⟨_, s.receive message, s₁.receive message,
        .arrived other message s hsub ((hR.isGone_eq h).symm.trans hgone),
        subscription?_put_self hsub hsubject, hR.arriving h message, ?_⟩
      rw [put_put (s₁.receive_name message), put_put (hR.name_eq (hR.arriving h message))]
    · rw [if_neg hother] at hx
      have hsubject : (x.receive message).name = other :=
        (x.receive_name message).trans (name_of_subscription? hx)
      exact Or.inl (helse _ hother hx hsubject (.arrived other message x hx hgone) rfl)
  | missed other message hx =>
    refine Or.inl ⟨c, s, s₁, .missed other message fun x hfound => ?_, hsub, h, rfl⟩
    by_cases hother : other = name
    · subst hother
      rw [hsub] at hfound
      cases hfound
      exact (hR.isGone_eq h).symm.trans (hx s₁ ((hfind other).trans (if_pos rfl)))
    · exact hx x ((hfind other).trans ((if_neg hother).trans hfound))
  | acted other a x x' new hx hacts =>
    rw [hfind] at hx
    by_cases hother : other = name
    · subst hother
      rw [if_pos rfl] at hx
      cases hx
      rw [show (c.put s₁).stopped = false from hlive] at hacts
      exact Or.inr ⟨a, x', rfl, hacts, put_put hacts.name_eq⟩
    · rw [if_neg hother] at hx
      exact Or.inl (helse x' hother hx (hacts.name_eq.trans (name_of_subscription? hx))
        (.acted other a x x' new hx hacts) rfl)
  | straggled i a x x' new hx hacts =>
    rw [show (c.put s₁).abandoned = [] from halone] at hx
    cases hx
  | shutdownAsked _ => cases hlive
  | collected other x failed hclosing hx hgone =>
    rw [show (c.put s₁).closing = .none from hcall] at hclosing
    cases hclosing
  | disconnected hclosing hx =>
    rw [show (c.put s₁).closing = .none from hcall] at hclosing
    cases hclosing
  | returned hclosing =>
    rw [show (c.put s₁).closing = .none from hcall] at hclosing
    cases hclosing
  | givenUp hclosing => simp [show (c.put s₁).closing = .none from hcall] at hclosing

/-! ## While the message waits -/

theorem kept_lodge (payload : List UInt8) : Kept fun s₁ s : Subscription β =>
    ∃ k, k ≤ s.pending.length ∧ s₁ = s.lodge k payload where
  name_eq := by
    rintro s₁ s ⟨k, hk, rfl⟩
    rfl
  isGone_eq := by
    rintro s₁ s ⟨k, hk, rfl⟩
    rfl
  joining := by
    rintro s₁ s ⟨k, hk, rfl⟩ h
    exact ⟨k, hk, rfl⟩
  arriving := by
    rintro s₁ s ⟨k, hk, rfl⟩ message
    refine ⟨k, ?_, ?_⟩
    · rw [Subscription.receive, List.length_append]
      exact hk.trans (Nat.le_add_right _ _)
    · simp only [Subscription.receive, Subscription.lodge, Subscription.insertIdx_concat _ _ hk]

/-- What becomes of a message that waits on a subject, in a run beside the run without it. -/
inductive Lodged (name : EventName) (payload : List UInt8) (past : List (Move β)) (c : Broker β) :
    List (Move β) → List (BrokerHappening β) → Broker β → Prop where
  /-- It still waits. -/
  | waiting {ms : List (Move β)} {hs : List (BrokerHappening β)} {c' : Broker β} {s : Subscription β}
      {k : Nat} (hrun : takeAll? move? c ms = some (hs, c')) (hsub : c'.subscription? name = some s)
      (hk : k ≤ s.pending.length) : Lodged name payload past c ms hs (c'.put (s.lodge k payload))
  /-- It was lost with the consumer. -/
  | lost {ms : List (Move β)} {hs : List (BrokerHappening β)} {c' : Broker β}
      (hbroken : ¬ Unbroken name ms) (hrun : takeAll? move? c ms = some (hs, c')) :
    Lodged name payload past c ms hs c'
  /-- It was taken, and the first handler got it. -/
  | taken {early late : List (Move β)} {hs₁ hs₂ : List (BrokerHappening β)} {c' d : Broker β}
      {s : Subscription β} {first : Handler β} {others : List (Handler β)}
      (hearly : takeAll? move? c early = some (hs₁, c')) (hsub : c'.subscription? name = some s)
      (hwaiting : s.consumer = .waiting)
      (hfiled : filedUnder (registeredIn (past ++ early)) name = first :: others)
      (hlate : takeAll? move? (c'.put (s.hold payload first others)) late = some (hs₂, d)) :
    Lodged name payload past c (early ++ .act name .take :: late)
      (hs₁ ++ .delivered (first.givePayload payload) :: hs₂) d

/-- What becomes of the message from the next move on becomes of it from this move on. -/
theorem Lodged.cons {c' : Broker β} (hmove : c.move? m = some (new, c'))
    (h : Lodged name payload (past ++ [m]) c' ms hs d) :
    Lodged name payload past c (m :: ms) (new ++ hs) d := by
  cases h with
  | waiting hrun hsub hk => exact .waiting (takeAll?_cons hmove hrun) hsub hk
  | lost hbroken hrun =>
    refine .lost (fun hwhole => hbroken ?_) (takeAll?_cons hmove hrun)
    rw [← List.singleton_append] at hwhole
    exact hwhole.of_append.2
  | taken hearly hsub hwaiting hfiled hlate =>
    rw [List.append_assoc] at hfiled
    rw [← List.append_assoc, ← List.cons_append]
    exact .taken (takeAll?_cons hmove hearly) hsub hwaiting hfiled hlate

/-- **A run with the message waiting is a run without it** as long as the message waits; a handler that
fails may take it along, and otherwise one move takes it, and its handlers get it. -/
theorem Live.lodged (h : Live config past before c) (hsub : c.subscription? name = some s)
    (hk : k ≤ s.pending.length) (hrun : takeAll? move? (c.put (s.lodge k payload)) ms = some (hs, d))
    (hlive : d.stopped = false) : Lodged name payload past c ms hs d := by
  induction ms generalizing c s k past before hs with
  | nil =>
    cases hrun
    exact .waiting rfl hsub hk
  | cons m ms ih =>
    obtain ⟨first, between, more, hfirst, hmore, rfl⟩ := exists_of_takeAll?_cons hrun
    have hbetween := stopped_of_run hmore hlive
    rcases step_beside (kept_lodge payload) hsub ⟨k, hk, rfl⟩ h.closing h.alone (step_of_move? hfirst)
      hbetween with ⟨c', s', _, hstep, hsub', ⟨j, hj, rfl⟩, rfl⟩ | ⟨a, s₁, rfl, hacts, rfl⟩
    · exact .cons hstep.move?_eq (ih (h.step hstep hbetween) hsub' hj hmore)
    · have hname : ∀ {s' : Subscription β} {new : List (BrokerHappening β)}, s.Acts false a new s' →
          s'.name = name := fun hacts => hacts.name_eq.trans (name_of_subscription? hsub)
      have hact : ∀ {s' : Subscription β}, s.Acts false a first s' →
          Step c (.act name a) first (c.put s') := by
        intro s' hacts
        rw [← show c.stopped = false from hbetween] at hacts
        exact .acted name a s s' first hsub hacts
      rcases hacts.of_lodge hk with ⟨j, s', hj, hacts', rfl⟩ | ⟨rfl, hacts'⟩ | ⟨rfl, hwaiting, rfl, rfl⟩
      · -- the consumer does what it does without the message
        have hstep := hact hacts'
        rw [← put_put (s'.lodge_name j payload)] at hmore
        exact .cons hstep.move?_eq
          (ih (h.step hstep hbetween) (subscription?_put_self hsub (hname hacts')) hj hmore)
      · -- a handler of another message fails, and nothing is left of this one
        exact .lost (fun hwhole => hwhole.1 List.mem_cons_self) (takeAll?_cons (hact hacts').move?_eq hmore)
      · -- the message is taken
        obtain ⟨one, others, hfiled⟩ := List.exists_cons_of_ne_nil (h.filed.manned hsub)
        have hgive : Consumer.give payload s.handlers =
            ([.delivered (one.givePayload payload)], .serving payload one others) := by
          rw [h.filed.handlers hsub, hfiled]
          rfl
        rw [hgive] at hmore ⊢
        rw [← List.append_nil past] at hfiled
        exact .taken (s := s) rfl hsub hwaiting hfiled hmore

/-! ## While the message is served -/

theorem kept_hold (payload : List UInt8) (current : Handler β) (rest : List (Handler β)) :
    Kept fun s₁ s : Subscription β => s.consumer = .waiting ∧ s₁ = s.hold payload current rest where
  name_eq := by
    rintro s₁ s ⟨hwaiting, rfl⟩
    rfl
  isGone_eq := by
    rintro s₁ s ⟨hwaiting, rfl⟩
    rw [hwaiting]
    rfl
  joining := by
    rintro s₁ s ⟨hwaiting, rfl⟩ h
    exact ⟨hwaiting, rfl⟩
  arriving := by
    rintro s₁ s ⟨hwaiting, rfl⟩ message
    exact ⟨hwaiting, rfl⟩

/-- What happens when a handler drops a message that it cannot read. -/
def unread (name : EventName) (f : Json.Fault) (payload : List UInt8) : BrokerHappening β :=
  .delivered (.undecodable name f payload.length)

/-- What becomes of a message that is served and cannot be read, in a run beside the run without it: so many
handlers are still to get it. -/
inductive Held (name : EventName) (payload : List UInt8) (f : Json.Fault) (c : Broker β) (count : Nat)
    (ms : List (Move β)) (hs : List (BrokerHappening β)) : Broker β → Prop where
  /-- Some of them are still to get it. -/
  | serving {ms' : List (Move β)} {hs' : List (BrokerHappening β)} {c' : Broker β} {s : Subscription β}
      {current : Handler β} {left : List (Handler β)} {n : Nat}
      (hrun : takeAll? move? c ms' = some (hs', c')) (hcount : count = n + left.length)
      (hmoves : Merged ms' (List.replicate n (.act name .next)) ms)
      (hwarned : Merged hs' (List.replicate n (unread name f payload)) hs)
      (hsub : c'.subscription? name = some s) (hwaiting : s.consumer = .waiting) :
    Held name payload f c count ms hs (c'.put (s.hold payload current left))
  /-- It was served. -/
  | served {ms' : List (Move β)} {hs' : List (BrokerHappening β)} {c' : Broker β}
      (hrun : takeAll? move? c ms' = some (hs', c'))
      (hmoves : Merged ms' (List.replicate (count + 1) (.act name .next)) ms)
      (hwarned : Merged hs' (List.replicate count (unread name f payload)) hs) :
    Held name payload f c count ms hs c'

theorem Held.cons {f : Json.Fault} {count : Nat} {c' : Broker β} (hmove : c.move? m = some (new, c'))
    (h : Held name payload f c' count ms hs d) : Held name payload f c count (m :: ms) (new ++ hs) d := by
  cases h with
  | serving hrun hcount hmoves hwarned hsub hwaiting =>
    exact .serving (takeAll?_cons hmove hrun) hcount (.left m hmoves) (hwarned.append_left new) hsub hwaiting
  | served hrun hmoves hwarned =>
    exact .served (takeAll?_cons hmove hrun) (.left m hmoves) (hwarned.append_left new)

/-- The next handler gets the message. -/
theorem Held.next {f : Json.Fault} {count : Nat} (h : Held name payload f c count ms hs d) :
    Held name payload f c (count + 1) (.act name .next :: ms) (unread name f payload :: hs) d := by
  cases h with
  | @serving ms' hs' c' s current left n hrun hcount hmoves hwarned hsub hwaiting =>
    have hcount' : count + 1 = n + 1 + left.length := by omega
    exact .serving hrun hcount' (.right _ hmoves) (.right _ hwarned) hsub hwaiting
  | served hrun hmoves hwarned => exact .served hrun (.right _ hmoves) (.right _ hwarned)

/-- **A run with the consumer at a message that cannot be read is a run without it**, but for the moves that
go on with it and the warnings they leave. -/
theorem Live.held {current : Handler β} {rest : List (Handler β)} {f : Json.Fault}
    (h : Live config past before c) (hsub : c.subscription? name = some s)
    (hwaiting : s.consumer = .waiting)
    (hbad : ∀ k ∈ current :: rest, k.givePayload payload = .undecodable name f payload.length)
    (hrun : takeAll? move? (c.put (s.hold payload current rest)) ms = some (hs, d))
    (hlive : d.stopped = false) : Held name payload f c rest.length ms hs d := by
  induction ms generalizing c s current rest past before hs with
  | nil =>
    cases hrun
    exact .serving rfl (Nat.zero_add _).symm .nil .nil hsub hwaiting
  | cons m ms ih =>
    obtain ⟨first, between, more, hfirst, hmore, rfl⟩ := exists_of_takeAll?_cons hrun
    have hbetween := stopped_of_run hmore hlive
    rcases step_beside (kept_hold payload current rest) hsub ⟨hwaiting, rfl⟩ h.closing h.alone
      (step_of_move? hfirst) hbetween with
      ⟨c', s', _, hstep, hsub', ⟨hwaiting', rfl⟩, rfl⟩ | ⟨a, s₁, rfl, hacts, rfl⟩
    · exact .cons hstep.move?_eq (ih (h.step hstep hbetween) hsub' hwaiting' hbad hmore)
    · obtain ⟨hcurrent, hrest⟩ := List.forall_mem_cons.1 hbad
      obtain ⟨rfl, rfl, rfl⟩ := hacts.of_hold fun body e => by
        rw [hcurrent]
        nofun
      cases rest with
      | nil =>
        -- the consumer waits again, and the buses are the same
        have hsame : { s with consumer := (Consumer.give payload []).2 } = s := by
          rw [show (Consumer.give payload ([] : List (Handler β))).2 = .waiting from rfl, ← hwaiting]
        rw [hsame, put_self ((name_of_subscription? hsub).symm ▸ hsub)] at hmore
        exact .served hmore (.right _ (.nil_right ms)) (.nil_right more)
      | cons k rest =>
        have hgiven : (Consumer.give payload (k :: rest)).1 = [unread name f payload] := by
          rw [Consumer.give, (List.forall_mem_cons.1 hrest).1]
          rfl
        rw [hgiven]
        exact (ih h hsub hwaiting hrest hmore).next

/-! ## Whole runs -/

/-- A run in which a message that cannot be read arrives after these moves, beside a run that is the same
but for this message. -/
inductive Spared (start : Broker β) (before : List (Move β)) (name : EventName) (payload : List UInt8)
    (f : Json.Fault) : List (Move β) → List (BrokerHappening β) → Broker β → Prop where
  /-- Its subject had no handler, or its consumer was over. -/
  | missed {after : List (Move β)} {hs₁ hs₂ : List (BrokerHappening β)} {c b : Broker β}
      (hname : name ∉ subjectsIn before ∨ ¬ Unbroken name before)
      (hbefore : start.moves? before = some (hs₁, c)) (hafter : c.moves? after = some (hs₂, b)) :
    Spared start before name payload f after (hs₁ ++ .missed name :: hs₂) b
  /-- It still waits for its turn. -/
  | waiting {after : List (Move β)} {hs : List (BrokerHappening β)} {c : Broker β} {s : Subscription β}
      {k : Nat} (hname : name ∈ subjectsIn before)
      (hrun : start.moves? (before ++ after) = some (hs, c)) (hsub : c.subscription? name = some s)
      (hk : k ≤ s.pending.length) :
    Spared start before name payload f after hs (c.put (s.lodge k payload))
  /-- It was lost with the consumer of its subject. -/
  | lost {after : List (Move β)} {hs : List (BrokerHappening β)} {b : Broker β}
      (hname : name ∈ subjectsIn before) (hbroken : ¬ Unbroken name after)
      (hrun : start.moves? (before ++ after) = some (hs, b)) :
    Spared start before name payload f after hs b
  /-- It was taken, and the handlers of its subject drop it with a warning, one after the other. -/
  | served {early late : List (Move β)} {hs₁ hs₂ : List (BrokerHappening β)} {c b : Broker β} {n : Nat}
      (hname : name ∈ subjectsIn before) (hearly : start.moves? (before ++ early) = some (hs₁, c))
      (hcount : (filedUnder (registeredIn (before ++ early)) name).length = n + 1)
      (hlate : Held name payload f c n late hs₂ b) :
    Spared start before name payload f (early ++ .act name .take :: late)
      (hs₁ ++ unread name f payload :: hs₂) b

/-- **Every run with a message that cannot be read is so.** -/
theorem spared {start : Broker β} (hconnect : connect true config = .ok start)
    {before after : List (Move β)} {f : Json.Fault}
    (hrun : start.moves? (before ++ .arrive name payload :: after) = some (hs, b))
    (hlive : b.stopped = false) (hbad : Event.ofPayload name payload = .error f) :
    Spared start before name payload f after hs b := by
  rw [moves?_eq] at hrun
  obtain ⟨hs₁, c, more, hbefore, hmore, rfl⟩ := exists_of_takeAll?_append hrun
  obtain ⟨new, next, hs₂, harrive, hafter, rfl⟩ := exists_of_takeAll?_cons hmore
  have hnext := stopped_of_run hafter hlive
  have hstep := step_of_move? harrive
  have hc : Live config before hs₁ c :=
    (Live.of_connect hconnect).run hbefore (stopped_of_step hstep hnext)
  cases hstep with
  | missed _ _ hsub =>
    refine .missed ?_ ((moves?_eq _ _).trans hbefore) ((moves?_eq _ _).trans hafter)
    by_contra hnot
    obtain ⟨hname, hwhole⟩ := not_or.1 hnot
    obtain ⟨s, hs⟩ := hc.exists_subscription_iff.2 (not_not.1 hname)
    cases (hc.there hs (not_not.1 hwhole)).symm.trans (hsub s hs)
  | arrived _ _ s hsub hgone =>
    have hname : name ∈ subjectsIn before := hc.exists_subscription_iff.1 ⟨s, hsub⟩
    have hlodge : s.receive payload = s.lodge s.pending.length payload := by
      rw [Subscription.receive, Subscription.lodge, List.insertIdx_length_self]
    rw [hlodge] at hafter
    cases hc.lodged hsub le_rfl hafter hlive with
    | waiting hrest hsub' hk =>
      exact .waiting hname ((moves?_eq _ _).trans (takeAll?_append hbefore hrest)) hsub' hk
    | lost hbroken hrest =>
      exact .lost hname hbroken ((moves?_eq _ _).trans (takeAll?_append hbefore hrest))
    | @taken early late hs₃ hs₄ c' _ s' first others hearly hsub' hwaiting hfiled hlate =>
      have hunread : ∀ k ∈ first :: others, k.givePayload payload = .undecodable name f payload.length := by
        intro k hk
        rw [← hfiled] at hk
        have hkname : k.name = name := of_decide_eq_true (List.mem_filter.1 hk).2
        rw [Handler.givePayload, hkname, hbad]
      have hbegun := takeAll?_append hbefore hearly
      have hstopped := stopped_of_run hlate hlive
      have hc' : Live config (before ++ early) (hs₁ ++ hs₃) c' :=
        (Live.of_connect hconnect).run hbegun hstopped
      rw [List.nil_append, ← List.append_assoc, (List.forall_mem_cons.1 hunread).1]
      exact .served hname ((moves?_eq _ _).trans hbegun) (by rw [hfiled, List.length_cons])
        (hc'.held hsub' hwaiting hunread hlate hlive)

/-- **A broker bus serves each subject on its own.** After any run of a bus that was just connected and
whose stop has not fired:
one subscription was opened for each name that handlers were registered under, in the group of the bus and
by the first of them, and a handler that is registered next opens the subscription of its name or joins
it, where the broker can refuse only to open one;
and for each subject whose consumer neither lost the connection nor failed with a handler, what was taken
from it and what waits there is what arrived since it has a handler, in order; what its handlers were given
and are due to get is what was handed out, each message that was taken, in order, to those that were
registered by then, each once and in the order of registration; and what is being served can be served to
its end, and the next message then be taken if one waits.
A consumer takes a message exactly if it serves none and one waits, and then the oldest. A handler of the
subject is invoked if the message can be read, and warns otherwise; only where a message is taken or gone on
with is a handler given anything; and a message that cannot be read adds its warnings to the run and
nothing else. -/
theorem serves_each_subject {start : Broker β} (hconnect : connect true config = .ok start)
    (hrun : start.moves? ms = some (hs, b)) (hlive : b.stopped = false) :
    (openedIn hs = (subjectsIn ms).map (fun name => (name, config.queueGroup)) ∧
      b.subscriptions.map (fun s => s.name) = subjectsIn ms ∧
      ∀ h : Handler β, (∃ b', b.register h = .ok (if h.name ∈ subjectsIn ms then .joined h.name
        else .subscribed h.name config.queueGroup, b')) ∧
        b.registerIf false h =
          if h.name ∈ subjectsIn ms then b.register h else .error (.subscriptionRefused h.name)) ∧
    (∀ name, Unbroken name ms →
      onSubject name (start.takenIn ms) ++ b.pendingOn name = onSubject name (heardIn [] ms) ∧
      deliveriesOn name hs ++ b.dueOn name = start.handedOn name [] ms ∧
      (name ∈ subjectsIn ms → ∃ n new b',
        b.moves? (List.replicate n (.act name .next)) = some (new, b') ∧
        deliveriesIn new = b.dueOn name ∧ b'.pendingOn name = b.pendingOn name ∧
        (b.pendingOn name ≠ [] → ∃ r, b'.move? (.act name .take) = some r))) ∧
    (∀ name new b', b.move? (.act name .take) = some (new, b') ↔ ∃ s payload rest first others,
      b.subscription? name = some s ∧ s.consumer = .waiting ∧ s.pending = payload :: rest ∧
        filedUnder (registeredIn ms) name = first :: others ∧
        new = [.delivered (first.givePayload payload)] ∧
        b' = b.put { s with pending := rest, consumer := .serving payload first others }) ∧
    (∀ name payload f, Event.ofPayload name payload = .error f →
      ((handOut (registeredIn ms) name payload).map .delivered).filterMap BrokerHappening.record? =
        (filedUnder (registeredIn ms) name).map fun _ => warning name payload) ∧
    (∀ m new b', b.move? m = some (new, b') →
      (∀ name, m ≠ .act name .take ∧ m ≠ .act name .next) → deliveriesIn new = []) ∧
    (∀ before after name payload f, ms = before ++ .arrive name payload :: after →
      Event.ofPayload name payload = .error f → Spared start before name payload f after hs b) := by
  have hrun' := (moves?_eq _ _).symm.trans hrun
  have hstart := Live.of_connect hconnect
  have h : Live config ms hs b := hstart.run hrun' hlive
  refine ⟨⟨h.opened, h.names, h.registerIf⟩, ?_, ?_, ?_, ?_, ?_⟩
  · intro name hwhole
    refine ⟨onSubject_takenIn hconnect hrun hlive name hwhole, ?_,
      fun hname => h.exists_serving_on hlive hname hwhole⟩
    have hall := hstart.deliveriesOn_of_run hrun' hlive hwhole
    have hnone : start.dueOn name = [] := by
      cases hconnect
      rfl
    rwa [hnone, List.nil_append] at hall
  · intro name new b'
    exact h.take_iff hlive
  · intro name payload f hbad
    exact records_handOut _ hbad
  · intro m new b' hmove hm
    exact deliveriesIn_eq_nil (step_of_move? hmove) hm h.alone
  · rintro before after name payload f rfl hbad
    exact spared hconnect hrun hlive hbad

/-- The message of a deletion arrives behind one that is no text, a handler joins in between, another joins
while the first message is served, and both are served to the end. -/
def mixed : List (Move Nat) :=
  [.register (.of (.delete .user) 1), .arrive (.delete .user) [255],
    .register (.of (.delete .user) 2), .refuse (.of (.create .user) 3),
    .register (.of (.create .user) 3),
    .arrive (.delete .user) (Event.payloadBytes (.deleted .user 7)),
    .act (.delete .user) .take, .register (.of (.delete .user) 4), .act (.delete .user) .next,
    .act (.delete .user) .next, .act (.delete .user) .take, .act (.delete .user) .next]

/-- In that run two subscriptions are opened, both messages are taken, of the second one handler is still to
get it, and the first might as well not have arrived. -/
theorem serves_each_subject_mixed :
    ∃ start hs b, connect true .default = .ok start ∧ start.moves? mixed = some (hs, b) ∧
      b.stopped = false ∧
      openedIn hs = [(.delete .user, "heureka-core"), (.create .user, "heureka-core")] ∧
      onSubject (.delete .user) (start.takenIn mixed) ++ b.pendingOn (.delete .user) =
        [[255], Event.payloadBytes (.deleted .user 7)] ∧
      deliveriesOn (.delete .user) hs ++ b.dueOn (.delete .user) =
        [.undecodable (.delete .user) .malformed 1, .undecodable (.delete .user) .malformed 1,
          .invoked 1 (.deleted .user 7), .invoked 2 (.deleted .user 7), .invoked 4 (.deleted .user 7)] ∧
      Spared start [.register (.of (.delete .user) 1)] (.delete .user) [255] .malformed
        (mixed.drop 2) hs b := by
  refine ⟨_, _, _, rfl, rfl, rfl, ?_⟩
  obtain ⟨⟨hopened, -⟩, hsubjects, -, -, -, hspared⟩ :=
    @serves_each_subject Nat _ mixed _ .default _ rfl rfl rfl
  obtain ⟨hheard, hgiven, -⟩ := hsubjects (.delete .user) (by simp [Unbroken, mixed])
  have hbad : Event.ofPayload (.delete .user) [255] = .error .malformed := by decide +kernel
  have hread : Event.ofPayload (.delete .user) (Event.payloadBytes (.deleted .user 7)) =
      .ok (.deleted .user 7) := Event.ofPayload_payloadBytes (.deleted .user 7)
  refine ⟨hopened.trans ?_, hheard.trans ?_, hgiven.trans ?_, hspared _ _ _ _ _ rfl hbad⟩
  · decide
  · rfl
  · have htaken : Broker.handedOn ⟨.default, true, [], [], false, false, false, .none⟩ (.delete .user) []
        mixed =
        handOut ((registeredIn mixed).take 3) (.delete .user) [255] ++ [] ++
          (handOut (registeredIn mixed) (.delete .user) (Event.payloadBytes (.deleted .user 7)) ++ [] ++
            []) := rfl
    rw [htaken, handOut, hbad, handOut, hread]
    rfl

end Broker

end TupleSync.Bus
