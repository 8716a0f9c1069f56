import TupleSync.Proofs.Bus.Isolation

/-!
# What a broker bus accepts

**A broker bus takes handlers until it has given up its connection, and runs whenever no forwarder waits;
whether its stop has fired it asks neither time.** While the stop has not fired a handler that is taken is
served, unless its consumer is lost, and after that no message is taken for it. The two do not meet: between
the signal and the shutdown a handler is taken that nothing will ever reach, and after the shutdown the bus
runs again without a consumer.
-/

set_option autoImplicit false

namespace TupleSync.Bus

open Handler (filedUnder)

namespace Broker

variable {β : Type} {b b' : Broker β} {m : Move β} {ms : List (Move β)}
  {hs new : List (BrokerHappening β)} {config : BrokerConfig}

/-! ## What a past says of a bus -/

/-- The moves that fire the stop. -/
def Move.fires : Move β → Bool
  | .forward => true
  | .shutdown => true
  | _ => false

/-- The moves that touch neither the stop, nor a forwarder, nor the connection. -/
def Move.isQuiet : Move β → Bool
  | .run => false
  | .forward => false
  | .shutdown => false
  | .disconnect => false
  | _ => true

theorem Move.of_isQuiet (h : m.isQuiet = true) : m.fires = false ∧ m ≠ .run ∧ m ≠ .disconnect := by
  cases m <;> simp_all [isQuiet, fires]

/-- A forwarder was set up, and no shutdown has come to giving it up since. -/
def Tied (ms : List (Move β)) : Prop :=
  ∃ before after, ms = before ++ .run :: after ∧ .disconnect ∉ after

theorem not_tied_nil : ¬ Tied ([] : List (Move β)) := by
  rintro ⟨before, after, h, -⟩
  cases before <;> cases h

theorem tied_concat_iff : Tied (ms ++ [m]) ↔ m = .run ∨ m ≠ .disconnect ∧ Tied ms := by
  constructor
  · intro h
    obtain ⟨before, after, hsplit, hno⟩ := h
    rcases concat_eq_split_iff.1 hsplit with ⟨-, hm, -⟩ | ⟨rest, rfl, rfl⟩
    · exact Or.inl hm
    · rw [List.mem_append, not_or, List.mem_singleton] at hno
      exact Or.inr ⟨Ne.symm hno.2, before, rest, rfl, hno.1⟩
  · rintro (rfl | ⟨hm, before, after, rfl, hno⟩)
    · exact ⟨ms, [], rfl, List.not_mem_nil⟩
    · refine ⟨before, after ++ [m], ?_, ?_⟩
      · rw [List.append_assoc]
        rfl
      · rw [List.mem_append, not_or, List.mem_singleton]
        exact ⟨hno, hm.symm⟩

/-- What the moves of a run say of the bus after it. A bus that has given up its connection has no
subscription left. -/
structure Recorded (ms : List (Move β)) (b : Broker β) : Prop where
  stopped : b.stopped = true ↔ ∃ m ∈ ms, m.fires = true
  connected : b.connected = true ↔ .disconnect ∉ ms
  forwarding : b.forwarding = true ↔ Tied ms
  cut : b.connected = false → b.subscriptions = []

theorem Recorded.of_connect {start : Broker β} (h : connect true config = .ok start) :
    Recorded [] start := by
  cases h
  refine ⟨?_, ?_, ?_, nofun⟩
  · simp
  · simp
  · exact iff_of_false nofun not_tied_nil

/-- A quiet move changes nothing of this. -/
theorem Recorded.of_quiet (h : Recorded ms b) (hm : m.isQuiet = true)
    (hstopped : b'.stopped = b.stopped) (hconnected : b'.connected = b.connected)
    (hforwarding : b'.forwarding = b.forwarding) (hcut : b.subscriptions = [] → b'.subscriptions = [] ∨
      b.connected = true) : Recorded (ms ++ [m]) b' := by
  obtain ⟨hfires, hrun, hdisconnect⟩ := Move.of_isQuiet hm
  refine ⟨?_, ?_, ?_, ?_⟩
  · rw [hstopped, h.stopped]
    simp [or_and_right, exists_or, hfires]
  · rw [hconnected, h.connected]
    simp [hdisconnect.symm]
  · rw [hforwarding, tied_concat_iff, h.forwarding]
    simp [hrun, hdisconnect]
  · intro hnot
    rw [hconnected] at hnot
    rcases hcut (h.cut hnot) with hnone | hconn
    · exact hnone
    · rw [hnot] at hconn
      cases hconn

/-- After a run the bus has a forwarder, the run's own or the one that made it fail. -/
theorem Recorded.of_running (h : Recorded ms b) (hstopped : b'.stopped = b.stopped)
    (hconnected : b'.connected = b.connected) (hforwarding : b'.forwarding = true)
    (hsub : b'.subscriptions = b.subscriptions) : Recorded (ms ++ [.run]) b' := by
  refine ⟨?_, ?_, iff_of_true hforwarding (tied_concat_iff.2 (Or.inl rfl)), ?_⟩
  · rw [hstopped, h.stopped]
    simp [or_and_right, exists_or, Move.fires]
  · rw [hconnected, h.connected]
    simp
  · rw [hconnected, hsub]
    exact h.cut

theorem Recorded.step (h : Recorded ms b) (hstep : Step b m new b') : Recorded (ms ++ [m]) b' := by
  have hput : ∀ s : Subscription β, b.subscriptions = [] → (b.put s).subscriptions = [] ∨
      b.connected = true := by
    intro s hnone
    left
    rw [put, hnone]
    rfl
  cases hstep with
  | running hcall hforwarding => exact h.of_running rfl rfl rfl rfl
  | runRefused hcall hforwarding => exact h.of_running rfl rfl hforwarding rfl
  | forwarded hforwarding hsignalled =>
    refine ⟨iff_of_true rfl ⟨.forward, by simp, rfl⟩, ?_, ?_, h.cut⟩
    · rw [h.connected]
      simp
    · rw [tied_concat_iff, ← h.forwarding]
      simp
  | shutdownAsked hcall =>
    refine ⟨iff_of_true rfl ⟨.shutdown, by simp, rfl⟩, ?_, ?_, h.cut⟩
    · rw [requestShutdown, h.connected]
      simp
    · rw [tied_concat_iff, ← h.forwarding]
      simp [requestShutdown]
  | disconnected hclosing hsub =>
    refine ⟨?_, iff_of_false Bool.false_ne_true (by simp), ?_, fun _ => hsub⟩
    · rw [h.stopped]
      simp [or_and_right, exists_or, Move.fires]
    · rw [tied_concat_iff]
      simp
  | subscribed k hcall hsub hconn => exact h.of_quiet rfl rfl rfl rfl fun _ => Or.inr hconn
  | joined k s hcall hsub => exact h.of_quiet rfl rfl rfl rfl (hput _)
  | arrived name payload s hsub hgone => exact h.of_quiet rfl rfl rfl rfl (hput _)
  | acted name a s s' new hsub hacts => exact h.of_quiet rfl rfl rfl rfl (hput _)
  | collected name s failed hclosing hsub hgone =>
    refine h.of_quiet rfl rfl rfl rfl fun hnone => Or.inl ?_
    rw [hnone]
    rfl
  | givenUp hclosing => exact h.of_quiet rfl rfl rfl rfl fun _ => Or.inl rfl
  | registerRefused k hcall hsub hconn => exact h.of_quiet rfl rfl rfl rfl Or.inl
  | refused k hcall hsub hconn => exact h.of_quiet rfl rfl rfl rfl Or.inl
  | pushed e hcall => exact h.of_quiet rfl rfl rfl rfl Or.inl
  | signalled => exact h.of_quiet rfl rfl rfl rfl Or.inl
  | missed name payload hsub => exact h.of_quiet rfl rfl rfl rfl Or.inl
  | straggled i a s s' new hsub hacts => exact h.of_quiet rfl rfl rfl rfl Or.inl
  | returned hclosing => exact h.of_quiet rfl rfl rfl rfl Or.inl

theorem Recorded.of_run {start : Broker β} (hconnect : connect true config = .ok start)
    (hrun : takeAll? move? start ms = some (hs, b)) : Recorded ms b :=
  takeAll?_induct (fun ms _ c => Recorded ms c)
    (fun _ _ _ _ _ _ _ hlaw hmove => hlaw.step (step_of_move? hmove)) (.of_connect hconnect) hrun

/-- A shutdown that has begun goes on until it gives up the connection or is given up itself. -/
theorem Step.draining (hstep : Step b m new b') (h : b.closing = .draining) :
    b'.closing = .draining ∨ m = .disconnect ∨ m = .giveUp := by
  cases hstep with
  | disconnected hclosing hsub => exact Or.inr (Or.inl rfl)
  | givenUp hclosing => exact Or.inr (Or.inr rfl)
  | shutdownAsked hcall => exact Or.inl rfl
  | returned hclosing =>
    rw [h] at hclosing
    cases hclosing
  | _ => exact Or.inl h

theorem draining_of_run (hrun : takeAll? move? b ms = some (hs, b')) (h : b.closing = .draining) :
    b'.closing = .draining ∨ .disconnect ∈ ms ∨ .giveUp ∈ ms := by
  refine takeAll?_induct (fun ms _ c => c.closing = .draining ∨ .disconnect ∈ ms ∨ .giveUp ∈ ms)
    ?_ (Or.inl h) hrun
  intro ms hs between m new last _ hlaw hmove
  rcases hlaw with hdraining | hdisconnect | hgiveUp
  · rcases (step_of_move? hmove).draining hdraining with hlast | rfl | rfl
    · exact Or.inl hlast
    · exact Or.inr (Or.inl (by simp))
    · exact Or.inr (Or.inr (by simp))
  · exact Or.inr (Or.inl (List.mem_append_left _ hdisconnect))
  · exact Or.inr (Or.inr (List.mem_append_left _ hgiveUp))

/-- **A shutdown that is over has given up the connection**, unless it was given up. -/
theorem disconnect_mem_of_shutdown {start : Broker β} {before after : List (Move β)}
    (hrun : takeAll? move? start (before ++ .shutdown :: after) = some (hs, b)) (hover : b.closing = .none)
    (hwaited : .giveUp ∉ after) : .disconnect ∈ after := by
  obtain ⟨_, between, _, -, hrest, -⟩ := exists_of_takeAll?_append hrun
  obtain ⟨_, asked, _, hshutdown, hafter, -⟩ := exists_of_takeAll?_cons hrest
  have hasked : asked.closing = .draining := by
    cases step_of_move? hshutdown
    rfl
  rcases draining_of_run hafter hasked with hdraining | hdisconnect | hgiveUp
  · rw [hover] at hdraining
    cases hdraining
  · exact hdisconnect
  · exact absurd hgiveUp hwaited

/-! ## Refusals -/

/-- **A handler is taken as long as the bus is connected**, by a broker that opens its subscription. -/
theorem Recorded.register_eq_ok_iff (h : Recorded ms b) (k : Handler β) :
    (∃ r, b.register k = .ok r) ↔ .disconnect ∉ ms := by
  rw [← h.connected]
  cases hsub : b.subscription? k.name with
  | some s =>
    -- a bus that has given up its connection has no subscription left
    have hconn : b.connected = true := by
      by_contra hcut
      rw [subscription?, h.cut (Bool.eq_false_iff.2 hcut)] at hsub
      cases hsub
    simp [register, registerIf, hsub, hconn]
  | none =>
    cases hconn : b.connected with
    | true => simp [register, registerIf, hsub, hconn]
    | false => simp [register, registerIf, hsub, hconn]

theorem Recorded.registerIf_eq_error (h : Recorded ms b) (k : Handler β) (hclosed : .disconnect ∈ ms)
    (granted : Bool) : b.registerIf granted k = .error .connectionClosed := by
  have hconn : b.connected = false := Bool.eq_false_iff.2 fun hc => h.connected.1 hc hclosed
  have hsub : b.subscription? k.name = none := by
    rw [subscription?, h.cut hconn]
    rfl
  simp [registerIf, hsub, hconn]

theorem Recorded.run_eq_ok_iff (h : Recorded ms b) : (∃ r, b.run = .ok r) ↔ ¬ Tied ms := by
  rw [← h.forwarding]
  cases hforwarding : b.forwarding with
  | true => simp [run, hforwarding]
  | false => simp [run, hforwarding]

/-! ## Service -/

/-- What becomes of the messages for a handler in a run: none that arrives is lost; each that is taken and
can be read is given to it, or is being served and due to it; and what is being served can be served to its
end, and the next message then be taken if one waits. -/
structure Serves (k : Handler β) (b : Broker β) (ms : List (Move β)) (hs : List (BrokerHappening β))
    (b' : Broker β) : Prop where
  kept : b.pendingOn k.name ++ onSubject k.name (arrivalsIn ms) =
    onSubject k.name (b.takenIn ms) ++ b'.pendingOn k.name
  invoked : ∀ payload ∈ onSubject k.name (b.takenIn ms), ∀ e, Event.ofPayload k.name payload = .ok e →
    .invoked k.body e ∈ deliveriesOn k.name hs ++ b'.dueOn k.name
  goesOn : ∃ n new b'', b'.moves? (List.replicate n (.act k.name .next)) = some (new, b'') ∧
    deliveriesIn new = b'.dueOn k.name ∧ b''.pendingOn k.name = b'.pendingOn k.name ∧
    (b'.pendingOn k.name ≠ [] → ∃ r, b''.move? (.act k.name .take) = some r)

/-- **A handler is served in every run from its registration until the stop fires** in which its consumer is
not lost. -/
theorem Live.serves {past : List (Move β)} {before : List (BrokerHappening β)}
    (h : Live config past before b) {k : Handler β} (hk : k ∈ registeredIn past)
    (hrun : takeAll? move? b ms = some (hs, b')) (hlive : b'.stopped = false)
    (hwhole : Unbroken k.name (past ++ ms)) : Serves k b ms hs b' := by
  have hname : k.name ∈ subjectsIn past := mem_subjectsIn.2 ⟨k, hk, rfl⟩
  refine ⟨h.onSubject_of_run hname hrun hlive hwhole, ?_,
    (h.run hrun hlive).exists_serving_on hlive (mem_subjectsIn_append hname ms) hwhole⟩
  intro payload htaken e hread
  rw [h.deliveriesOn_of_run hrun hlive hwhole]
  refine List.mem_append_right _ (mem_handedOn hrun htaken fun more => ?_)
  exact invoked_mem_handOut (List.mem_append_left _ hk) hread

/-! ## Whole runs -/

/-- **What a broker bus accepts is decided by its shutdowns and runs, and what it serves by its stop.** After
any run of a bus that was just connected:
the stop has fired exactly if a signal was forwarded or a shutdown asked for;
a handler is taken exactly if no shutdown has given up the connection, and to run is accepted exactly if no
forwarder was set up since the last that did, whether or not the stop has fired; a shutdown that is over did,
unless nobody waited for its end;
after the stop has fired no message is taken any more, and what the handlers are given was due to them by
then, of messages that were being served;
and until it fires every handler that was taken is served, unless its consumer loses the connection or
fails with a handler. -/
theorem accepts_until_shutdown {start : Broker β} (hconnect : connect true config = .ok start)
    (hrun : start.moves? ms = some (hs, b)) :
    (b.stopped = true ↔ ∃ m ∈ ms, m.fires = true) ∧
    (∀ k : Handler β, ((∃ r, b.register k = .ok r) ↔ .disconnect ∉ ms) ∧
      (.disconnect ∈ ms → ∀ granted, b.registerIf granted k = .error .connectionClosed)) ∧
    ((∃ b', b.run = .ok b') ↔ ¬ Tied ms) ∧ (Tied ms → b.run = .error .alreadyRunning) ∧
    (b.closing = .none → ∀ before after, ms = before ++ .shutdown :: after → .giveUp ∉ after →
      .disconnect ∈ after) ∧
    (b.stopped = true → ∀ later hs' b', b.moves? later = some (hs', b') →
      b.takenIn later = [] ∧ (deliveriesIn hs' ++ b'.due).Subperm b.due) ∧
    (b.stopped = false → ∀ before k after, ms = before ++ .register k :: after →
      ∃ hs₁ c hs₂, start.moves? (before ++ [.register k]) = some (hs₁, c) ∧
        c.moves? after = some (hs₂, b) ∧ (Unbroken k.name ms → Serves k c after hs₂ b)) := by
  rw [moves?_eq] at hrun
  have h : Recorded ms b := .of_run hconnect hrun
  refine ⟨h.stopped, fun k => ⟨h.register_eq_ok_iff k, h.registerIf_eq_error k⟩, h.run_eq_ok_iff, ?_, ?_,
    ?_, ?_⟩
  · intro htied
    simp [run, h.forwarding.2 htied]
  · rintro hover before after rfl hwaited
    exact disconnect_mem_of_shutdown hrun hover hwaited
  · intro hstopped later hs' b' hlater
    exact after_stop hstopped ((moves?_eq _ _).symm.trans hlater)
  · rintro hlive before k after rfl
    rw [List.append_cons] at hrun
    obtain ⟨hs₁, c, hs₂, hbefore, hafter, rfl⟩ := exists_of_takeAll?_append hrun
    have hc := (Live.of_connect hconnect).run hbefore (stopped_of_run hafter hlive)
    refine ⟨hs₁, c, hs₂, (moves?_eq _ _).trans hbefore, (moves?_eq _ _).trans hafter, fun hwhole => ?_⟩
    rw [List.append_cons] at hwhole
    refine hc.serves ?_ hafter hlive hwhole
    rw [List.nil_append, registeredIn_concat]
    exact List.mem_append_right _ (List.mem_singleton_self k)

/-- A run in which a handler is taken and served, the signal fires, and nobody passes it on. -/
def lateHandler : List (Move Nat) :=
  [.register (.of (.delete .user) 1), .run, .arrive (.delete .user) [255], .act (.delete .user) .take,
    .act (.delete .user) .next, .signal]

theorem accepts_until_shutdown_lateHandler :
    ∃ start hs b, connect true .default = .ok start ∧ start.moves? lateHandler = some (hs, b) ∧
      b.stopped = false ∧ (∃ r, b.register (.of (.create .user) 2) = .ok r) ∧
      b.run = .error .alreadyRunning ∧
      ∃ hs₁ c hs₂, start.moves? [.register (.of (.delete .user) 1)] = some (hs₁, c) ∧
        c.moves? (lateHandler.drop 1) = some (hs₂, b) ∧
        Serves (.of (.delete .user) 1) c (lateHandler.drop 1) hs₂ b := by
  refine ⟨_, _, _, rfl, rfl, rfl, ?_⟩
  obtain ⟨-, htaken, -, htied, -, -, hserved⟩ :=
    @accepts_until_shutdown Nat _ lateHandler _ .default _ rfl rfl
  refine ⟨(htaken _).1.2 (by simp [lateHandler]), htied ⟨[_], _, rfl, by simp⟩, ?_⟩
  obtain ⟨hs₁, c, hs₂, hbefore, hafter, hserves⟩ := hserved rfl [] _ _ rfl
  exact ⟨hs₁, c, hs₂, hbefore, hafter, hserves (by simp [Unbroken, lateHandler])⟩

/-- **A bus whose stop has fired still answers that all is well**: before the shutdown to a handler, of a
new name or of one that it has a subscription for, and after it to a run. -/
theorem exists_accepted_after_stop :
    ∃ start : Broker Nat, connect true .default = .ok start ∧
      (∃ hs b, start.moves? [.register (.of (.delete .user) 1), .run, .signal, .forward] = some (hs, b) ∧
        b.stopped = true ∧ (∃ b', b.register (.of (.delete .user) 2) = .ok (.joined (.delete .user), b')) ∧
        ∃ b', b.register (.of (.create .user) 3) =
          .ok (.subscribed (.create .user) "heureka-core", b')) ∧
      ∃ hs b, start.moves? [.shutdown, .disconnect, .join] = some (hs, b) ∧ b.stopped = true ∧
        ∃ b', b.run = .ok b' :=
  ⟨_, rfl, ⟨_, _, rfl, rfl, ⟨_, rfl⟩, ⟨_, rfl⟩⟩, _, _, rfl, rfl, ⟨_, rfl⟩⟩

/-! ## A shutdown -/

/-- Consumers that wait leave one after the other, and are seen to be over. -/
theorem takeAll?_leaving {xs : List (Subscription β)} (hsubs : b.subscriptions = xs)
    (hwaiting : ∀ s ∈ xs, s.consumer = .waiting) (hstopped : b.stopped = true)
    (hclosing : b.closing = .draining) :
    takeAll? move? b (xs.flatMap fun s => [.act s.name .leave, .collect s.name]) =
      some (xs.map fun s => .unsubscribed s.name, { b with subscriptions := [] }) := by
  induction xs generalizing b with
  | nil =>
    cases b
    cases hsubs
    rfl
  | cons s xs ih =>
    obtain ⟨hconsumer, hwaiting⟩ := List.forall_mem_cons.1 hwaiting
    let s' : Subscription β := { s with pending := [], consumer := .gone false }
    have hput : (b.put s').subscriptions = s' :: xs := by
      rw [put, hsubs, Subscription.replaceIn]
      exact if_pos rfl
    have hleave : Step b (.act s.name .leave) [.unsubscribed s.name] (b.put s') := by
      refine .acted s.name .leave s s' _ ?_ (.left hconsumer hstopped)
      rw [subscription?, hsubs]
      exact List.find?_cons_of_pos (decide_eq_true rfl)
    have hcollect : Step (b.put s') (.collect s.name) [] { b with subscriptions := xs } := by
      have hfound : (b.put s').subscription? s.name = some s' := by
        rw [subscription?, hput]
        exact List.find?_cons_of_pos (decide_eq_true rfl)
      have hdraining : (b.put s').closing = .draining := hclosing
      have hstep := Step.collected s.name s' false hdraining hfound rfl
      have herase : (s' :: xs).eraseP (fun x => x.name = s.name) = xs :=
        List.eraseP_cons_of_pos (decide_eq_true rfl)
      rw [hput, herase] at hstep
      exact hstep
    exact takeAll?_cons hleave.move?_eq (takeAll?_cons hcollect.move?_eq (ih rfl hwaiting hstopped hclosing))

/-- **A bus whose consumers all wait is shut down in these moves**: each consumer leaves, and the connection is
given up. -/
theorem Quiet.moves?_shutdownMoves (h : Quiet b) :
    ∃ b', b.moves? b.shutdownMoves =
        some ((b.subscriptions.map fun s => .unsubscribed s.name) ++ [.shutDown], b') ∧
      b'.stopped = true ∧ b'.connected = false ∧ b'.subscriptions = [] := by
  let left : Broker β := { b.requestShutdown with subscriptions := [] }
  have hshutdown : Step b .shutdown [] b.requestShutdown := .shutdownAsked h.closing
  have hleaving : takeAll? move? b.requestShutdown _ = some (_, left) :=
    takeAll?_leaving rfl (fun s hs => (h.waiting s hs).1) rfl rfl
  have hdisconnect : Step left .disconnect []
      { left with forwarding := false, connected := false, closing := .flushing } := .disconnected rfl rfl
  have hjoin : Step { left with forwarding := false, connected := false, closing := .flushing } .join
      [.shutDown] { left with forwarding := false, connected := false, closing := .none } := .returned rfl
  refine ⟨{ left with forwarding := false, connected := false, closing := .none }, ?_, rfl, rfl, rfl⟩
  have hend : takeAll? move? left [.disconnect, .join] = some ([.shutDown], _) :=
    takeAll?_cons hdisconnect.move?_eq (takeAll?_cons hjoin.move?_eq rfl)
  have hall := takeAll?_cons hshutdown.move?_eq (takeAll?_append hleaving hend)
  exact (moves?_eq _ _).trans hall

end Broker

end TupleSync.Bus
