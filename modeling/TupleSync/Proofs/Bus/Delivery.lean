import TupleSync.Proofs.Bus.Fanout

/-!
# What a local bus delivers

**In every run of a local bus the accounts of its events and services balance, and a bus that is asked to
stop takes nothing more and, once it is shut down, serves nothing more.** All of it is kept by every step,
whoever takes which step when, and so holds after every list of moves that can be taken.

A worker that is asked to stop finishes the event that it is serving: the request is only seen where it
would take the next one. A shutdown that returns has seen the worker's end, unless one before it was
given up: then nobody knows the worker any longer, and none waits for it.
-/

set_option autoImplicit false

namespace TupleSync.Bus
namespace Local

variable {β : Type} {hs new : List (Happening β)} {b b' : Local β} {m : Move β} {ms : List (Move β)}

/-! ## Requests to stop -/

/-- The moves that ask the worker to stop. -/
def Move.stops : Move β → Bool
  | .signal => true
  | .shutdown => true
  | _ => false

/-- The worker was asked to stop, one way or the other. -/
def Asked (b : Local β) : Prop := b.signalled = true ∨ b.stopping = true

theorem asked_of_stops (hm : m.stops = true) (hstep : Step b m new b') : Asked b' := by
  cases hstep with
  | signalled => exact Or.inl rfl
  | closed hstage => exact Or.inr rfl
  | asked hstage => exact Or.inr rfl
  | _ => cases hm

/-- No request is taken back. -/
theorem Asked.step (h : Asked b) (hstep : Step b m new b') : Asked b' := by
  cases hstep with
  | signalled => exact Or.inl rfl
  | closed hstage => exact Or.inr rfl
  | asked hstage => exact Or.inr rfl
  | _ => exact h

/-- **A worker that is asked to stop takes nothing.** -/
theorem Asked.takenIn_eq_nil (h : Asked b) (hstep : Step b m new b') : takenIn new = [] := by
  have hno : b.signalled = false → b.stopping = false → False := by
    intro hsignalled hstopping
    rcases h with ho | ho
    · rw [hsignalled] at ho
      cases ho
    · rw [hstopping] at ho
      cases ho
  -- the two steps that take an event look at both requests first
  cases hstep with
  | took e rest hstage hsignalled hstopping hqueue => exact (hno hsignalled hstopping).elim
  | passed e rest hstage hsignalled hstopping hqueue hnone => exact (hno hsignalled hstopping).elim
  | joined seen hseen hclosing hrunning =>
    rcases hseen with rfl | rfl
    · rfl
    · rfl
  | halted why hstage hwhy =>
    rcases hwhy with rfl | rfl
    · rfl
    · rfl
  | _ => rfl

/-! ## The end -/

/-- A bus that is closed to publishers stays closed, and its worker does nothing. -/
theorem quiet_of_closed (h : b.isOpen = false) (hstep : Step b m new b') :
    b'.isOpen = false ∧ servicesIn new = [] := by
  -- a stage in which the bus is open is not the stage of this one
  have hno : ∀ {stage : Stage β}, b.stage = stage → ({ b with stage } : Local β).isOpen = true →
      False := by
    intro stage hstage ho
    rw [← hstage, show ({ b with stage := b.stage } : Local β) = b from rfl, h] at ho
    cases ho
  cases hstep with
  | registered k hstage => exact (hno hstage rfl).elim
  | started hstage => exact (hno hstage rfl).elim
  | accepted e hopen hroom => exact ⟨h, rfl⟩
  | closed hstage => exact (hno hstage rfl).elim
  | joined seen hseen hclosing hrunning =>
    rcases hseen with rfl | rfl
    · exact ⟨h, rfl⟩
    · exact ⟨h, rfl⟩
  | halted why hstage hwhy => exact (hno hstage rfl).elim
  | took e rest hstage hsignalled hstopping hqueue => exact (hno hstage rfl).elim
  | passed e rest hstage hsignalled hstopping hqueue hnone => exact (hno hstage rfl).elim
  | delivered e k rest hstage => exact (hno hstage rfl).elim
  | served e hstage => exact (hno hstage rfl).elim
  | finished e k rest hstage => exact (hno hstage rfl).elim
  | failed e k rest hstage => exact (hno hstage rfl).elim
  | _ => exact ⟨h, rfl⟩

/-- A worker is known as long as it works and no wait for it was given up. -/
def Attached (ms : List (Move β)) (b : Local β) : Prop :=
  .giveUp ∉ ms → ∀ w, b.stage = .working w → b.attached = true

theorem Attached.step (h : Attached ms b) (hstep : Step b m new b') : Attached (ms ++ [m]) b' := by
  intro hkept w hw
  rw [List.mem_append, not_or, List.mem_singleton] at hkept
  obtain ⟨hkept, hm⟩ := hkept
  have h := h hkept
  cases hstep with
  | started hstage => rfl
  | joined seen hseen hclosing hrunning =>
    -- with a known worker the shutdown would not have returned
    have hstage : b.stage = .working w := hw
    simp [isRunning, hstage, h w hstage] at hrunning
  | givenUp hclosing hattached => exact absurd rfl hm
  | halted why hstage hwhy => cases hw
  | closed hstage => cases hw
  | failed e k rest hstage => cases hw
  | took e rest hstage hsignalled hstopping hqueue => exact h _ hstage
  | delivered e k rest hstage => exact h _ hstage
  | served e hstage => exact h _ hstage
  | finished e k rest hstage => exact h _ hstage
  | _ => exact h w hw

/-- A bus that was asked to shut down is not kept for later. -/
def Unasked (b : Local β) : Prop := b.stage = .assembling → b.closing = false

theorem Unasked.step (h : Unasked b) (hstep : Step b m new b') : Unasked b' := by
  intro ho
  cases hstep with
  | asked hstage => exact absurd ho hstage
  | started hstage => cases ho
  | closed hstage => cases ho
  | halted why hstage hwhy => cases ho
  | took e rest hstage hsignalled hstopping hqueue => cases ho
  | delivered e k rest hstage => cases ho
  | served e hstage => cases ho
  | finished e k rest hstage => cases ho
  | failed e k rest hstage => cases ho
  | joined seen hseen hclosing hrunning => rfl
  | givenUp hclosing hattached => rfl
  | _ => exact h ho

/-- **A shutdown that returns leaves a closed bus**, if the worker was known. -/
theorem isOpen_of_shutDown (hattached : ∀ w, b.stage = .working w → b.attached = true)
    (hunasked : Unasked b) (hstep : Step b m new b') (hdown : .shutDown ∈ new) :
    b'.isOpen = false := by
  cases hstep with
  | joined seen hseen hclosing hrunning =>
    show b.isOpen = false
    -- only a bus without a worker lets a shutdown return, and one that was asked is not assembling
    cases hstage : b.stage with
    | assembling =>
      rw [hunasked hstage] at hclosing
      cases hclosing
    | working w => simp [isRunning, hstage, hattached w hstage] at hrunning
    | _ => simp [isOpen, hstage]
  | halted why hstage hwhy => rfl
  | _ => simp at hdown

/-! ## Whole runs -/

/-- What holds of a bus and its past after every run. -/
structure Lawful (n : Nat) (ms : List (Move β)) (hs : List (Happening β)) (b : Local β) : Prop where
  balanced : Balanced hs b
  capacity : b.capacity = max 1 n
  room : b.queue.length ≤ b.capacity
  tabled : Tabled ms b
  served : Served hs b
  asked : (∃ m ∈ ms, m.stops = true) → Asked b
  attached : Attached ms b
  unasked : Unasked b
  ended : .giveUp ∉ ms → .shutDown ∈ hs → b.isOpen = false

theorem Lawful.of_new (n : Nat) : Lawful n [] [] (Local.new n : Local β) where
  balanced := ⟨rfl, fun _ => rfl, fun ho => Bool.noConfusion ho⟩
  capacity := rfl
  room := Nat.zero_le _
  tabled := ⟨rfl, iff_of_true rfl fun _ hm => absurd hm List.not_mem_nil⟩
  served := ⟨⟨[], [], rfl, rfl⟩, fun _ => rfl⟩
  asked := fun ⟨_, hm, _⟩ => absurd hm List.not_mem_nil
  attached := by
    intro _ w hw
    cases hw
  unasked := fun _ => rfl
  ended := fun _ hdown => absurd hdown List.not_mem_nil

theorem Lawful.step {n : Nat} (h : Lawful n ms hs b) (hstep : Step b m new b') :
    Lawful n (ms ++ [m]) (hs ++ new) b' where
  balanced := h.balanced.step hstep
  capacity := (capacity_of_step hstep).trans h.capacity
  room := length_queue_of_step h.room hstep
  tabled := h.tabled.step hstep
  served := h.served.step hstep
  asked := by
    intro hboth
    obtain ⟨k, hk, hstops⟩ := hboth
    rcases List.mem_append.1 hk with hk | hk
    · exact (h.asked ⟨k, hk, hstops⟩).step hstep
    · rw [List.mem_singleton.1 hk] at hstops
      exact asked_of_stops hstops hstep
  attached := h.attached.step hstep
  unasked := h.unasked.step hstep
  ended := by
    intro hkept hdown
    have hbefore : .giveUp ∉ ms := fun hm => hkept (List.mem_append_left _ hm)
    rcases List.mem_append.1 hdown with hdown | hdown
    · exact (quiet_of_closed (h.ended hbefore hdown) hstep).1
    · exact isOpen_of_shutDown (h.attached hbefore) h.unasked hstep hdown

/-- **After every run of a new bus everything holds.** -/
theorem lawful_of_moves? {n : Nat} (h : (Local.new n).moves? ms = some (hs, b)) :
    Lawful n ms hs b :=
  moves?_induct (Lawful n) (fun _ _ _ _ _ _ hlaw hstep => hlaw.step hstep) (.of_new n) h

/-- Once it is asked to stop a bus takes nothing, whatever is done with it. -/
theorem takenIn_eq_nil_of_asked (h : Asked b) (hrun : b.moves? ms = some (hs, b')) :
    takenIn hs = [] := by
  have hlaw : Asked b' ∧ takenIn hs = [] := by
    refine moves?_induct (fun _ past c => Asked c ∧ takenIn past = []) ?_ ⟨h, rfl⟩ hrun
    intro _ past c k more c' hc hstep
    refine ⟨hc.1.step hstep, ?_⟩
    rw [takenIn_append, hc.2, hc.1.takenIn_eq_nil hstep]
    rfl
  exact hlaw.2

/-- **Once it is closed a bus accepts nothing and serves nothing**, whatever is done with it. -/
theorem stays_closed (h : b.isOpen = false) (hrun : b.moves? ms = some (hs, b')) :
    b'.isOpen = false ∧ acceptedIn hs = [] ∧ servicesIn hs = [] := by
  refine moves?_induct (fun _ past c => c.isOpen = false ∧ acceptedIn past = [] ∧ servicesIn past = [])
    ?_ ⟨h, rfl, rfl⟩ hrun
  intro _ past c m more last hc hstep
  obtain ⟨hclosed, haccepted, hservices⟩ := hc
  obtain ⟨hlast, hmore⟩ := quiet_of_closed hclosed hstep
  have hnone : acceptedIn more = [] := by
    cases hstep with
    | accepted e hopen hroom => cases hopen.symm.trans hclosed
    | joined seen hseen hclosing hrunning =>
      rcases hseen with rfl | rfl
      · rfl
      · rfl
    | halted why hstage hwhy =>
      rcases hwhy with rfl | rfl
      · rfl
      · rfl
    | _ => rfl
  refine ⟨hlast, ?_, ?_⟩
  · rw [acceptedIn_append, haccepted, hnone]
    rfl
  · rw [servicesIn_append, hservices, hmore]
    rfl

theorem servicesIn_eq_nil_of_closed (h : b.isOpen = false) (hrun : b.moves? ms = some (hs, b')) :
    servicesIn hs = [] :=
  (stays_closed h hrun).2.2

/-- **What a local bus delivers, in every run of it.** After any moves of a new bus,
the accepted events are the taken ones, those given up, and those still queued, in this order, and none
is given up while the bus is open; the services are whole ones of taken events in order, and at most one
that is underway, for the handlers that were registered in time, and where these were registered by the
variant that they take, every event was run by the bodies that are registered under its name, in order and
before the next event, and the one underway by the first of them; the queue is no longer than it may be;
after a request to stop nothing is taken; and after a shutdown has returned, and none was given up, nothing
is served. -/
theorem delivers (n : Nat) {before later : List (Move β)} {hs hs' : List (Happening β)}
    {b b' : Local β} (h : (Local.new n).moves? before = some (hs, b))
    (h' : b.moves? later = some (hs', b')) :
    (acceptedIn hs = takenIn hs ++ discardedIn hs ++ b.queue ∧
      (b.isOpen = true → discardedIn hs = []) ∧ (b.isOpen = false → b.queue = [])) ∧
    (∃ (done : List Event) (part : List (Happening β)),
      servicesIn hs = done.flatMap (service (registrations before)) ++ part ∧
      takenIn hs = done ++ takenIn part ∧ Underway (registrations before) b.stage part ∧
      ∀ regs, registrations before = typed regs →
        deliveriesIn hs = done.flatMap (invocations regs) ++ deliveriesIn part ∧
        ∀ e ∈ takenIn part, deliveriesIn part <+: invocations regs e) ∧
    b.queue.length ≤ max 1 n ∧
    ((∃ m ∈ before, m.stops = true) → takenIn hs' = []) ∧
    (.giveUp ∉ before → .shutDown ∈ hs → servicesIn hs' = [] ∧ ∀ w, b.stage ≠ .working w) := by
  have hlaw := lawful_of_moves? h
  refine ⟨⟨hlaw.balanced.sum, hlaw.balanced.kept, hlaw.balanced.emptied⟩, ?_, ?_, ?_, ?_⟩
  · obtain ⟨done, part, hsum, hunder⟩ := hlaw.served.sum
    rw [hlaw.tabled.table] at hsum hunder
    refine ⟨done, part, hsum, ?_, hunder, ?_⟩
    · rw [← takenIn_servicesIn, hsum, takenIn_append, takenIn_flatMap_service]
    · intro regs hregs
      rw [hregs] at hsum hunder
      refine ⟨?_, fun e => hunder.deliveriesIn_prefix⟩
      rw [← deliveriesIn_servicesIn, hsum, deliveriesIn_append, deliveriesIn_flatMap_service_typed]
  · rw [← hlaw.capacity]
    exact hlaw.room
  · intro hstops
    exact takenIn_eq_nil_of_asked (hlaw.asked hstops) h'
  · intro hkept hdown
    have hclosed := hlaw.ended hkept hdown
    refine ⟨servicesIn_eq_nil_of_closed hclosed h', ?_⟩
    intro w hw
    simp [isOpen, hw] at hclosed

/-- A run with handlers of two names, in which two events are served and a third is still queued when the
bus is shut down. -/
def shortLife : List (Move Nat) :=
  [.register (.of (.delete .user) 1), .register (.of (.delete .service) 2),
    .register (.of (.delete .user) 3), .run, .push (.deleted .user 1), .advance,
    .push (.deleted .service 5), .advance, .finish, .advance, .finish, .advance, .advance,
    .push (.deleted .user 2), .advance, .shutdown, .finish, .advance, .advance, .join]

/-- In that run the first event is run by the two bodies of its name and the second by the one of its own;
the third is given up, and one that is published later is not taken. -/
theorem delivers_shortLife :
    ∃ hs b hs' b', (Local.new 1).moves? shortLife = some (hs, b) ∧
      b.moves? [.push (.deleted .user 3), .shutdown, .join] = some (hs', b') ∧
      takenIn hs = [.deleted .user 1, .deleted .service 5] ∧ discardedIn hs = [.deleted .user 2] ∧
      deliveriesIn hs = [.invoked 1 (.deleted .user 1), .invoked 3 (.deleted .user 1),
        .invoked 2 (.deleted .service 5)] ∧
      acceptedIn hs = takenIn hs ++ discardedIn hs ++ b.queue ∧
      (∃ done part, takenIn hs = done ++ takenIn part ∧
        deliveriesIn hs = done.flatMap (invocations [(.delete .user, 1), (.delete .service, 2),
          (.delete .user, 3)]) ++ deliveriesIn part) ∧
      servicesIn hs' = [] := by
  refine ⟨_, _, _, _, rfl, rfl, rfl, rfl, rfl, ?_⟩
  have h := @delivers Nat 1 shortLife [.push (.deleted .user 3), .shutdown, .join] _ _ _ _ rfl rfl
  obtain ⟨hsum, ⟨done, part, -, htaken, -, hfanout⟩, -, -, hdown⟩ := h
  have hkept : .giveUp ∉ shortLife := by simp [shortLife]
  exact ⟨hsum.1, ⟨done, part, htaken, (hfanout _ rfl).1⟩, (hdown hkept (by simp)).1⟩

end Local
end TupleSync.Bus
