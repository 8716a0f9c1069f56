import TupleSync.Proofs.Bus.Steps

/-!
# The account of a local bus

**Every event that is accepted is taken, given up or still queued, in the order of acceptance, and the
queue never holds more than the bus allows.** An account of a run is read off its happenings:
`acceptedIn`, `takenIn` and `discardedIn` are the events that came in and went out, and `servicesIn` is
what the worker did with them.

A step does one of four things to the account: it moves no event, accepts one, takes one, or gives up all
that are queued. There is a lemma for each of the four.
-/

set_option autoImplicit false

namespace TupleSync.Bus

namespace Happening

variable {β : Type}

def accepted? : Happening β → Option Event
  | accepted e => some e
  | _ => none

def taken? : Happening β → Option Event
  | taken e => some e
  | _ => none

def discards : Happening β → List Event
  | discarded es => es
  | _ => []

def delivered? : Happening β → Option (Delivery β)
  | delivered d => some d
  | _ => none

/-- The worker takes an event or gives one to a handler. -/
def isService : Happening β → Bool
  | taken _ => true
  | delivered _ => true
  | _ => false

end Happening

namespace Local

variable {β : Type}

/-- The accepted events, in the order of acceptance. -/
def acceptedIn (hs : List (Happening β)) : List Event := hs.filterMap Happening.accepted?

def takenIn (hs : List (Happening β)) : List Event := hs.filterMap Happening.taken?

/-- The events that were accepted and given up when the bus stopped, in order. -/
def discardedIn (hs : List (Happening β)) : List Event := hs.flatMap Happening.discards

/-- What the worker did with the events, in order. -/
def servicesIn (hs : List (Happening β)) : List (Happening β) := hs.filter Happening.isService

/-- What the handlers are given, in order. -/
def deliveriesIn (hs : List (Happening β)) : List (Delivery β) := hs.filterMap Happening.delivered?

section Append

variable (hs new : List (Happening β))

@[simp] theorem acceptedIn_append : acceptedIn (hs ++ new) = acceptedIn hs ++ acceptedIn new :=
  List.filterMap_append

@[simp] theorem takenIn_append : takenIn (hs ++ new) = takenIn hs ++ takenIn new :=
  List.filterMap_append

@[simp] theorem discardedIn_append : discardedIn (hs ++ new) = discardedIn hs ++ discardedIn new :=
  List.flatMap_append

@[simp] theorem servicesIn_append : servicesIn (hs ++ new) = servicesIn hs ++ servicesIn new :=
  List.filter_append ..

@[simp] theorem deliveriesIn_append :
    deliveriesIn (hs ++ new) = deliveriesIn hs ++ deliveriesIn new :=
  List.filterMap_append

/-- Events are taken in services only. -/
theorem takenIn_servicesIn : takenIn (servicesIn hs) = takenIn hs := by
  unfold takenIn servicesIn
  rw [List.filterMap_filter]
  congr 1
  funext h
  cases h <;> rfl

/-- Events are given to handlers in services only. -/
theorem deliveriesIn_servicesIn : deliveriesIn (servicesIn hs) = deliveriesIn hs := by
  unfold deliveriesIn servicesIn
  rw [List.filterMap_filter]
  congr 1
  funext h
  cases h <;> rfl

end Append

variable {hs new : List (Happening β)} {b b' : Local β} {m : Move β} {ms : List (Move β)}

/-! ## Events in and out -/

/-- The account of the events: nothing is lost, doubled or moved, and nothing is given up before the bus
is closed to publishers, after which nothing is queued. -/
structure Balanced (hs : List (Happening β)) (b : Local β) : Prop where
  sum : acceptedIn hs = takenIn hs ++ discardedIn hs ++ b.queue
  kept : b.isOpen = true → discardedIn hs = []
  emptied : b.isOpen = false → b.queue = []

theorem Balanced.of_quiet (h : Balanced hs b) (hqueue : b'.queue = b.queue)
    (hopen : b'.isOpen = b.isOpen) (haccepted : acceptedIn new = []) (htaken : takenIn new = [])
    (hdiscarded : discardedIn new = []) : Balanced (hs ++ new) b' := by
  refine ⟨?_, ?_, ?_⟩
  · simp [haccepted, htaken, hdiscarded, hqueue, h.sum]
  · intro ho
    rw [discardedIn_append, hdiscarded, h.kept (hopen ▸ ho)]
    rfl
  · intro ho
    rw [hqueue]
    exact h.emptied (hopen ▸ ho)

/-- Where the bus closes, what was queued is given up. -/
theorem Balanced.of_closing (h : Balanced hs b) (hopen : b.isOpen = true) (hqueue : b'.queue = [])
    (hclosed : b'.isOpen = false) (haccepted : acceptedIn new = []) (htaken : takenIn new = [])
    (hdiscarded : discardedIn new = b.queue) : Balanced (hs ++ new) b' := by
  refine ⟨?_, ?_, fun _ => hqueue⟩
  · simp [haccepted, htaken, hdiscarded, hqueue, h.sum, h.kept hopen]
  · intro ho
    rw [hclosed] at ho
    cases ho

/-- Where the oldest event is taken, it moves from the queue to the taken ones. -/
theorem Balanced.of_taking (h : Balanced hs b) (hopen : b.isOpen = true) {e : Event}
    (hqueue : b.queue = e :: b'.queue) (hopen' : b'.isOpen = true) (haccepted : acceptedIn new = [])
    (htaken : takenIn new = [e]) (hdiscarded : discardedIn new = []) :
    Balanced (hs ++ new) b' := by
  refine ⟨?_, ?_, ?_⟩
  · -- nothing was given up so far, so the oldest event stands right behind those that were taken
    simp [haccepted, htaken, hdiscarded, hqueue, h.sum, h.kept hopen]
  · intro _
    rw [discardedIn_append, hdiscarded, h.kept hopen]
    rfl
  · intro ho
    rw [hopen'] at ho
    cases ho

/-- Where an event is accepted, it is the last in the queue. -/
theorem Balanced.of_accepting (h : Balanced hs b) (hopen : b.isOpen = true) {e : Event}
    (hqueue : b'.queue = b.queue ++ [e]) (hopen' : b'.isOpen = true) (haccepted : acceptedIn new = [e])
    (htaken : takenIn new = []) (hdiscarded : discardedIn new = []) : Balanced (hs ++ new) b' := by
  refine ⟨?_, ?_, ?_⟩
  · simp [haccepted, htaken, hdiscarded, hqueue, h.sum, h.kept hopen]
  · intro _
    rw [discardedIn_append, hdiscarded, h.kept hopen]
    rfl
  · intro ho
    rw [hopen'] at ho
    cases ho

theorem Balanced.step (h : Balanced hs b) (hstep : Step b m new b') : Balanced (hs ++ new) b' := by
  cases hstep with
  | registered k hstage => exact h.of_quiet rfl rfl rfl rfl rfl
  | started hstage => exact h.of_quiet rfl (by simp [isOpen, hstage]) rfl rfl rfl
  | registerRefused k hstage => exact h.of_quiet rfl rfl rfl rfl rfl
  | runRefused hstage => exact h.of_quiet rfl rfl rfl rfl rfl
  | accepted e hopen hroom => exact h.of_accepting hopen rfl hopen rfl rfl rfl
  | dropped e hopen => exact h.of_quiet rfl rfl rfl rfl rfl
  | signalled => exact h.of_quiet rfl rfl rfl rfl rfl
  | closed hstage =>
    exact h.of_closing (by simp [isOpen, hstage]) rfl rfl rfl rfl (List.append_nil _)
  | asked hstage => exact h.of_quiet rfl rfl rfl rfl rfl
  | joined seen hseen hclosing hrunning =>
    rcases hseen with rfl | rfl
    · exact h.of_quiet rfl rfl rfl rfl rfl
    · exact h.of_quiet rfl rfl rfl rfl rfl
  | givenUp hclosing hattached => exact h.of_quiet rfl rfl rfl rfl rfl
  | halted why hstage hwhy =>
    have hopen : b.isOpen = true := by simp [isOpen, hstage]
    rcases hwhy with rfl | rfl
    · exact h.of_closing hopen rfl rfl rfl rfl (List.append_nil _)
    · exact h.of_closing hopen rfl rfl rfl rfl (List.append_nil _)
  | took e rest hstage hsignalled hstopping hqueue =>
    exact h.of_taking (by simp [isOpen, hstage]) hqueue rfl rfl rfl rfl
  | passed e rest hstage hsignalled hstopping hqueue hnone =>
    have hopen : b.isOpen = true := by simp [isOpen, hstage]
    exact h.of_taking hopen hqueue hopen rfl rfl rfl
  | delivered e k rest hstage => exact h.of_quiet rfl (by simp [isOpen, hstage]) rfl rfl rfl
  | served e hstage => exact h.of_quiet rfl (by simp [isOpen, hstage]) rfl rfl rfl
  | finished e k rest hstage => exact h.of_quiet rfl (by simp [isOpen, hstage]) rfl rfl rfl
  | failed e k rest hstage =>
    exact h.of_closing (by simp [isOpen, hstage]) rfl rfl rfl rfl (List.append_nil _)

/-! ## Room -/

theorem capacity_of_step (hstep : Step b m new b') : b'.capacity = b.capacity := by
  cases hstep <;> rfl

/-- **A step never makes the queue longer than the bus allows.** -/
theorem length_queue_of_step (h : b.queue.length ≤ b.capacity) (hstep : Step b m new b') :
    b'.queue.length ≤ b'.capacity := by
  cases hstep with
  | accepted e hopen hroom =>
    show (b.queue ++ [e]).length ≤ b.capacity
    rw [List.length_append, List.length_singleton]
    exact hroom
  | took e rest hstage hsignalled hstopping hqueue =>
    rw [hqueue, List.length_cons] at h
    exact Nat.le_of_succ_le h
  | passed e rest hstage hsignalled hstopping hqueue hnone =>
    rw [hqueue, List.length_cons] at h
    exact Nat.le_of_succ_le h
  | closed | halted | failed => exact Nat.zero_le _
  | _ => exact h

end Local
end TupleSync.Bus
