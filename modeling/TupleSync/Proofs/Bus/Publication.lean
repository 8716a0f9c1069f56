import TupleSync.Proofs.Bus.Delivery

/-!
# Events through a local bus

**What a local bus delivers is determined by its handlers and the events that it accepts**: each event, in
order, is given to the handlers of its name. `Delivers` asks for a run, any run, in which the handlers
were registered in time and the worker has served everything that was accepted. There always is one, in
which the worker is let finish with each event before the next is published.
-/

set_option autoImplicit false

namespace TupleSync.Bus

open Handler (filedUnder)

variable {β : Type}

namespace Local

variable {b b' : Local β} {table : List (Handler β)}

/-- **A local bus delivers so** if in some run of it these handlers are registered, these events are
accepted and served to their end, and this is what the handlers are given. -/
def Delivers (capacity : Nat) (table : List (Handler β)) (es : List Event)
    (ds : List (Delivery β)) : Prop :=
  ∃ ms hs b, (Local.new capacity).moves? ms = some (hs, b) ∧ registrations ms = table ∧
    acceptedIn hs = es ∧ b.queue = [] ∧ b.stage = .working .idle ∧ deliveriesIn hs = ds

/-- What a local bus delivers is determined by its handlers and events. -/
theorem Delivers.eq {capacity : Nat} {es : List Event} {ds : List (Delivery β)}
    (h : Delivers capacity table es ds) :
    ds = es.flatMap fun e => (filedUnder table e.name).map fun h => h.give e := by
  obtain ⟨ms, hs, b, hrun, rfl, rfl, hqueue, hstage, rfl⟩ := h
  have hlaw := lawful_of_moves? hrun
  have hopen : b.isOpen = true := by simp [isOpen, hstage]
  have haccepted : acceptedIn hs = takenIn hs := by
    rw [hlaw.balanced.sum, hlaw.balanced.kept hopen, hqueue, List.append_nil, List.append_nil]
  obtain ⟨done, hdone⟩ := hlaw.served.exists_of_idle hstage
  have htaken : takenIn hs = done := by
    rw [← takenIn_servicesIn, hdone, takenIn_flatMap_service]
  rw [← deliveriesIn_servicesIn, hdone, haccepted, htaken, ← hlaw.tabled.table,
    deliveriesIn_flatMap_service]

/-! ## A run for any events -/

/-- Nothing is queued, nobody asked the worker to stop, and it waits for an event. -/
structure Ready (table : List (Handler β)) (b : Local β) : Prop where
  stage : b.stage = .working .idle
  table : b.table = table
  queue : b.queue = []
  unasked : b.signalled = false ∧ b.stopping = false

/-- A worker gives its event to the handlers that are left and waits again. -/
theorem exists_serving (rest : List (Handler β)) {b : Local β} {e : Event}
    (hstage : b.stage = .working (.serving e none rest)) :
    ∃ ms hs, takeAll? move? b ms = some (hs, { b with stage := .working .idle }) ∧
      acceptedIn hs = [] := by
  induction rest generalizing b with
  | nil =>
    have hend : b.move? .advance = some ([], { b with stage := .working .idle }) := by
      show b.advance? = _
      rw [advance?, hstage]
    exact ⟨[.advance], [], takeAll?_cons hend rfl, rfl⟩
  | cons k rest ih =>
    have hgive : b.move? .advance = some ([.delivered (k.give e)],
        { b with stage := .working (.serving e (some k) rest) }) := by
      show b.advance? = _
      rw [advance?, hstage]
    obtain ⟨ms, hs, hrun, haccepted⟩ := ih (b := { b with stage := .working (.serving e none rest) }) rfl
    exact ⟨.advance :: .finish :: ms, _, takeAll?_cons hgive (takeAll?_cons rfl hrun),
      by rw [acceptedIn_append, acceptedIn_append, haccepted]; rfl⟩

/-- A bus that waits has room for an event. -/
theorem Ready.move?_push (h : Ready table b) (e : Event) :
    b.move? (.push e) = some ([.accepted e], { b with queue := [e] }) := by
  have hopen : b.isOpen = true := by simp [isOpen, h.stage]
  have hroom : b.hasRoom = true := by simpa [hasRoom, h.queue] using b.capacity_pos
  simp [move?, push?, hopen, hroom, h.queue]

theorem Ready.exists_serving_one (h : Ready table b) (e : Event) :
    ∃ ms hs b', takeAll? move? b ms = some (hs, b') ∧ Ready table b' ∧ acceptedIn hs = [e] := by
  obtain ⟨hsignalled, hstopping⟩ := h.unasked
  have hpush := h.move?_push e
  by_cases hnone : filedUnder b.table e.name = []
  · have htake : { b with queue := [e] : Local β }.move? .advance =
        some ([.taken e, .unhandled e], { b with queue := [] }) := by
      simp [move?, advance?, h.stage, hsignalled, hstopping, hnone]
    exact ⟨[.push e, .advance], _, _, takeAll?_cons hpush (takeAll?_cons htake rfl),
      ⟨h.stage, h.table, rfl, h.unasked⟩, rfl⟩
  · -- here the worker has handlers to run before it waits again
    have htake : { b with queue := [e] : Local β }.move? .advance = some ([.taken e],
        { b with queue := [], stage := .working (.serving e none (filedUnder b.table e.name)) }) := by
      simp [move?, advance?, h.stage, hsignalled, hstopping, hnone]
    obtain ⟨ms, hs, hrun, haccepted⟩ := exists_serving (filedUnder b.table e.name) (e := e)
      (b := { b with queue := [], stage := .working (.serving e none (filedUnder b.table e.name)) }) rfl
    refine ⟨.push e :: .advance :: ms, _, _, takeAll?_cons hpush (takeAll?_cons htake hrun),
      ⟨rfl, h.table, rfl, h.unasked⟩, ?_⟩
    rw [acceptedIn_append, acceptedIn_append, haccepted]
    rfl

/-- A worker that waits serves any events one after the other. -/
theorem Ready.exists_serving_all (es : List Event) (h : Ready table b) :
    ∃ ms hs b', takeAll? move? b ms = some (hs, b') ∧ Ready table b' ∧ acceptedIn hs = es := by
  induction es generalizing b with
  | nil => exact ⟨[], [], b, rfl, h, rfl⟩
  | cons e es ih =>
    obtain ⟨ms, hs, b', hrun, hready, haccepted⟩ := h.exists_serving_one e
    obtain ⟨ms', hs', b'', hrun', hready', haccepted'⟩ := ih hready
    refine ⟨ms ++ ms', hs ++ hs', b'', takeAll?_append hrun hrun', hready', ?_⟩
    rw [acceptedIn_append, haccepted, haccepted']
    rfl

/-- A bus that was not run takes any handlers. -/
theorem takeAll?_register (more : List (Handler β)) {b : Local β} (hstage : b.stage = .assembling) :
    takeAll? move? b (more.map .register) =
      some (more.map fun h => .registered h.name, { b with table := b.table ++ more }) := by
  induction more generalizing b with
  | nil =>
    show some (_, b) = some (_, { b with table := b.table ++ [] })
    rw [List.append_nil]
    rfl
  | cons k more ih =>
    have hregister : b.move? (.register k) =
        some ([.registered k.name], { b with table := b.table ++ [k] }) := by
      rw [move?, register, hstage]
    have hrest := ih (b := { b with table := b.table ++ [k] }) hstage
    have hrun := takeAll?_cons hregister hrest
    rwa [List.append_assoc] at hrun

/-- Only what is registered before the bus runs is registered in time. -/
theorem registrations_register_run (table : List (Handler β)) (ms : List (Move β)) :
    registrations (table.map .register ++ .run :: ms) = table := by
  induction table with
  | nil => rfl
  | cons k table ih => exact congrArg (k :: ·) ih

theorem exists_delivers (capacity : Nat) (table : List (Handler β)) (es : List Event) :
    ∃ ds, Delivers capacity table es ds := by
  let registered : Local β := { (Local.new capacity : Local β) with table := [] ++ table }
  have hregister : takeAll? move? (Local.new capacity) (table.map .register) =
      some (table.map fun h => .registered h.name, registered) := takeAll?_register table rfl
  have hready : Ready table { registered with stage := .working .idle, attached := true } :=
    ⟨rfl, rfl, rfl, rfl, rfl⟩
  obtain ⟨ms, hs, b, hrun, hready, haccepted⟩ := hready.exists_serving_all es
  have hmoves := takeAll?_append hregister (takeAll?_cons (m := .run) rfl hrun)
  refine ⟨_, _, _, b, (moves?_eq _ _).trans hmoves, registrations_register_run table ms, ?_,
    hready.queue, hready.stage, rfl⟩
  have hquiet : acceptedIn (table.map fun h => (.registered h.name : Happening β)) = [] := by
    rw [acceptedIn, List.filterMap_map]
    exact List.filterMap_eq_nil_iff.2 fun _ _ => rfl
  rw [acceptedIn_append, hquiet, acceptedIn_append, haccepted]
  rfl

theorem delivers_iff {capacity : Nat} {es : List Event} {ds : List (Delivery β)} :
    Delivers capacity table es ds ↔
      ds = es.flatMap fun e => (filedUnder table e.name).map fun h => h.give e := by
  refine ⟨Delivers.eq, ?_⟩
  rintro rfl
  obtain ⟨ds, hds⟩ := exists_delivers capacity table es
  exact hds.eq ▸ hds

end Local

end TupleSync.Bus
