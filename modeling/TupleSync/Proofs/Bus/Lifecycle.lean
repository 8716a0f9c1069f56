import TupleSync.Proofs.Bus.Delivery

/-!
# The life of a local bus

**A local bus takes handlers until it is run or shut down, runs once, and takes no event after its end.**
Its end is that of the worker; a bus that never had one ends where it is shut down. A worker that is asked
to shut down first finishes the event it is serving, and until then the queue is still there: what is
published meanwhile may be accepted or have to wait, and is given up with the rest. A shutdown that is
given up while it waits takes the worker along, so the next one returns while the worker is still at its
event.
-/

set_option autoImplicit false

namespace TupleSync.Bus

namespace Happening

variable {β : Type}

def isStart : Happening β → Bool
  | started _ _ => true
  | _ => false

/-- The worker is over. -/
def ends : Happening β → Bool
  | cancelled => true
  | stopped => true
  | failed => true
  | _ => false

end Happening

namespace Local

variable {β : Type} {hs new : List (Happening β)} {b b' : Local β} {m : Move β} {ms : List (Move β)}

/-! ## Calls -/

theorem register_eq_ok (h : b.stage = .assembling) (k : Handler β) :
    b.register k = .ok { b with table := b.table ++ [k] } := by
  rw [register, h]

theorem register_eq_error (h : b.stage ≠ .assembling) (k : Handler β) :
    b.register k = .error .registryFrozen := by
  unfold register
  split
  · next hstage => exact absurd hstage h
  · rfl

theorem run_eq_ok (h : b.stage = .assembling) :
    b.run = .ok { b with stage := .working .idle, attached := true } := by
  rw [run, h]

theorem run_eq_error (h : b.stage ≠ .assembling) : b.run = .error .alreadyRunning := by
  unfold run
  split
  · next hstage => exact absurd hstage h
  · rfl

/-- **A handler is taken exactly before the first run or shutdown.** -/
theorem Tabled.register_eq (h : Tabled ms b) (k : Handler β) :
    b.register k = if ∀ m ∈ ms, m.freezes = false then .ok { b with table := b.table ++ [k] }
      else .error .registryFrozen := by
  split
  · next hopen => exact register_eq_ok (h.openTo.2 hopen) k
  · next hfrozen => exact register_eq_error (fun hstage => hfrozen (h.openTo.1 hstage)) k

theorem Tabled.run_eq (h : Tabled ms b) :
    b.run = if ∀ m ∈ ms, m.freezes = false then
      .ok { b with stage := .working .idle, attached := true } else .error .alreadyRunning := by
  split
  · next hopen => exact run_eq_ok (h.openTo.2 hopen)
  · next hfrozen => exact run_eq_error fun hstage => hfrozen (h.openTo.1 hstage)

theorem move?_of_register_refused {k : Handler β} {err : BusError} (h : b.register k = .error err) :
    b.move? (.register k) = some ([], b) := by
  rw [move?, h]

theorem move?_of_run_refused {err : BusError} (h : b.run = .error err) :
    b.move? .run = some ([], b) := by
  rw [move?, h]

/-! ## Beginnings and ends -/

/-- How many workers a bus has had. -/
def Stage.workers : Stage β → Nat
  | .assembling => 0
  | .closed => 0
  | _ => 1

/-- What the past of a bus says of its stage. -/
structure Aged (ms : List (Move β)) (hs : List (Happening β)) (b : Local β) : Prop where
  starts : hs.countP Happening.isStart = Stage.workers b.stage
  ended : ∀ failed, b.stage = .over failed → ∃ h ∈ hs, h.ends = true
  closed : b.stage = .closed → .shutdown ∈ ms

theorem Aged.of_new (n : Nat) : Aged [] [] (Local.new n : Local β) where
  starts := rfl
  ended := by
    intro failed hover
    cases hover
  closed := by
    intro hclosed
    cases hclosed

theorem Aged.of_quiet (h : Aged ms hs b) (hstage : b'.stage = b.stage)
    (hstarts : new.countP Happening.isStart = 0) : Aged (ms ++ [m]) (hs ++ new) b' where
  starts := by rw [List.countP_append, hstarts, h.starts, hstage, Nat.add_zero]
  ended := by
    intro failed hover
    obtain ⟨x, hx, hends⟩ := h.ended failed (hstage ▸ hover)
    exact ⟨x, List.mem_append_left _ hx, hends⟩
  closed := fun hclosed => List.mem_append_left _ (h.closed (hstage ▸ hclosed))

/-- The worker goes on with its work. -/
theorem Aged.of_working (h : Aged ms hs b) {w w' : Worker β} (hstage : b.stage = .working w)
    (hstage' : b'.stage = .working w') (hstarts : new.countP Happening.isStart = 0) :
    Aged (ms ++ [m]) (hs ++ new) b' where
  starts := by rw [List.countP_append, hstarts, h.starts, hstage, hstage']; rfl
  ended := by
    intro failed hover
    rw [hstage'] at hover
    cases hover
  closed := by
    intro hclosed
    rw [hstage'] at hclosed
    cases hclosed

/-- The worker is over. -/
theorem Aged.of_ending (h : Aged ms hs b) {w : Worker β} {failed : Bool} (hstage : b.stage = .working w)
    (hstage' : b'.stage = .over failed) (hstarts : new.countP Happening.isStart = 0)
    (hends : ∃ h ∈ new, h.ends = true) : Aged (ms ++ [m]) (hs ++ new) b' where
  starts := by rw [List.countP_append, hstarts, h.starts, hstage, hstage']; rfl
  ended := by
    intro _ _
    obtain ⟨x, hx, hx'⟩ := hends
    exact ⟨x, List.mem_append_right _ hx, hx'⟩
  closed := by
    intro hclosed
    rw [hstage'] at hclosed
    cases hclosed

theorem Aged.step (h : Aged ms hs b) (hstep : Step b m new b') : Aged (ms ++ [m]) (hs ++ new) b' := by
  cases hstep with
  | started hstage =>
    refine ⟨?_, nofun, nofun⟩
    rw [List.countP_append, h.starts, hstage]
    rfl
  | closed hstage =>
    refine ⟨?_, nofun, fun _ => List.mem_append_right _ (List.mem_singleton_self _)⟩
    rw [List.countP_append, h.starts, hstage]
    rfl
  | joined seen hseen hclosing hrunning =>
    refine h.of_quiet rfl ?_
    rcases hseen with rfl | rfl
    · rfl
    · rfl
  | halted why hstage hwhy =>
    rcases hwhy with rfl | rfl
    · exact h.of_ending hstage rfl rfl ⟨_, List.mem_cons_self, rfl⟩
    · exact h.of_ending hstage rfl rfl ⟨_, List.mem_cons_self, rfl⟩
  | failed e k rest hstage => exact h.of_ending hstage rfl rfl ⟨_, List.mem_cons_self, rfl⟩
  | took e rest hstage hsignalled hstopping hqueue => exact h.of_working hstage rfl rfl
  | delivered e k rest hstage => exact h.of_working hstage rfl rfl
  | served e hstage => exact h.of_working hstage rfl rfl
  | finished e k rest hstage => exact h.of_working hstage rfl rfl
  | _ => exact h.of_quiet rfl rfl

theorem aged_of_moves? {n : Nat} (h : (Local.new n).moves? ms = some (hs, b)) : Aged ms hs b :=
  moves?_induct Aged (fun _ _ _ _ _ _ hlaw hstep => hlaw.step hstep) (.of_new n) h

/-- A bus is closed once its worker is over. -/
theorem isOpen_of_ends (hstep : Step b m new b') (hends : ∃ h ∈ new, h.ends = true) :
    b'.isOpen = false := by
  obtain ⟨x, hx, hends⟩ := hends
  cases hstep with
  | joined seen hseen hclosing hrunning =>
    rcases hseen with rfl | rfl
    · rw [List.mem_singleton.1 hx] at hends
      cases hends
    · rcases List.mem_cons.1 hx with rfl | hx
      · cases hends
      · rw [List.mem_singleton.1 hx] at hends
        cases hends
  | halted why hstage hwhy => rfl
  | failed e k rest hstage => rfl
  | registerRefused | runRefused | signalled | asked | givenUp | served | finished => cases hx
  | passed e rest hstage hsignalled hstopping hqueue hnone =>
    rcases List.mem_cons.1 hx with rfl | hx
    · cases hends
    · rw [List.mem_singleton.1 hx] at hends
      cases hends
  | _ =>
    rw [List.mem_singleton.1 hx] at hends
    cases hends

theorem isOpen_eq_false_of_ends {n : Nat} (h : (Local.new n).moves? ms = some (hs, b))
    (hends : ∃ h ∈ hs, h.ends = true) : b.isOpen = false := by
  refine moves?_induct (fun _ hs c => (∃ h ∈ hs, h.ends = true) → c.isOpen = false) ?_ ?_ h hends
  · rintro before past c m more last hc hstep ⟨x, hx, hends⟩
    rcases List.mem_append.1 hx with hx | hx
    · exact (quiet_of_closed (hc ⟨x, hx, hends⟩) hstep).1
    · exact isOpen_of_ends hstep ⟨x, hx, hends⟩
  · rintro ⟨x, hx, -⟩
    cases hx

/-- **A bus is closed exactly if its worker is over, or it was shut down and never had a worker.** -/
theorem isOpen_eq_false_iff {n : Nat} (h : (Local.new n).moves? ms = some (hs, b)) :
    b.isOpen = false ↔ (∃ h ∈ hs, h.ends = true) ∨
      .shutdown ∈ ms ∧ hs.countP Happening.isStart = 0 := by
  have haged := aged_of_moves? h
  constructor
  · intro hclosed
    cases hstage : b.stage with
    | assembling => simp [isOpen, hstage] at hclosed
    | working w => simp [isOpen, hstage] at hclosed
    | closed =>
      refine Or.inr ⟨haged.closed hstage, ?_⟩
      rw [haged.starts, hstage]
      rfl
    | _ => exact Or.inl (haged.ended _ hstage)
  · rintro (hends | ⟨hshutdown, hnone⟩)
    · exact isOpen_eq_false_of_ends h hends
    · rw [haged.starts] at hnone
      cases hstage : b.stage with
      | assembling =>
        -- a bus that was shut down takes no more handlers
        cases (lawful_of_moves? h).tabled.openTo.1 hstage _ hshutdown
      | closed => simp [isOpen, hstage]
      | _ =>
        rw [hstage] at hnone
        cases hnone

/-! ## After the end -/

/-- **Once a shutdown was given up the next one returns at once**, and the worker goes on. -/
theorem exists_shutdown_of_giveUp {w : Worker β} (hstage : b.stage = .working w)
    (h : b.move? .giveUp = some (hs, b')) :
    ∃ b'', b'.moves? [.shutdown, .join] = some ([.shutDown], b'') ∧ b''.stage = .working w := by
  cases step_of_move? h with
  | givenUp hclosing hattached =>
    have hasked : b.forget.move? .shutdown =
        some ([], { b with stopping := true, attached := false, closing := true }) := by
      simp [move?, requestShutdown, forget, hstage]
    have hjoined : ({ b with stopping := true, attached := false, closing := true } : Local β).move?
        .join = some ([.shutDown], { b with stopping := true, attached := false, closing := false }) := by
      simp [move?, join?, isRunning, forget, hstage]
    rw [moves?_eq]
    exact ⟨_, takeAll?_cons hasked (takeAll?_cons hjoined rfl), hstage⟩

theorem push?_of_closed (h : b.isOpen = false) (e : Event) : b.push? e = some (.dropped e, b) := by
  simp [push?, h]

/-- The record of an event that is lost. -/
def warning (e : Event) : Log.Record :=
  ⟨.warn, "events_bus::local", "local event bus is closed; dropping event",
    [("event", .shown e.name.text)]⟩

/-! ## Whole lives -/

/-- **A local bus lives once.** After any moves of a new bus, and whatever is done with it later:
a handler is taken, and a run accepted, exactly if there was neither a run nor a shutdown before, so at most
one worker is ever started;
a call that is refused changes nothing;
the handlers are those that were registered in time, in order, and the worker has served its events by
them;
and once its worker is over, or it was shut down without ever having had a worker, or a shutdown has
returned and none was given up, everything that is published is lost with a warning and nothing is accepted,
kept or served. Where a shutdown was only asked for, nothing that is still queued or comes after is
taken. -/
theorem lives_once (n : Nat) {before later : List (Move β)} {hs hs' : List (Happening β)}
    {b b' : Local β} (h : (Local.new n).moves? before = some (hs, b))
    (h' : b.moves? later = some (hs', b')) :
    ((∀ k, b.register k = if ∀ m ∈ before, m.freezes = false then .ok { b with table := b.table ++ [k] }
        else .error .registryFrozen) ∧
      (b.run = if ∀ m ∈ before, m.freezes = false then
        .ok { b with stage := .working .idle, attached := true } else .error .alreadyRunning) ∧
      hs.countP Happening.isStart ≤ 1) ∧
    ((∀ k err, b.register k = .error err → b.move? (.register k) = some ([], b)) ∧
      (∀ err, b.run = .error err → b.move? .run = some ([], b))) ∧
    (b.table = registrations before ∧
      ∃ (done : List Event) (part : List (Happening β)),
        servicesIn hs = done.flatMap (service (registrations before)) ++ part ∧
        Underway (registrations before) b.stage part) ∧
    ((∃ h ∈ hs, h.ends = true) ∨ .shutdown ∈ before ∧ hs.countP Happening.isStart = 0 ∨
        .shutDown ∈ hs ∧ .giveUp ∉ before →
      (∀ e, b'.move? (.push e) = some ([.dropped e], b') ∧
        (Happening.dropped e : Happening β).record? = some (warning e)) ∧
      acceptedIn hs' = [] ∧ servicesIn hs' = [] ∧ b'.queue = []) ∧
    (.shutdown ∈ before → takenIn hs' = []) := by
  have hlaw := lawful_of_moves? h
  refine ⟨⟨hlaw.tabled.register_eq, hlaw.tabled.run_eq, ?_⟩,
    ⟨fun k err => move?_of_register_refused, fun err => move?_of_run_refused⟩,
    ⟨hlaw.tabled.table, hlaw.tabled.table ▸ hlaw.served.sum⟩, ?_, ?_⟩
  · rw [(aged_of_moves? h).starts]
    cases b.stage <;> simp [Stage.workers]
  · intro hended
    have hclosed : b.isOpen = false := by
      rcases hended with hover | hnever | ⟨hdown, hkept⟩
      · exact (isOpen_eq_false_iff h).2 (.inl hover)
      · exact (isOpen_eq_false_iff h).2 (.inr hnever)
      · exact hlaw.ended hkept hdown
    obtain ⟨hclosed', haccepted, hservices⟩ := stays_closed hclosed h'
    refine ⟨fun e => ⟨?_, rfl⟩, haccepted, hservices, ?_⟩
    · rw [move?, push?_of_closed hclosed' e]
      rfl
    · -- before and after are one run of the new bus
      have hwhole : (Local.new n).moves? (before ++ later) = some (hs ++ hs', b') := by
        rw [moves?_eq] at h h' ⊢
        exact takeAll?_append h h'
      exact (lawful_of_moves? hwhole).balanced.emptied hclosed'
  · intro hshutdown
    exact takenIn_eq_nil_of_asked (hlaw.asked ⟨_, hshutdown, rfl⟩) h'

/-- After its short life a bus refuses what it took before. -/
theorem lives_once_shortLife :
    ∃ hs b hs' b', (Local.new 1).moves? shortLife = some (hs, b) ∧
      b.moves? [.register (.of (.delete .user) 4), .run, .push (.deleted .user 3)] = some (hs', b') ∧
      b.register (.of (.create .user) 5) = .error .registryFrozen ∧ b.run = .error .alreadyRunning ∧
      hs.countP Happening.isStart ≤ 1 ∧ b'.move? (.push (.deleted .user 4)) =
        some ([.dropped (.deleted .user 4)], b') ∧ acceptedIn hs' = [] := by
  refine ⟨_, _, _, _, rfl, rfl, ?_⟩
  have h := @lives_once Nat 1 shortLife
    [.register (.of (.delete .user) 4), .run, .push (.deleted .user 3)] _ _ _ _ rfl rfl
  have hfrozen : ¬ ∀ m ∈ shortLife, m.freezes = false := by simp [shortLife, Move.freezes]
  have hkept : .giveUp ∉ shortLife := by simp [shortLife]
  have hended := h.2.2.2.1 (.inr (.inr ⟨by simp, hkept⟩))
  exact ⟨(h.1.1 _).trans (if_neg hfrozen), h.1.2.1.trans (if_neg hfrozen), h.1.2.2,
    (hended.1 _).1, hended.2.1⟩

/-- **While a shutdown waits for a running handler the queue is still there**: one event is accepted, and
the next has to wait for room. -/
theorem exists_accepted_after_shutdown :
    ∃ hs b, (Local.new 1).moves? [.register (.of (.delete .user) ()), .run, .push (.deleted .user 7),
        .advance, .advance, .shutdown] = some (hs, b) ∧
      ∃ b', b.move? (.push (.deleted .user 8)) = some ([.accepted (.deleted .user 8)], b') ∧
        b'.move? (.push (.deleted .user 9)) = none :=
  ⟨_, _, rfl, _, rfl, rfl⟩

end Local
end TupleSync.Bus
