import TupleSync.Proofs.Bus.Account
import TupleSync.Proofs.Bus.Handler

/-!
# Who is given an event

**The worker serves one event after the other, and serving an event is to give it to the handlers of its
name, all of them and in the order of their registration.** `service` is what that leaves in the account
of a run; only the last event can be served in part, while the worker is at it or because a handler
failed. Where handlers are registered by the variant that they take, to be given an event is to be run
with it, and the account is one of the bodies that were run.

The handlers are those that were registered before anything froze the table, so what is said of the table
is said of the moves of the run.
-/

set_option autoImplicit false

namespace TupleSync.Bus
namespace Local

variable {β : Type} {hs new : List (Happening β)} {b b' : Local β} {m : Move β} {ms : List (Move β)}

/-! ## Registrations -/

/-- The moves after which no handler is registered any more. -/
def Move.freezes : Move β → Bool
  | .run => true
  | .shutdown => true
  | _ => false

def Move.handler? : Move β → Option (Handler β)
  | .register h => some h
  | _ => none

/-- The handlers that are registered in time, in order. -/
def registrations : List (Move β) → List (Handler β)
  | [] => []
  | m :: rest => if m.freezes then [] else m.handler?.toList ++ registrations rest

theorem registrations_append_of_open (h : ∀ m ∈ ms, m.freezes = false) (more : List (Move β)) :
    registrations (ms ++ more) = registrations ms ++ registrations more := by
  induction ms with
  | nil => rfl
  | cons m rest ih =>
    obtain ⟨hm, hrest⟩ := List.forall_mem_cons.1 h
    simp [registrations, hm, ih hrest]

theorem registrations_append_of_frozen (h : ∃ m ∈ ms, m.freezes = true) (more : List (Move β)) :
    registrations (ms ++ more) = registrations ms := by
  induction ms with
  | nil =>
    obtain ⟨m, hm, _⟩ := h
    exact absurd hm List.not_mem_nil
  | cons m rest ih =>
    cases hfreezes : m.freezes with
    | true => simp [registrations, hfreezes]
    | false =>
      obtain ⟨k, hk, hkfreezes⟩ := h
      have hrest : k ∈ rest := by
        rcases List.mem_cons.1 hk with rfl | hk
        · rw [hfreezes] at hkfreezes
          cases hkfreezes
        · exact hk
      simp [registrations, hfreezes, ih ⟨k, hrest, hkfreezes⟩]

/-- The table holds the registrations, and is open to more as long as nothing has frozen it. -/
structure Tabled (ms : List (Move β)) (b : Local β) : Prop where
  table : b.table = registrations ms
  openTo : b.stage = .assembling ↔ ∀ m ∈ ms, m.freezes = false

/-- While the table is open a move adds its handler, if it has one. -/
theorem Tabled.of_open (h : Tabled ms b) (hstage : b.stage = .assembling) (hm : m.freezes = false)
    (htable : b'.table = b.table ++ m.handler?.toList) (hstage' : b'.stage = .assembling) :
    Tabled (ms ++ [m]) b' := by
  have hopen := h.openTo.1 hstage
  refine ⟨?_, iff_of_true hstage' ?_⟩
  · rw [registrations_append_of_open hopen, htable, h.table]
    simp [registrations, hm]
  · exact List.forall_mem_append.2 ⟨hopen, List.forall_mem_singleton.2 hm⟩

/-- A move that freezes the table, or finds it frozen, leaves it as it is. -/
theorem Tabled.of_frozen (h : Tabled ms b) (hm : b.stage = .assembling → m.freezes = true)
    (htable : b'.table = b.table) (hstage' : b'.stage ≠ .assembling) : Tabled (ms ++ [m]) b' := by
  by_cases hopen : ∀ k ∈ ms, k.freezes = false
  · -- the table was open until now, so it is this move that freezes it
    have hfreezes := hm (h.openTo.2 hopen)
    refine ⟨?_, iff_of_false hstage' ?_⟩
    · rw [registrations_append_of_open hopen, htable, h.table]
      simp [registrations, hfreezes]
    · intro hall
      rw [hall m (List.mem_append_right _ List.mem_cons_self)] at hfreezes
      cases hfreezes
  · have hfrozen : ∃ k ∈ ms, k.freezes = true := by simpa using hopen
    refine ⟨?_, iff_of_false hstage' ?_⟩
    · rw [registrations_append_of_frozen hfrozen, htable, h.table]
    · exact fun hall => hopen fun k hk => hall k (List.mem_append_left _ hk)

theorem Tabled.of_quiet (h : Tabled ms b) (hm : m.freezes = false) (hhandler : m.handler? = none)
    (htable : b'.table = b.table) (hstage : b'.stage = b.stage) : Tabled (ms ++ [m]) b' := by
  by_cases hopen : b.stage = .assembling
  · refine h.of_open hopen hm ?_ (hstage.trans hopen)
    rw [htable, hhandler]
    exact (List.append_nil _).symm
  · exact h.of_frozen (fun ho => absurd ho hopen) htable (hstage ▸ hopen)

theorem Tabled.step (h : Tabled ms b) (hstep : Step b m new b') : Tabled (ms ++ [m]) b' := by
  -- the worker's steps are taken from and lead to stages in which the table is frozen
  have hfrozen : ∀ {w : Worker β}, b.stage = .working w → b.stage = .assembling → m.freezes = true := by
    intro w hw ha
    rw [hw] at ha
    cases ha
  cases hstep with
  | registered k hstage => exact h.of_open hstage rfl rfl hstage
  | started hstage => exact h.of_frozen (fun _ => rfl) rfl nofun
  | registerRefused k hstage => exact h.of_frozen (fun ho => absurd ho hstage) rfl hstage
  | runRefused hstage => exact h.of_frozen (fun _ => rfl) rfl hstage
  | accepted e hopen hroom => exact h.of_quiet rfl rfl rfl rfl
  | dropped e hopen => exact h.of_quiet rfl rfl rfl rfl
  | signalled => exact h.of_quiet rfl rfl rfl rfl
  | closed hstage => exact h.of_frozen (fun _ => rfl) rfl nofun
  | asked hstage => exact h.of_frozen (fun _ => rfl) rfl hstage
  | joined seen hseen hclosing hrunning => exact h.of_quiet rfl rfl rfl rfl
  | givenUp hclosing hattached => exact h.of_quiet rfl rfl rfl rfl
  | halted why hstage hwhy => exact h.of_frozen (hfrozen hstage) rfl nofun
  | took e rest hstage hsignalled hstopping hqueue => exact h.of_frozen (hfrozen hstage) rfl nofun
  | passed e rest hstage hsignalled hstopping hqueue hnone => exact h.of_quiet rfl rfl rfl rfl
  | delivered e k rest hstage => exact h.of_frozen (hfrozen hstage) rfl nofun
  | served e hstage => exact h.of_frozen (hfrozen hstage) rfl nofun
  | finished e k rest hstage => exact h.of_frozen (hfrozen hstage) rfl nofun
  | failed e k rest hstage => exact h.of_frozen (hfrozen hstage) rfl nofun

/-! ## Services -/

/-- What the worker does with one event, from beginning to end. -/
def service (table : List (Handler β)) (e : Event) : List (Happening β) :=
  .taken e :: (Handler.filedUnder table e.name).map fun h => .delivered (h.give e)

theorem takenIn_service (table : List (Handler β)) (e : Event) : takenIn (service table e) = [e] := by
  have hnone : takenIn ((Handler.filedUnder table e.name).map fun h => .delivered (h.give e)) = [] := by
    rw [takenIn, List.filterMap_map]
    exact List.filterMap_eq_nil_iff.2 fun _ _ => rfl
  show e :: takenIn _ = [e]
  rw [hnone]

theorem takenIn_flatMap_service (table : List (Handler β)) (es : List Event) :
    takenIn (es.flatMap (service table)) = es := by
  induction es with
  | nil => rfl
  | cons e rest ih =>
    rw [List.flatMap_cons, takenIn_append, takenIn_service, ih]
    rfl

theorem deliveriesIn_map_give (e : Event) (handlers : List (Handler β)) :
    deliveriesIn (handlers.map fun h => .delivered (h.give e)) = handlers.map fun h => h.give e := by
  rw [deliveriesIn, List.filterMap_map]
  exact congrFun List.filterMap_eq_map handlers

theorem deliveriesIn_flatMap_service (table : List (Handler β)) (es : List Event) :
    deliveriesIn (es.flatMap (service table)) =
      es.flatMap fun e => (Handler.filedUnder table e.name).map fun h => h.give e := by
  rw [deliveriesIn, List.filterMap_flatMap]
  exact congrArg (es.flatMap ·) (funext fun e => deliveriesIn_map_give e _)

/-- **Serving events is to run the bodies that are registered under their names.** -/
theorem deliveriesIn_flatMap_service_typed (regs : List (EventName × β)) (es : List Event) :
    deliveriesIn (es.flatMap (service (typed regs))) = es.flatMap (invocations regs) := by
  rw [deliveriesIn_flatMap_service]
  exact congrArg (es.flatMap ·) (funext (map_give_filedUnder_typed regs))

/-- What it has done with one event when these handlers of its name are left. -/
def Partly (table : List (Handler β)) (e : Event) (left : List (Handler β))
    (part : List (Happening β)) : Prop :=
  ∃ given, Handler.filedUnder table e.name = given ++ left ∧
    part = .taken e :: given.map fun h => .delivered (h.give e)

/-- What it has done with the event that it is serving, or was serving when a handler failed. -/
def Underway (table : List (Handler β)) : Stage β → List (Happening β) → Prop
  | .working (.serving e _ rest), part => Partly table e rest part
  | .over true, part => ∃ e rest, Partly table e rest part
  | _, part => part = []

theorem Partly.deliveriesIn_prefix {regs : List (EventName × β)} {e : Event} {left : List (Handler β)}
    {part : List (Happening β)} (h : Partly (typed regs) e left part) {e' : Event}
    (he : e' ∈ takenIn part) : deliveriesIn part <+: invocations regs e' := by
  obtain ⟨given, hgiven, rfl⟩ := h
  have htaken : takenIn (given.map fun h => .delivered (h.give e)) = [] := by
    rw [takenIn, List.filterMap_map]
    exact List.filterMap_eq_nil_iff.2 fun _ _ => rfl
  have he : e' ∈ e :: takenIn (given.map fun h => .delivered (h.give e)) := he
  rw [htaken, List.mem_singleton] at he
  subst he
  show deliveriesIn (given.map fun h => .delivered (h.give e')) <+: _
  rw [deliveriesIn_map_give, ← map_give_filedUnder_typed, hgiven, List.map_append]
  exact List.prefix_append ..

/-- An event that is served in part has been given to the first of those that are registered for it. -/
theorem Underway.deliveriesIn_prefix {regs : List (EventName × β)} {stage : Stage β}
    {part : List (Happening β)} (h : Underway (typed regs) stage part) {e : Event}
    (he : e ∈ takenIn part) : deliveriesIn part <+: invocations regs e := by
  unfold Underway at h
  split at h
  · exact h.deliveriesIn_prefix he
  · obtain ⟨e', left, hpart⟩ := h
    exact hpart.deliveriesIn_prefix he
  · rw [h] at he
    cases he

/-- The account of the services: whole ones in order, and at most one that is underway. -/
structure Served (hs : List (Happening β)) (b : Local β) : Prop where
  sum : ∃ (done : List Event) (part : List (Happening β)),
    servicesIn hs = done.flatMap (service b.table) ++ part ∧ Underway b.table b.stage part
  unserved : b.stage = .assembling → servicesIn hs = []

theorem Served.of_quiet (h : Served hs b) (htable : b'.table = b.table)
    (hnew : servicesIn new = []) (hstage : b'.stage = .assembling → b.stage = .assembling)
    (hpart : ∀ part, Underway b.table b.stage part → Underway b.table b'.stage part) :
    Served (hs ++ new) b' := by
  obtain ⟨done, part, hsum, hunder⟩ := h.sum
  refine ⟨⟨done, part, ?_, ?_⟩, ?_⟩
  · rw [servicesIn_append, hnew, List.append_nil, hsum, htable]
  · rw [htable]
    exact hpart part hunder
  · intro ho
    rw [servicesIn_append, hnew, List.append_nil]
    exact h.unserved (hstage ho)

theorem Served.exists_of_idle (h : Served hs b) (hstage : b.stage = .working .idle) :
    ∃ done : List Event, servicesIn hs = done.flatMap (service b.table) := by
  obtain ⟨done, part, hsum, hunder⟩ := h.sum
  rw [hstage] at hunder
  have hnone : part = [] := hunder
  refine ⟨done, ?_⟩
  rw [hsum, hnone, List.append_nil]

/-- A worker that serves an event has given it to the handlers that are not left. -/
theorem Served.exists_of_serving (h : Served hs b) {e : Event} {current : Option (Handler β)}
    {rest : List (Handler β)} (hstage : b.stage = .working (.serving e current rest)) :
    ∃ (done : List Event) (given : List (Handler β)),
      Handler.filedUnder b.table e.name = given ++ rest ∧
        servicesIn hs = done.flatMap (service b.table) ++
          .taken e :: given.map fun h => .delivered (h.give e) := by
  obtain ⟨done, part, hsum, hunder⟩ := h.sum
  rw [hstage] at hunder
  obtain ⟨given, hgiven, rfl⟩ := hunder
  exact ⟨done, given, hgiven, hsum⟩

theorem Served.of_taking (h : Served hs b) (hstage : b.stage = .working .idle) {e : Event}
    (htable : b'.table = b.table) (hnew : servicesIn new = [.taken e])
    (hstage' : b'.stage = .working (.serving e none (Handler.filedUnder b.table e.name))) :
    Served (hs ++ new) b' := by
  obtain ⟨done, hdone⟩ := h.exists_of_idle hstage
  refine ⟨⟨done, [.taken e], ?_, ?_⟩, ?_⟩
  · rw [servicesIn_append, hdone, hnew, htable]
  · rw [hstage', htable]
    exact ⟨[], rfl, rfl⟩
  · intro ho
    rw [hstage'] at ho
    cases ho

theorem Served.of_giving (h : Served hs b) {e : Event} {k : Handler β} {rest : List (Handler β)}
    (hstage : b.stage = .working (.serving e none (k :: rest))) (htable : b'.table = b.table)
    (hnew : servicesIn new = [.delivered (k.give e)])
    (hstage' : b'.stage = .working (.serving e (some k) rest)) : Served (hs ++ new) b' := by
  obtain ⟨done, given, hgiven, hdone⟩ := h.exists_of_serving hstage
  refine ⟨⟨done, .taken e :: (given ++ [k]).map fun h => .delivered (h.give e), ?_, ?_⟩, ?_⟩
  · rw [servicesIn_append, hdone, hnew, htable, List.append_assoc, List.map_append]
    rfl
  · rw [hstage', htable]
    refine ⟨given ++ [k], ?_, rfl⟩
    rw [hgiven, List.append_assoc]
    rfl
  · intro ho
    rw [hstage'] at ho
    cases ho

/-- The worker is done with events; what was underway before is now whole. -/
theorem Served.of_ending {e : Event} {done : List Event} (hsum : servicesIn (hs ++ new) =
      done.flatMap (service b.table) ++ service b.table e)
    (htable : b'.table = b.table) (hstage' : b'.stage = .working .idle) : Served (hs ++ new) b' := by
  refine ⟨⟨done ++ [e], [], ?_, ?_⟩, ?_⟩
  · rw [hsum, htable, List.flatMap_append, List.flatMap_singleton, List.append_nil]
  · rw [hstage']
    rfl
  · intro ho
    rw [hstage'] at ho
    cases ho

theorem Served.step (h : Served hs b) (hstep : Step b m new b') : Served (hs ++ new) b' := by
  cases hstep with
  | registered k hstage =>
    -- nothing was served, so the account holds of every table
    have hnone : servicesIn (hs ++ [.registered k.name]) = [] := by
      rw [servicesIn_append, h.unserved hstage]
      rfl
    refine ⟨⟨[], [], hnone, ?_⟩, fun _ => hnone⟩
    show Underway _ b.stage []
    rw [hstage]
    rfl
  | started hstage =>
    refine h.of_quiet rfl rfl nofun fun part hpart => ?_
    rw [hstage] at hpart
    exact hpart
  | registerRefused k hstage => exact h.of_quiet rfl rfl id fun _ hpart => hpart
  | runRefused hstage => exact h.of_quiet rfl rfl id fun _ hpart => hpart
  | accepted e hopen hroom => exact h.of_quiet rfl rfl id fun _ hpart => hpart
  | dropped e hopen => exact h.of_quiet rfl rfl id fun _ hpart => hpart
  | signalled => exact h.of_quiet rfl rfl id fun _ hpart => hpart
  | closed hstage =>
    refine h.of_quiet rfl rfl nofun fun part hpart => ?_
    rw [hstage] at hpart
    exact hpart
  | asked hstage => exact h.of_quiet rfl rfl id fun _ hpart => hpart
  | joined seen hseen hclosing hrunning =>
    refine h.of_quiet rfl ?_ id fun _ hpart => hpart
    rcases hseen with rfl | rfl
    · rfl
    · rfl
  | givenUp hclosing hattached => exact h.of_quiet rfl rfl id fun _ hpart => hpart
  | halted why hstage hwhy =>
    refine h.of_quiet rfl ?_ nofun fun part hpart => ?_
    · rcases hwhy with rfl | rfl
      · rfl
      · rfl
    · rw [hstage] at hpart
      exact hpart
  | took e rest hstage hsignalled hstopping hqueue => exact h.of_taking hstage rfl rfl rfl
  | passed e rest hstage hsignalled hstopping hqueue hnone =>
    -- an event without handlers is served as soon as it is taken
    obtain ⟨done, hdone⟩ := h.exists_of_idle hstage
    have hwhole : servicesIn (hs ++ [.taken e, .unhandled e]) =
        done.flatMap (service b.table) ++ service b.table e := by
      rw [servicesIn_append, hdone, service, hnone]
      rfl
    exact Served.of_ending hwhole rfl hstage
  | delivered e k rest hstage => exact h.of_giving hstage rfl rfl rfl
  | served e hstage =>
    obtain ⟨done, given, hgiven, hdone⟩ := h.exists_of_serving hstage
    have hwhole : servicesIn (hs ++ []) =
        done.flatMap (service b.table) ++ service b.table e := by
      rw [List.append_nil, hdone, service, hgiven, List.append_nil]
    exact Served.of_ending hwhole rfl rfl
  | finished e k rest hstage =>
    refine h.of_quiet rfl rfl nofun fun part hpart => ?_
    rw [hstage] at hpart
    exact hpart
  | failed e k rest hstage =>
    refine h.of_quiet rfl rfl nofun fun part hpart => ?_
    rw [hstage] at hpart
    exact ⟨e, rest, hpart⟩

end Local
end TupleSync.Bus
