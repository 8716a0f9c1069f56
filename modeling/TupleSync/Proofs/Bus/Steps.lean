import TupleSync.Proofs.Bus.Moves

/-!
# The steps of a local bus

**What can happen in one step, case by case.** `Step` lists who can do what in which stage, with the
happenings and the next bus; `step_of_move?` says that a move that can be taken is one of them. Every
law of the bus is proved over `Step`, and no proof after this file opens a move again.
-/

set_option autoImplicit false

namespace TupleSync.Bus
namespace Local

variable {β : Type}

/-- A move of a bus, with what happens and the bus after it. -/
inductive Step (b : Local β) : Move β → List (Happening β) → Local β → Prop where
  | registered (h : Handler β) (hstage : b.stage = .assembling) :
    Step b (.register h) [.registered h.name] { b with table := b.table ++ [h] }
  | started (hstage : b.stage = .assembling) :
    Step b .run [.started b.table.length b.capacity]
      { b with stage := .working .idle, attached := true }
  | registerRefused (h : Handler β) (hstage : b.stage ≠ .assembling) : Step b (.register h) [] b
  | runRefused (hstage : b.stage ≠ .assembling) : Step b .run [] b
  | accepted (e : Event) (hopen : b.isOpen = true) (hroom : b.queue.length < b.capacity) :
    Step b (.push e) [.accepted e] { b with queue := b.queue ++ [e] }
  | dropped (e : Event) (hopen : b.isOpen = false) : Step b (.push e) [.dropped e] b
  | signalled : Step b .signal [] { b with signalled := true }
  | closed (hstage : b.stage = .assembling) :
    Step b .shutdown [.discarded b.queue]
      { b with stage := .closed, queue := [], stopping := true, closing := true }
  | asked (hstage : b.stage ≠ .assembling) :
    Step b .shutdown [] { b with stopping := true, closing := true }
  | joined (seen : List (Happening β)) (hseen : seen = [] ∨ seen = [.failureSeen])
      (hclosing : b.closing = true) (hrunning : b.isRunning = false) :
    Step b .join (seen ++ [.shutDown]) b.forget
  | givenUp (hclosing : b.closing = true) (hattached : b.attached = true) : Step b .giveUp [] b.forget
  | halted (why : Happening β) (hstage : b.stage = .working .idle)
      (hwhy : why = .cancelled ∨ why = .stopped) :
    Step b .advance [why, .discarded b.queue] { b with stage := .over false, queue := [] }
  | took (e : Event) (rest : List Event) (hstage : b.stage = .working .idle)
      (hsignalled : b.signalled = false) (hstopping : b.stopping = false)
      (hqueue : b.queue = e :: rest) :
    Step b .advance [.taken e]
      { b with queue := rest
               stage := .working (.serving e none (Handler.filedUnder b.table e.name)) }
  | passed (e : Event) (rest : List Event) (hstage : b.stage = .working .idle)
      (hsignalled : b.signalled = false) (hstopping : b.stopping = false)
      (hqueue : b.queue = e :: rest) (hnone : Handler.filedUnder b.table e.name = []) :
    Step b .advance [.taken e, .unhandled e] { b with queue := rest }
  | delivered (e : Event) (h : Handler β) (rest : List (Handler β))
      (hstage : b.stage = .working (.serving e none (h :: rest))) :
    Step b .advance [.delivered (h.give e)]
      { b with stage := .working (.serving e (some h) rest) }
  | served (e : Event) (hstage : b.stage = .working (.serving e none [])) :
    Step b .advance [] { b with stage := .working .idle }
  | finished (e : Event) (h : Handler β) (rest : List (Handler β))
      (hstage : b.stage = .working (.serving e (some h) rest)) :
    Step b .finish [] { b with stage := .working (.serving e none rest) }
  | failed (e : Event) (h : Handler β) (rest : List (Handler β))
      (hstage : b.stage = .working (.serving e (some h) rest)) :
    Step b .fail [.failed, .discarded b.queue] { b with stage := .over true, queue := [] }

variable {b b' : Local β} {m : Move β} {hs : List (Happening β)}

theorem step_of_push? {e : Event} (h : b.move? (.push e) = some (hs, b')) :
    Step b (.push e) hs b' := by
  simp only [move?, push?, hasRoom, decide_eq_true_eq] at h
  by_cases hopen : b.isOpen = true
  · -- without room there is no result, and so no step
    by_cases hroom : b.queue.length < b.capacity
    · rw [if_pos hopen, if_pos hroom] at h
      cases h
      exact .accepted e hopen hroom
    · rw [if_pos hopen, if_neg hroom] at h
      cases h
  · rw [if_neg hopen] at h
    cases h
    exact .dropped e (Bool.eq_false_iff.2 hopen)

theorem step_of_join? (h : b.join? = some (hs, b')) : Step b .join hs b' := by
  unfold join? at h
  by_cases hcan : (b.closing && !b.isRunning) = true
  · rw [if_pos hcan] at h
    cases h
    obtain ⟨hclosing, hrunning⟩ := Bool.and_eq_true_iff.1 hcan
    refine .joined _ ?_ hclosing (Bool.not_eq_true' _ ▸ hrunning)
    split
    · split
      · exact Or.inr rfl
      · exact Or.inl rfl
    · exact Or.inl rfl
  · rw [if_neg hcan] at h
    cases h

theorem step_of_advance? (h : b.advance? = some (hs, b')) : Step b .advance hs b' := by
  unfold advance? at h
  split at h
  · next hstage =>
    -- the signal is looked at before the stop, and both before the queue
    split at h
    · cases h
      exact .halted _ hstage (Or.inl rfl)
    · next hsignalled =>
      split at h
      · cases h
        exact .halted _ hstage (Or.inr rfl)
      · next hstopping =>
        rw [Bool.not_eq_true] at hsignalled hstopping
        split at h
        · cases h
        · next e rest hqueue =>
          simp only [List.isEmpty_iff] at h
          split at h
          · next hnone =>
            cases h
            exact .passed e rest hstage hsignalled hstopping hqueue hnone
          · cases h
            exact .took e rest hstage hsignalled hstopping hqueue
  · next e k rest hstage =>
    cases h
    exact .delivered e k rest hstage
  · next e hstage =>
    cases h
    exact .served e hstage
  · cases h

/-- **A move that can be taken is a step.** -/
theorem step_of_move? (h : b.move? m = some (hs, b')) : Step b m hs b' := by
  cases m with
  | register k =>
    simp only [move?, register] at h
    split at h
    · next hok =>
      split at hok
      · next hstage =>
        cases hok
        cases h
        exact .registered k hstage
      · cases hok
    · next hok =>
      cases h
      refine .registerRefused k fun hstage => ?_
      rw [hstage] at hok
      cases hok
  | run =>
    simp only [move?, run] at h
    split at h
    · next hok =>
      split at hok
      · next hstage =>
        cases hok
        cases h
        exact .started hstage
      · cases hok
    · next hok =>
      cases h
      refine .runRefused fun hstage => ?_
      rw [hstage] at hok
      cases hok
  | push e => exact step_of_push? h
  | signal =>
    cases h
    exact .signalled
  | shutdown =>
    simp only [move?, requestShutdown] at h
    split at h
    · next hstage =>
      cases h
      exact .closed hstage
    · next hstage =>
      cases h
      exact .asked hstage
  | join => exact step_of_join? h
  | giveUp =>
    simp only [move?, giveUp?] at h
    split at h
    · next hcan =>
      cases h
      obtain ⟨hclosing, hattached⟩ := Bool.and_eq_true_iff.1 hcan
      exact .givenUp hclosing hattached
    · cases h
  | advance => exact step_of_advance? h
  | finish =>
    simp only [move?, finish?] at h
    split at h
    · next e k rest hstage =>
      cases h
      exact .finished e k rest hstage
    · cases h
  | fail =>
    simp only [move?, fail?] at h
    split at h
    · next e k rest hstage =>
      cases h
      exact .failed e k rest hstage
    · cases h

/-- What is kept by every step is kept by a run. A law speaks of the moves and happenings so far and of
the bus. -/
theorem law_of_moves? (Law : List (Move β) → List (Happening β) → Local β → Prop)
    (hstep : ∀ ms hs b m new b', Law ms hs b → Step b m new b' → Law (ms ++ [m]) (hs ++ new) b')
    {before : List (Move β)} {past : List (Happening β)} (hlaw : Law before past b)
    {ms : List (Move β)} (h : b.moves? ms = some (hs, b')) :
    Law (before ++ ms) (past ++ hs) b' := by
  rw [moves?_eq] at h
  refine takeAll?_induct (fun ms hs c => Law (before ++ ms) (past ++ hs) c) ?_ ?_ h
  · intro ms hs c m new last _ hlaw hmove
    rw [← List.append_assoc, ← List.append_assoc]
    exact hstep _ _ _ _ _ _ hlaw (step_of_move? hmove)
  · rwa [List.append_nil, List.append_nil]

/-- **What holds at first and is kept by every step holds after every run.** -/
theorem moves?_induct (Law : List (Move β) → List (Happening β) → Local β → Prop)
    (hstep : ∀ ms hs b m new b', Law ms hs b → Step b m new b' → Law (ms ++ [m]) (hs ++ new) b')
    (hlaw : Law [] [] b) {ms : List (Move β)} (h : b.moves? ms = some (hs, b')) : Law ms hs b' :=
  law_of_moves? Law hstep hlaw h

end Local
end TupleSync.Bus
