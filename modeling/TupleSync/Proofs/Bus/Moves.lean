import TupleSync.Bus.Broker

/-!
# Runs

**A run is a list of moves, each taken where the one before it has led.** Both buses are step systems of
this kind, so what is said here of the first move of a run and of two runs in a row is said of both.
-/

set_option autoImplicit false

namespace TupleSync.Bus

/-- Where one more is put at the end, a split is at that one, or within those before it. -/
theorem concat_eq_split_iff {α : Type} {xs before after : List α} {x y : α} :
    xs ++ [y] = before ++ x :: after ↔
      (xs = before ∧ y = x ∧ after = []) ∨ ∃ rest, after = rest ++ [y] ∧ xs = before ++ x :: rest := by
  constructor
  · intro h
    rcases List.eq_nil_or_concat after with rfl | ⟨rest, last, rfl⟩
    · obtain ⟨hxs, hlast⟩ := List.append_inj' h rfl
      exact Or.inl ⟨hxs, (List.cons.inj hlast).1, rfl⟩
    · rw [List.concat_eq_append, ← List.cons_append, ← List.append_assoc] at h
      obtain ⟨hxs, hlast⟩ := List.append_inj' h rfl
      rw [(List.cons.inj hlast).1]
      exact Or.inr ⟨rest, List.concat_eq_append, hxs⟩
  · intro h
    rcases h with ⟨rfl, rfl, rfl⟩ | ⟨rest, rfl, rfl⟩
    · rfl
    · rw [List.append_assoc, List.cons_append]

section

variable {σ μ η : Type}

/-- Takes moves in order; there is no result if one of them cannot be taken. -/
def takeAll? (move? : σ → μ → Option (List η × σ)) (s : σ) : List μ → Option (List η × σ)
  | [] => some ([], s)
  | m :: rest => do
    let (first, s) ← move? s m
    let (more, s) ← takeAll? move? s rest
    return (first ++ more, s)

variable {move? : σ → μ → Option (List η × σ)} {s s' s'' : σ} {m : μ} {ms ms' : List μ}
  {hs hs' : List η}

theorem takeAll?_cons (h : move? s m = some (hs, s')) (h' : takeAll? move? s' ms = some (hs', s'')) :
    takeAll? move? s (m :: ms) = some (hs ++ hs', s'') := by
  rw [takeAll?, h]
  show (takeAll? move? s' ms >>= fun p => some (hs ++ p.1, p.2)) = _
  rw [h']
  rfl

/-- A run that begins with a move takes it, and the rest of the run from there. -/
theorem exists_of_takeAll?_cons (h : takeAll? move? s (m :: ms) = some (hs, s')) :
    ∃ first between more, move? s m = some (first, between) ∧
      takeAll? move? between ms = some (more, s') ∧ hs = first ++ more := by
  rw [takeAll?, Option.bind_eq_bind, Option.bind_eq_some_iff] at h
  obtain ⟨⟨first, between⟩, hfirst, h⟩ := h
  obtain ⟨⟨more, last⟩, hmore, h⟩ := Option.bind_eq_some_iff.1 h
  cases h
  exact ⟨first, between, more, hfirst, hmore, rfl⟩

theorem takeAll?_append (h : takeAll? move? s ms = some (hs, s'))
    (h' : takeAll? move? s' ms' = some (hs', s'')) :
    takeAll? move? s (ms ++ ms') = some (hs ++ hs', s'') := by
  induction ms generalizing s hs with
  | nil =>
    cases h
    exact h'
  | cons m ms ih =>
    obtain ⟨first, between, more, hfirst, hmore, rfl⟩ := exists_of_takeAll?_cons h
    rw [List.append_assoc]
    exact takeAll?_cons hfirst (ih hmore)

/-- A run of moves and then others is a run of those and a run of these from there. -/
theorem exists_of_takeAll?_append (h : takeAll? move? s (ms ++ ms') = some (hs, s')) :
    ∃ first between more, takeAll? move? s ms = some (first, between) ∧
      takeAll? move? between ms' = some (more, s') ∧ hs = first ++ more := by
  induction ms generalizing s hs with
  | nil => exact ⟨[], s, hs, rfl, h, rfl⟩
  | cons m ms ih =>
    obtain ⟨one, next, others, hone, hothers, rfl⟩ := exists_of_takeAll?_cons h
    obtain ⟨first, between, more, hfirst, hmore, rfl⟩ := ih hothers
    exact ⟨one ++ first, between, more, takeAll?_cons hone hfirst, hmore,
      (List.append_assoc ..).symm⟩

/-- **What holds at first and is kept by every move holds after every run.** A law speaks of the moves
and happenings so far and of the state they have led to. -/
theorem takeAll?_induct (Law : List μ → List η → σ → Prop)
    (hmove : ∀ ms hs between m new last, takeAll? move? s ms = some (hs, between) →
      Law ms hs between → move? between m = some (new, last) → Law (ms ++ [m]) (hs ++ new) last)
    (hlaw : Law [] [] s) (h : takeAll? move? s ms = some (hs, s')) : Law ms hs s' := by
  -- the moves that are left are taken from where those before have led
  suffices hrest : ∀ before past between, takeAll? move? s before = some (past, between) →
      Law before past between → ∀ more, takeAll? move? between ms = some (more, s') →
        Law (before ++ ms) (past ++ more) s' from hrest [] [] s rfl hlaw hs h
  clear h hlaw
  induction ms with
  | nil =>
    intro before past between _ hlaw more hmore
    cases hmore
    rwa [List.append_nil, List.append_nil]
  | cons m rest ih =>
    intro before past between hbefore hlaw more hmore
    obtain ⟨first, next, others, hfirst, hothers, rfl⟩ := exists_of_takeAll?_cons hmore
    have hone : takeAll? move? between [m] = some (first ++ [], next) := takeAll?_cons hfirst rfl
    rw [List.append_nil] at hone
    rw [List.append_cons before, ← List.append_assoc]
    exact ih _ _ next (takeAll?_append hbefore hone)
      (hmove before past between m first next hbefore hlaw hfirst) others hothers

end

variable {β : Type}

theorem Local.moves?_eq (b : Local β) (ms : List (Local.Move β)) :
    b.moves? ms = takeAll? Local.move? b ms := by
  induction ms generalizing b with
  | nil => rfl
  | cons m ms ih =>
    rw [Local.moves?, takeAll?]
    simp only [ih]

theorem Broker.moves?_eq (b : Broker β) (ms : List (Broker.Move β)) :
    b.moves? ms = takeAll? Broker.move? b ms := by
  induction ms generalizing b with
  | nil => rfl
  | cons m ms ih =>
    rw [Broker.moves?, takeAll?]
    simp only [ih]

end TupleSync.Bus
