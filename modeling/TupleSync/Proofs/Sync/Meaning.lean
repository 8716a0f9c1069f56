import TupleSync.Proofs.Sync.Dispatch
import TupleSync.Proofs.Sync.Step

/-!
# What a run of events means

**The store holds what the events said last.** A fact is stated by some events and retracted by others.
After any run from an empty store the tuple of a fact is there exactly if some event of the run stated
it and none after that one retracted it, and there are no tuples but those of facts.

An update that names a parent both removes the tuple of that link and writes it again. It does not count
as a retraction of it: `retracts_iff` takes what an event removes and leaves out what it states itself.
-/

set_option autoImplicit false

namespace TupleSync
namespace Sync

/-! ## Retractions -/

/-- The event deletes a record that the fact is about. -/
def DeletesEnd (e : Event) (f : Fact) : Prop :=
  ∃ kind id, e = .deleted kind id ∧ IsSet id ∧ (kind, id) ∈ f.ends

/-- The event retracts the fact: it deletes one of its records, gives the child of a link another
parent, or ends an affiliation. -/
def Retracts (e : Event) (f : Fact) : Prop :=
  DeletesEnd e f ∨
    match f with
    | .made _ _ _ => False
    | .link l =>
      ∃ r parent, e = .updated r ∧ r.id = l.child ∧ ForeignKey r l.kind parent ∧ IsSet parent ∧
        parent ≠ l.parent
    | .affiliation m => e = .unlinked m

/-- The three ways to retract: by a deletion, by another parent, by the end of an affiliation. -/
theorem retracts_cases {e : Event} {f : Fact} (h : Retracts e f) :
    DeletesEnd e f ∨
      (∃ l r parent, f = .link l ∧ e = .updated r ∧ r.id = l.child ∧ ForeignKey r l.kind parent ∧
        IsSet parent ∧ parent ≠ l.parent) ∨
      ∃ m, f = .affiliation m ∧ e = .unlinked m := by
  rcases h with h | h
  · exact Or.inl h
  · cases f with
    | made => exact h.elim
    | link l =>
      obtain ⟨r, parent, h⟩ := h
      exact Or.inr (Or.inl ⟨l, r, parent, rfl, h⟩)
    | affiliation m => exact Or.inr (Or.inr ⟨m, rfl, h⟩)

/-- What an event takes away and does not write again is what it retracts. -/
theorem retracts_iff {e : Event} {f : Fact} :
    Retracts e f ↔ Removes e f.tuple ∧ ¬States e f := by
  constructor
  · intro h
    rcases retracts_cases h with ⟨kind, id, rfl, hset, hend⟩ |
      ⟨l, r, parent, rfl, rfl, hchild, hkey, hset, hne⟩ | ⟨m, rfl, rfl⟩
    · exact ⟨⟨hset, names_tuple_iff.2 hend⟩, not_states_deleted f⟩
    · refine ⟨⟨l.kind, parent, hkey, hset, hchild ▸ covers_linkTuple l⟩, ?_⟩
      intro hboth
      obtain ⟨-, e, he, -, hkey'⟩ := hboth
      obtain rfl : r = e := by
        rcases he with he | he <;> cases he
        rfl
      exact hne (hkey.unique hkey')
    · exact ⟨rfl, not_states_unlinked _⟩
  · intro hboth
    obtain ⟨hrem, hnot⟩ := hboth
    cases e with
    | created r => exact hrem.elim
    | updated r =>
      obtain ⟨k, parent, hkey, hset, hcov⟩ := hrem
      obtain ⟨stale, rfl⟩ := covers_tuple_iff.1 hcov
      refine Or.inr ⟨r, parent, rfl, rfl, hkey, hset, ?_⟩
      rintro rfl
      exact hnot ⟨hset, r, Or.inr rfl, rfl, hkey⟩
    | deleted kind id => exact Or.inl ⟨kind, id, rfl, hrem.1, names_tuple_iff.1 hrem.2⟩
    | linked m => exact hrem.elim
    | unlinked m =>
      obtain rfl := Fact.tuple_inj.1 (show f.tuple = (Fact.affiliation m).tuple from hrem)
      exact Or.inr rfl

/-! ## Runs -/

/-- An event of the run says so, and no event after that one denies it. -/
def LastWord (affirms denies : Event → Prop) (events : List Event) : Prop :=
  ∃ before e rest, events = before ++ e :: rest ∧ affirms e ∧ ∀ d ∈ rest, ¬denies d

theorem not_lastWord_nil {affirms denies : Event → Prop} : ¬LastWord affirms denies [] := by
  intro hboth
  obtain ⟨before, e, rest, h, -⟩ := hboth
  simp at h

/-- The word that stands is the first event's, or one of a later event. -/
theorem lastWord_cons_iff {affirms denies : Event → Prop} {e : Event} {events : List Event} :
    LastWord affirms denies (e :: events) ↔
      (affirms e ∧ ∀ d ∈ events, ¬denies d) ∨ LastWord affirms denies events := by
  constructor
  · intro hboth
    obtain ⟨before, e', rest, h, haffirms, hrest⟩ := hboth
    cases before with
    | nil =>
      obtain ⟨rfl, rfl⟩ := List.cons.inj h
      exact Or.inl ⟨haffirms, hrest⟩
    | cons _ before =>
      obtain ⟨rfl, rfl⟩ := List.cons.inj h
      exact Or.inr ⟨before, e', rest, rfl, haffirms, hrest⟩
  · intro hor
    rcases hor with ⟨haffirms, hrest⟩ | ⟨before, e', rest, rfl, haffirms, hrest⟩
    · exact ⟨[], e, events, rfl, haffirms, hrest⟩
    · exact ⟨e :: before, e', rest, rfl, haffirms, hrest⟩

section

variable {s : MemoryStore} {f : Fact} {t : Tuple}

/-- One step: a fact stands after an event that states it, or that leaves it standing. -/
theorem tuple_mem_after_iff {e : Event} :
    f.tuple ∈ after e s ↔ States e f ∨ (f.tuple ∈ s ∧ ¬Retracts e f) := by
  have hstates : (∃ g, States e g ∧ f.tuple = g.tuple) ↔ States e f := by
    constructor
    · intro hboth
      obtain ⟨g, hg, h⟩ := hboth
      rwa [Fact.tuple_inj.1 h]
    · exact fun h => ⟨f, h, rfl⟩
  rw [mem_after_iff, hstates, retracts_iff]
  by_cases h : States e f
  · simp only [h, true_or]
  · simp only [h, false_or, not_false_iff, and_true]

/-- A whole run: what it said last, or else what was there and is not denied. -/
theorem tuple_mem_afterAll_iff {events : List Event} :
    f.tuple ∈ afterAll events s ↔
      LastWord (States · f) (Retracts · f) events ∨
        (f.tuple ∈ s ∧ ∀ d ∈ events, ¬Retracts d f) := by
  induction events generalizing s with
  | nil =>
    rw [afterAll_nil, or_iff_right not_lastWord_nil]
    simp
  | cons e events ih =>
    rw [afterAll_cons, ih, tuple_mem_after_iff, lastWord_cons_iff, List.forall_mem_cons]
    constructor
    · intro hor
      rcases hor with hlater | ⟨hstates | ⟨hs, hkept⟩, hrest⟩
      · exact Or.inl (Or.inr hlater)
      · exact Or.inl (Or.inl ⟨hstates, hrest⟩)
      · exact Or.inr ⟨hs, hkept, hrest⟩
    · intro hor
      rcases hor with (⟨hstates, hrest⟩ | hlater) | ⟨hs, hkept, hrest⟩
      · exact Or.inr ⟨Or.inl hstates, hrest⟩
      · exact Or.inl hlater
      · exact Or.inr ⟨Or.inr ⟨hs, hkept⟩, hrest⟩

/-- A tuple that a run leaves behind states a fact, or was there before the run. -/
theorem fact_or_mem_of_mem_afterAll {events : List Event} (h : t ∈ afterAll events s) :
    (∃ f : Fact, t = f.tuple) ∨ t ∈ s := by
  induction events generalizing s with
  | nil => exact Or.inr h
  | cons e events ih =>
    rw [afterAll_cons] at h
    rcases ih h with hfact | hafter
    · exact Or.inl hfact
    · rcases mem_after_iff.1 hafter with ⟨f, -, hf⟩ | ⟨hs, -⟩
      · exact Or.inl ⟨f, hf⟩
      · exact Or.inr hs

end

/-- **The meaning of a run.** Any events, handled in order by the registered handlers from an empty
store, leave the tuples of the facts whose last word in the run is a statement, and no other tuple. -/
theorem mem_run_iff_lastWord (events : List Event) :
    let s := ((dispatchAll handlers events).run MemoryStore.empty).2
    (∀ f : Fact, f.tuple ∈ s ↔ LastWord (States · f) (Retracts · f) events) ∧
      ∀ t ∈ s, ∃ f : Fact, t = f.tuple := by
  intro s
  have hs : s = afterAll events MemoryStore.empty := by
    rw [afterAll, ← dispatchAll_handlers]
  rw [hs]
  constructor
  · intro f
    rw [tuple_mem_afterAll_iff]
    exact or_iff_left fun h => MemoryStore.not_mem_empty _ h.1
  · intro t ht
    exact (fact_or_mem_of_mem_afterAll ht).resolve_right (MemoryStore.not_mem_empty t)

end Sync
end TupleSync
