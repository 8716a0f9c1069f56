import TupleSync.Proofs.Sync.Meaning

/-!
# What an update leaves

**An update that names a parent leaves the child with that parent and no other, whatever it had before.**
The stale links go by reference and type, so links to several parents go at once, and so do usersets and
tuples that the synchronizer never wrote. A key that is not set leaves its links as they are.

The keys of one record do not get in each other's way. Their links have different relations, so a tuple
has the shape of one of them at most, and what becomes of it is decided by that key alone.
-/

set_option autoImplicit false

namespace TupleSync
namespace Sync

variable {s : MemoryStore} {t : Tuple} {e : Entity} {l l' : Link}

/-! ## One key and the others -/

/-- A tuple has the shape of one link of a record at most. -/
theorem link_unique_of_covers (hl : l ∈ links e) (hl' : l' ∈ links e)
    (h : l.kind.Covers l.child t) (h' : l'.kind.Covers l'.child t) : l = l' := by
  have hrelation : l.kind.relation = l'.kind.relation :=
    RelationName.text_inj.1 (h.1.symm.trans h'.1)
  exact link_unique hl hl' (LinkKind.relation_inj.1 hrelation)

/-- A link that goes with a tuple of the shape of `l` can only be `l`. -/
theorem exists_mem_links_iff {P : Link → Prop} (hl : l ∈ links e) (hcov : l.kind.Covers l.child t)
    (hP : ∀ l', P l' → l'.kind.Covers l'.child t) : (∃ l' ∈ links e, P l') ↔ P l := by
  constructor
  · rintro ⟨l', hl', h⟩
    rwa [link_unique_of_covers hl hl' hcov (hP l' h)]
  · exact fun h => ⟨l, hl, h⟩

/-! ## Updates -/

theorem mem_after_updated_iff :
    t ∈ after (.updated e) s ↔
      (∃ l ∈ links e, IsSet l.parent ∧ t = l.tuple) ∨
        (t ∈ s ∧ ¬∃ l ∈ links e, IsSet l.parent ∧ l.kind.Covers l.child t) := by
  show t ∈ afterEffects _ (effects (.updated e)) s ↔ _
  rw [afterEffects_updated]
  exact mem_afterEffects_updates (pairwise_links e)

/-- What becomes of a tuple with the shape of a link is decided by that link alone. -/
theorem mem_after_updated_of_covers (hl : l ∈ links e) (hcov : l.kind.Covers l.child t) :
    t ∈ after (.updated e) s ↔ (IsSet l.parent ∧ t = l.tuple) ∨ (t ∈ s ∧ ¬IsSet l.parent) := by
  have hwritten : ∀ l' : Link, IsSet l'.parent ∧ t = l'.tuple → l'.kind.Covers l'.child t := by
    rintro l' ⟨-, rfl⟩
    exact covers_linkTuple l'
  rw [mem_after_updated_iff, exists_mem_links_iff hl hcov hwritten,
    exists_mem_links_iff hl hcov fun _ => And.right, and_iff_left hcov]

/-- A tuple without the shape of a link that is replaced stays where it is, and none is added. -/
theorem mem_after_updated_of_forall (h : ∀ l ∈ links e, IsSet l.parent → ¬l.kind.Covers l.child t) :
    t ∈ after (.updated e) s ↔ t ∈ s := by
  have hwritten : ¬∃ l ∈ links e, IsSet l.parent ∧ t = l.tuple := by
    rintro ⟨l, hl, hset, rfl⟩
    exact h l hl hset (covers_linkTuple l)
  have hcleared : ¬∃ l ∈ links e, IsSet l.parent ∧ l.kind.Covers l.child t := by
    rintro ⟨l, hl, hset, hcov⟩
    exact h l hl hset hcov
  rw [mem_after_updated_iff, or_iff_right hwritten, and_iff_left hcleared]

theorem after_updated_of_links_eq_nil (h : links e = []) (s : MemoryStore) :
    after (.updated e) s = s := by
  show afterEffects _ (effects (.updated e)) s = s
  rw [afterEffects_updated, h]
  rfl

theorem after_dispatch (e : Event) (s : MemoryStore) :
    ((dispatch handlers e).run s).2 = after e s := by
  rw [dispatch_handlers]
  rfl

/-- **An update leaves exactly one parent.** Handled by the registered handlers on any store, an update of
a record leaves, for each foreign key that is set, one tuple with the shape of its link, and it names the
parent; for each key that is not set, the tuples with that shape that there were. Every other tuple stays
as it is, that of every fact but a link that is replaced among them, and a record of a kind without
foreign keys leaves the store alone. -/
theorem update_leaves_one_parent (e : Entity) (s : MemoryStore) :
    let s' := ((dispatch handlers (.updated e)).run s).2
    (∀ k parent, ForeignKey e k parent → IsSet parent →
      ∀ t, t ∈ s' ∧ k.Covers e.id t ↔ t = (Link.mk k e.id parent).tuple) ∧
    (∀ k parent, ForeignKey e k parent → ¬IsSet parent →
      ∀ t, k.Covers e.id t → (t ∈ s' ↔ t ∈ s)) ∧
    (∀ t, (∀ k parent, ForeignKey e k parent → IsSet parent → ¬k.Covers e.id t) →
      (t ∈ s' ↔ t ∈ s)) ∧
    (∀ f : Fact, (∀ k parent, ForeignKey e k parent → IsSet parent →
        ∀ stale, f ≠ .link ⟨k, e.id, stale⟩) →
      (f.tuple ∈ s' ↔ f.tuple ∈ s)) ∧
    (e.kind = .supportGroup ∨ e.kind = .component ∨ e.kind = .user → s' = s) := by
  intro s'
  have hs' : s' = after (.updated e) s := after_dispatch _ _
  have hframe : ∀ t, (∀ k parent, ForeignKey e k parent → IsSet parent → ¬k.Covers e.id t) →
      (t ∈ s' ↔ t ∈ s) := by
    intro t hnone
    rw [hs']
    refine mem_after_updated_of_forall fun l hl hset => ?_
    obtain ⟨hkey, hchild⟩ := mem_links_iff.1 hl
    rw [hchild]
    exact hnone l.kind l.parent hkey hset
  refine ⟨?_, ?_, hframe, ?_, ?_⟩
  · intro k parent hkey hset t
    have hl := hkey.mem_links
    constructor
    · rintro ⟨ht, hcov⟩
      rw [hs', mem_after_updated_of_covers hl hcov] at ht
      exact ht.elim And.right fun hkept => absurd hset hkept.2
    · rintro rfl
      have hcov := covers_linkTuple ⟨k, e.id, parent⟩
      refine ⟨?_, hcov⟩
      rw [hs', mem_after_updated_of_covers hl hcov]
      exact Or.inl ⟨hset, rfl⟩
  · intro k parent hkey hset t hcov
    rw [hs', mem_after_updated_of_covers hkey.mem_links hcov]
    simp only [hset, false_and, false_or, not_false_iff, and_true]
  · -- only the tuple of such a link has the shape of it
    intro f hother
    refine hframe f.tuple fun k parent hkey hset hcov => ?_
    obtain ⟨stale, hf⟩ := covers_tuple_iff.1 hcov
    exact hother k parent hkey hset stale hf
  · intro hkind
    rw [hs', after_updated_of_links_eq_nil]
    cases e with
    | supportGroup | component | user => rfl
    | service | componentVersion | componentInstance | issueMatch =>
      simp [Entity.kind] at hkind

/-- An instance that belongs to two services and to the owners of a third. -/
def threeParents : MemoryStore :=
  ⟨[⟨"service", "1", "related_service", "component_instance", "5"⟩,
    ⟨"service", "2", "related_service", "component_instance", "5"⟩,
    ⟨"service", "3#owner", "related_service", "component_instance", "5"⟩,
    ⟨"component_instance", "5", "role", "component_version", "6"⟩], by decide⟩

theorem update_leaves_one_parent_instance :
    let e : Entity := .componentInstance ⟨5, "", 1, 0, 4, ⟨1, none, 1, none⟩⟩
    let s' := ((dispatch handlers (.updated e)).run threeParents).2
    ForeignKey e .relatedService 4 ∧ IsSet 4 ∧
      ∀ t, t ∈ s' ∧ LinkKind.relatedService.Covers 5 t ↔
        t = ⟨"service", "4", "related_service", "component_instance", "5"⟩ := by
  intro e s'
  have hkey : ForeignKey e .relatedService 4 := .relatedService _
  have hset : IsSet 4 := by decide
  have htuple : (Link.mk .relatedService 5 4).tuple =
      ⟨"service", "4", "related_service", "component_instance", "5"⟩ := rfl
  refine ⟨hkey, hset, fun t => ?_⟩
  rw [← htuple]
  exact (update_leaves_one_parent e threeParents).1 .relatedService 4 hkey hset t

end Sync
end TupleSync
