import TupleSync.Proofs.Sync.Patterns

/-!
# Facts, and the tuples that state them

**Every tuple of the synchronizer states one fact, and no two facts share a tuple.** A fact is that a
record was made by someone, that a record has a parent, or that an affiliation holds. The families share
types and one relation name: `role` stands both between a creator and a record and between an instance
and its version, and only the type of the subject tells them apart. `Fact.tuple_inj` is the law that
nothing is confused all the same.

With it the patterns say what they are for. A link's pattern finds the links of its kind and child, a
sweep finds the facts that have the record at an end, and neither finds anything else.
-/

set_option autoImplicit false

namespace TupleSync
namespace Sync

/-- What a tuple of the synchronizer states. -/
inductive Fact where
  /-- The record was made by the creator. -/
  | made (creator : Int64) (kind : EntityKind) (id : Int64)
  | link (l : Link)
  | affiliation (m : Affiliation)
  deriving Repr, DecidableEq

/-- The two records of an affiliation. -/
def affiliationEnds : Affiliation → List (EntityKind × Int64)
  | .userInSupportGroup group user => [(.supportGroup, group), (.user, user)]
  | .serviceInSupportGroup group service => [(.service, service), (.supportGroup, group)]
  | .ownerOfService service owner => [(.service, service), (.user, owner)]

namespace Fact

def tuple : Fact → Tuple
  | made creator kind id => tupleOf .role creator .role kind.type id
  | link l => l.tuple
  | affiliation m => affiliationTuple m

/-- The records that the fact is about; a creator is not one of them. -/
def ends : Fact → List (EntityKind × Int64)
  | made _ kind id => [(kind, id)]
  | link l => [(l.kind.child, l.child), (l.kind.parent, l.parent)]
  | affiliation m => affiliationEnds m

end Fact

/-! ## Foreign keys -/

/-- The record has a foreign key that makes links of the kind, and this is its value. -/
inductive ForeignKey : Entity → LinkKind → Int64 → Prop where
  | owningGroup (r : Service) : ForeignKey (.service r) .owningGroup r.supportGroup
  | component (r : ComponentVersion) : ForeignKey (.componentVersion r) .component r.component
  | relatedService (r : ComponentInstance) :
    ForeignKey (.componentInstance r) .relatedService r.service
  | deployedVersion (r : ComponentInstance) :
    ForeignKey (.componentInstance r) .deployedVersion r.componentVersion
  | matchedInstance (r : IssueMatch) :
    ForeignKey (.issueMatch r) .matchedInstance r.componentInstance

section ForeignKey

variable {e : Entity} {k : LinkKind} {parent parent' : Int64} {l : Link}

theorem ForeignKey.child_eq (h : ForeignKey e k parent) : k.child = e.kind := by
  cases h <;> rfl

theorem ForeignKey.unique (h : ForeignKey e k parent) (h' : ForeignKey e k parent') :
    parent = parent' := by
  cases h <;> cases h' <;> rfl

/-- **The links of a record are those of its foreign keys.** -/
theorem mem_links_iff : l ∈ links e ↔ ForeignKey e l.kind l.parent ∧ l.child = e.id := by
  obtain ⟨k, child, parent⟩ := l
  constructor
  · intro h
    cases e with
    | supportGroup | component | user => cases h
    | service r =>
      cases List.mem_singleton.1 h
      exact ⟨.owningGroup r, rfl⟩
    | componentVersion r =>
      cases List.mem_singleton.1 h
      exact ⟨.component r, rfl⟩
    | componentInstance r =>
      rcases List.mem_cons.1 h with h | h
      · cases h
        exact ⟨.relatedService r, rfl⟩
      · cases List.mem_singleton.1 h
        exact ⟨.deployedVersion r, rfl⟩
    | issueMatch r =>
      cases List.mem_singleton.1 h
      exact ⟨.matchedInstance r, rfl⟩
  · rintro ⟨h, rfl⟩
    cases h <;> simp [links, Entity.id]

theorem ForeignKey.mem_links (h : ForeignKey e k parent) : ⟨k, e.id, parent⟩ ∈ links e :=
  mem_links_iff.2 ⟨h, rfl⟩

/-- A record has at most one link of each kind. -/
theorem link_unique {l' : Link} (hl : l ∈ links e) (hl' : l' ∈ links e) (h : l.kind = l'.kind) :
    l = l' := by
  obtain ⟨k, child, parent⟩ := l
  obtain ⟨k', child', parent'⟩ := l'
  obtain rfl : k = k' := h
  obtain ⟨hkey, rfl⟩ := mem_links_iff.1 hl
  obtain ⟨hkey', rfl⟩ := mem_links_iff.1 hl'
  exact congrArg (Link.mk k e.id) (hkey.unique hkey')

/-- What holds of some link of a record holds of one that a foreign key makes. -/
theorem exists_mem_links_iff_foreignKey {P : LinkKind → Int64 → Int64 → Prop} :
    (∃ l ∈ links e, P l.kind l.child l.parent) ↔ ∃ k parent, ForeignKey e k parent ∧ P k e.id parent := by
  constructor
  · rintro ⟨l, hl, hP⟩
    obtain ⟨hkey, hchild⟩ := mem_links_iff.1 hl
    exact ⟨l.kind, l.parent, hkey, hchild ▸ hP⟩
  · rintro ⟨k, parent, hkey, hP⟩
    exact ⟨_, hkey.mem_links, hP⟩

end ForeignKey

theorem type_ne_role (kind : EntityKind) : kind.type ≠ .role := by cases kind <;> decide

theorem Fact.exists_tuple_eq (f : Fact) :
    ∃ a i r b j, f.tuple = tupleOf a i r b j := by
  rcases f with ⟨c, kind, id⟩ | ⟨kind, child, parent⟩ | m
  · exact ⟨_, _, _, _, _, rfl⟩
  · cases kind <;> exact ⟨_, _, _, _, _, rfl⟩
  · cases m <;> exact ⟨_, _, _, _, _, rfl⟩

theorem Fact.isComplete_tuple (f : Fact) : f.tuple.IsComplete := by
  obtain ⟨a, i, r, b, j, h⟩ := f.exists_tuple_eq
  rw [h]
  exact isComplete_tupleOf a i r b j

theorem isComplete_linkTuple (l : Link) : l.tuple.IsComplete := (Fact.link l).isComplete_tuple

theorem isComplete_affiliationTuple (m : Affiliation) : (affiliationTuple m).IsComplete :=
  (Fact.affiliation m).isComplete_tuple

/-! ## A tuple states at most one fact -/

theorem relation_linkTuple (l : Link) : l.tuple.relation = l.kind.relation.text := by
  unfold Link.tuple
  split <;> rfl

theorem userType_linkTuple_ne_role (l : Link) : l.tuple.userType ≠ TypeName.role.text := by
  intro h
  unfold Link.tuple at h
  split at h
  · exact type_ne_role _ (TypeName.text_inj.1 h)
  · exact type_ne_role _ (TypeName.text_inj.1 h)

theorem LinkKind.relation_inj {k k' : LinkKind} : k.relation = k'.relation ↔ k = k' := by
  cases k <;> cases k' <;> decide

/-- The relation of an affiliation is that of no link, and not the role of a creator. -/
theorem relation_affiliationTuple (m : Affiliation) :
    ∃ r : RelationName, (affiliationTuple m).relation = r.text ∧ r ≠ .role ∧
      ∀ k : LinkKind, k.relation ≠ r := by
  cases m with
  | userInSupportGroup => exact ⟨.member, rfl, by decide, fun k => by cases k <;> decide⟩
  | serviceInSupportGroup => exact ⟨.supportGroup, rfl, by decide, fun k => by cases k <;> decide⟩
  | ownerOfService => exact ⟨.owner, rfl, by decide, fun k => by cases k <;> decide⟩

theorem linkTuple_inj {l l' : Link} (h : l.tuple = l'.tuple) : l = l' := by
  have hrel : l.kind.relation.text = l'.kind.relation.text := by
    rw [← relation_linkTuple, ← relation_linkTuple, h]
  have hkind : l.kind = l'.kind := LinkKind.relation_inj.1 (RelationName.text_inj.1 hrel)
  obtain ⟨k, child, parent⟩ := l
  obtain ⟨k', child', parent'⟩ := l'
  obtain rfl : k = k' := hkind
  unfold Link.tuple at h
  split at h
  · obtain ⟨-, rfl, -, -, rfl⟩ := tupleOf_inj.1 h
    rfl
  · obtain ⟨-, rfl, -, -, rfl⟩ := tupleOf_inj.1 h
    rfl

theorem affiliationTuple_inj {m m' : Affiliation} (h : affiliationTuple m = affiliationTuple m') :
    m = m' := by
  cases m <;> cases m' <;> simp_all [affiliationTuple, tupleOf_inj]

theorem linkTuple_ne_affiliationTuple (l : Link) (m : Affiliation) :
    l.tuple ≠ affiliationTuple m := by
  intro h
  obtain ⟨r, hr, -, hlink⟩ := relation_affiliationTuple m
  rw [← h, relation_linkTuple] at hr
  exact hlink l.kind (RelationName.text_inj.1 hr)

/-- **A tuple states at most one fact.** -/
theorem Fact.tuple_inj {f g : Fact} : f.tuple = g.tuple ↔ f = g := by
  refine ⟨fun h => ?_, fun h => h ▸ rfl⟩
  have made_ne_affiliation : ∀ c kind id m, (made c kind id).tuple ≠ affiliationTuple m := by
    intro c kind id m hm
    obtain ⟨r, hr, hrole, -⟩ := relation_affiliationTuple m
    rw [← hm] at hr
    exact hrole (RelationName.text_inj.1 (show RelationName.role.text = r.text from hr)).symm
  have made_ne_link : ∀ c kind id l, (made c kind id).tuple ≠ Link.tuple l :=
    fun c kind id l hl => userType_linkTuple_ne_role l (hl ▸ rfl)
  cases f with
  | made c kind id =>
    cases g with
    | made c' kind' id' =>
      obtain ⟨-, rfl, -, hkind, rfl⟩ := tupleOf_inj.1 h
      rw [EntityKind.type_inj.1 hkind]
    | link l => exact absurd h (made_ne_link c kind id l)
    | affiliation m => exact absurd h (made_ne_affiliation c kind id m)
  | link l =>
    cases g with
    | made c kind id => exact absurd h.symm (made_ne_link c kind id l)
    | link l' => rw [linkTuple_inj h]
    | affiliation m => exact absurd h (linkTuple_ne_affiliationTuple l m)
  | affiliation m =>
    cases g with
    | made c kind id => exact absurd h.symm (made_ne_affiliation c kind id m)
    | link l => exact absurd h.symm (linkTuple_ne_affiliationTuple l m)
    | affiliation m' => rw [affiliationTuple_inj h]

/-! ## What the patterns find among the facts -/

/-- A sweep finds the facts about the record, and no other. -/
theorem names_tuple_iff {f : Fact} {kind : EntityKind} {id : Int64} :
    Names f.tuple kind id ↔ (kind, id) ∈ f.ends := by
  cases f with
  | made c k i =>
    rw [Fact.tuple, names_tupleOf_iff, EntityKind.type_inj, Fact.ends, List.mem_singleton,
      Prod.mk.injEq, @eq_comm _ kind, @eq_comm _ id]
    exact or_iff_left fun h => type_ne_role kind h.1.symm
  | link l =>
    rw [Fact.tuple, Link.tuple, Fact.ends, List.mem_cons, List.mem_singleton]
    split
    · rw [names_between_iff, or_comm]
    · rw [names_between_iff]
  | affiliation m =>
    cases m with
    | userInSupportGroup group user =>
      have h := @names_between_iff .user .supportGroup kind user group id .member
      exact h.trans (by simp [Fact.ends, affiliationEnds])
    | serviceInSupportGroup group service =>
      have h := @names_between_iff .supportGroup .service kind group service id .supportGroup
      exact h.trans (by simp [Fact.ends, affiliationEnds])
    | ownerOfService service owner =>
      have h := @names_between_iff .user .service kind owner service id .owner
      exact h.trans (by simp [Fact.ends, affiliationEnds])

/-- A link's pattern covers the links of its kind and child. -/
theorem covers_linkTuple (l : Link) : l.kind.Covers l.child l.tuple := by
  unfold Link.tuple
  split
  · next h =>
    rw [covers_tupleOf_iff, if_pos h]
    exact ⟨rfl, ⟨rfl, rfl⟩, rfl⟩
  · next h =>
    rw [covers_tupleOf_iff, if_neg h]
    exact ⟨rfl, ⟨rfl, rfl⟩, rfl⟩

/-- A link's pattern finds the links of its kind and child, and no other fact. What it covers has the
five parts of such a link, so it is the tuple of one. -/
theorem covers_tuple_iff {f : Fact} {k : LinkKind} {child : Int64} :
    k.Covers child f.tuple ↔ ∃ parent, f = .link ⟨k, child, parent⟩ := by
  constructor
  · intro h
    obtain ⟨a, i, r, b, j, hf⟩ := f.exists_tuple_eq
    rw [hf, covers_tupleOf_iff] at h
    obtain ⟨rfl, hends⟩ := h
    split at hends
    · next hc =>
      obtain ⟨⟨rfl, rfl⟩, rfl⟩ := hends
      refine ⟨j, Fact.tuple_inj.1 ?_⟩
      rw [hf, Fact.tuple, Link.tuple, if_pos hc]
    · next hc =>
      obtain ⟨⟨rfl, rfl⟩, rfl⟩ := hends
      refine ⟨i, Fact.tuple_inj.1 ?_⟩
      rw [hf, Fact.tuple, Link.tuple, if_neg hc]
  · intro hboth
    obtain ⟨parent, rfl⟩ := hboth
    exact covers_linkTuple ⟨k, child, parent⟩

end Sync
end TupleSync
