import TupleSync.Sync.Link

/-!
# Ids, references and keys as texts

**What the synchronizer writes as an id is never cut again.** The text of a whole number has neither a
hash nor a colon and is never empty, and two numbers never share one, so a reference made of a type and
a number reads back as just that, and a tuple between records is told from every other by its five texts.

The first section is about cutting texts in general; the laws of references and keys rest on it alone.
-/

set_option autoImplicit false

namespace TupleSync

/-! ## Cutting a text -/

namespace Text

theorem cutAt_eq_none_iff {c : Char} {s : String} : cutAt c s = none ↔ c ∉ s.toList := by
  simp [cutAt, cutChars_eq_none_iff]

/-- A cut is at the first separator: none is before it, and the parts joined there are the whole. -/
theorem cutAt_eq_some_iff {c : Char} {s before after : String} :
    cutAt c s = some (before, after) ↔
      c ∉ before.toList ∧ s.toList = before.toList ++ c :: after.toList := by
  constructor
  · intro h
    obtain ⟨⟨xs, ys⟩, hcut, heq⟩ := Option.map_eq_some_iff.1 h
    cases heq
    rw [String.toList_ofList, String.toList_ofList]
    exact cutChars_eq_some_iff.1 hcut
  · intro h
    rw [cutAt, cutChars_eq_some_iff.2 h]
    simp only [Option.map_some, String.ofList_toList]

/-- A text is the parts of its cut, joined at the separator. -/
theorem eq_of_cutAt {c : Char} {s before after : String} (h : cutAt c s = some (before, after)) :
    s = before ++ String.singleton c ++ after := by
  obtain ⟨-, hjoin⟩ := cutAt_eq_some_iff.1 h
  apply String.toList_injective
  rw [hjoin, String.toList_append, String.toList_append, List.append_assoc, String.toList_singleton]
  rfl

/-- A text that is joined at a separator is cut there again. -/
theorem cutAt_append {c : Char} {before : String} (h : c ∉ before.toList) (after : String) :
    cutAt c (before ++ String.singleton c ++ after) = some (before, after) := by
  rw [cutAt_eq_some_iff]
  refine ⟨h, ?_⟩
  rw [String.toList_append, String.toList_append, List.append_assoc, String.toList_singleton]
  rfl

theorem cutAt_append_colon {kind id : String} (h : ':' ∉ kind.toList) :
    cutAt ':' (kind ++ ":" ++ id) = some (kind, id) := cutAt_append h id

/-- Joined texts are told apart by their parts, unless the separator is in one of the first parts. -/
theorem append_inj_of_not_mem {c : Char} {before after before' after' : String}
    (h : c ∉ before.toList) (h' : c ∉ before'.toList)
    (heq : before ++ String.singleton c ++ after = before' ++ String.singleton c ++ after') :
    before = before' ∧ after = after' := by
  have hcut : some (before, after) = some (before', after') := by
    rw [← cutAt_append h after, ← cutAt_append h' after', heq]
  exact Prod.mk.inj (Option.some.inj hcut)

/-! ## Decimal texts -/

theorem isDigit_or_minus_of_mem_ofInt {n : Int} {c : Char} (h : c ∈ (ofInt n).toList) :
    c.isDigit ∨ c = '-' := by
  rw [ofInt, String.toList_ofList] at h
  split at h
  · rcases List.mem_cons.1 h with rfl | h
    · exact Or.inr rfl
    · exact Or.inl (Nat.isDigit_of_mem_toDigits (by decide) (by decide) h)
  · exact Or.inl (Nat.isDigit_of_mem_toDigits (by decide) (by decide) h)

theorem ofInt_ne_empty (n : Int) : ofInt n ≠ "" := by
  intro h
  have hl : (ofInt n).toList = [] := by rw [h]; rfl
  rw [ofInt, String.toList_ofList] at hl
  split at hl
  · exact absurd hl (by simp)
  · exact Nat.toDigits_ne_nil hl

theorem toDigits_injective {m n : Nat} (h : Nat.toDigits 10 m = Nat.toDigits 10 n) : m = n := by
  have hm := @Nat.ofDigitChars_ten_toDigits m
  rw [h, Nat.ofDigitChars_ten_toDigits] at hm
  exact hm.symm

theorem minus_not_mem_toDigits (n : Nat) : '-' ∉ Nat.toDigits 10 n := by
  intro h
  exact absurd (Nat.isDigit_of_mem_toDigits (by decide) (by decide) h) (by decide)

/-- Two numbers never share a text: the sign tells the halves apart, the digits the numbers. -/
theorem ofInt_injective {m n : Int} (h : ofInt m = ofInt n) : m = n := by
  have hl : (ofInt m).toList = (ofInt n).toList := by rw [h]
  rw [ofInt, ofInt, String.toList_ofList, String.toList_ofList] at hl
  split at hl <;> split at hl
  · have := toDigits_injective (List.cons.inj hl).2
    omega
  · exact absurd (hl ▸ List.mem_cons_self) (minus_not_mem_toDigits _)
  · exact absurd (hl ▸ List.mem_cons_self) (minus_not_mem_toDigits _)
  · have := toDigits_injective hl
    omega

end Text

/-! ## Ids in tuples -/

namespace Sync

theorem idText_ne_empty (id : Int64) : idText id ≠ "" := Text.ofInt_ne_empty _

theorem idText_inj {i j : Int64} : idText i = idText j ↔ i = j := by
  constructor
  · intro h
    exact Int64.toInt_inj.1 (Text.ofInt_injective h)
  · rintro rfl
    rfl

theorem hash_not_mem_idText (id : Int64) : '#' ∉ (idText id).toList := by
  intro h
  rcases Text.isDigit_or_minus_of_mem_ofInt h with h | h
  · exact absurd h (by decide)
  · exact absurd h (by decide)

end Sync

theorem TypeName.text_inj {a b : TypeName} : a.text = b.text ↔ a = b := by
  cases a <;> cases b <;> decide

theorem TypeName.text_ne_empty (a : TypeName) : a.text ≠ "" := by cases a <;> decide

theorem RelationName.text_inj {a b : RelationName} : a.text = b.text ↔ a = b := by
  cases a <;> cases b <;> decide

theorem RelationName.text_ne_empty (a : RelationName) : a.text ≠ "" := by cases a <;> decide

theorem EntityKind.type_inj {a b : EntityKind} : a.type = b.type ↔ a = b := by
  cases a <;> cases b <;> decide

/-! ## References -/

namespace Ref

@[simp] theorem kind_ofParts (kind id : String) : (ofParts kind id).kind = kind := by
  unfold ofParts
  split <;> rfl

/-- Cutting a text into id and relation loses nothing. -/
@[simp] theorem idText_ofParts (kind id : String) : (ofParts kind id).idText = id := by
  unfold ofParts
  split
  · next id' relation h =>
    rw [Text.eq_of_cutAt h]
    rfl
  · rfl

/-- An id is cut at the first hash, so there is none in it. -/
theorem hash_not_mem_id_ofParts (kind id : String) : '#' ∉ (ofParts kind id).id.toList := by
  unfold ofParts
  split
  · next id' relation h => exact (Text.cutAt_eq_some_iff.1 h).1
  · next h => exact Text.cutAt_eq_none_iff.1 h

/-- Without a hash the id is the whole text, and nobody is meant but the object itself. -/
theorem ofParts_of_not_mem {kind id : String} (h : '#' ∉ id.toList) :
    ofParts kind id = ⟨kind, id, none⟩ := by
  rw [ofParts, Text.cutAt_eq_none_iff.2 h]

/-- What follows the first hash is a relation. -/
theorem ofParts_userset {id : String} (h : '#' ∉ id.toList) (kind relation : String) :
    ofParts kind (id ++ "#" ++ relation) = ⟨kind, id, some relation⟩ := by
  have hcut : Text.cutAt '#' (id ++ "#" ++ relation) = some (id, relation) := Text.cutAt_append h relation
  rw [ofParts, hcut]

theorem id_ofParts_eq_iff {kind id : String} : (ofParts kind id).id = id ↔ '#' ∉ id.toList := by
  constructor
  · intro h
    have hcut := hash_not_mem_id_ofParts kind id
    rwa [h] at hcut
  · intro h
    rw [ofParts_of_not_mem h]

@[simp] theorem ofParts_idText (kind : String) (id : Int64) :
    ofParts kind (Sync.idText id) = ⟨kind, Sync.idText id, none⟩ :=
  ofParts_of_not_mem (Sync.hash_not_mem_idText id)

end Ref

end TupleSync
