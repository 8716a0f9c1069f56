import TupleSync.Proofs.Tuple.Identifiers
import TupleSync.Tuple.Key

/-!
# References and their texts

**Writing undoes reading always, and reading undoes writing for the references that can be read.** These
are the ones whose kind has no colon and whose id has no hash; the relation of a userset may have both, and
every part may be empty. A userset with an empty relation is written with its hash, so it is read as a
userset again and not as the object.

A tuple has its ends as two texts each, and its key has them as one. Cut into references and written, they
are the texts of the key, so one may compare either.
-/

set_option autoImplicit false

namespace TupleSync
namespace Ref

variable {s : String} {r : Ref}

theorem parse?_eq_none_iff : parse? s = none ↔ ':' ∉ s.toList := by
  rw [parse?, Option.map_eq_none_iff, Text.cutAt_eq_none_iff]

/-- What is read are the parts of a text that was cut at its first colon. -/
theorem exists_of_parse? (h : parse? s = some r) :
    ∃ id, Text.cutAt ':' s = some (r.kind, id) ∧ r = ofParts r.kind id := by
  obtain ⟨⟨kind, id⟩, hcut, rfl⟩ := Option.map_eq_some_iff.1 h
  rw [kind_ofParts]
  exact ⟨id, hcut, rfl⟩

/-- The id and the relation of a reference, if no hash is in the id, are the parts of its text. -/
theorem ofParts_idText_of_not_mem (h : '#' ∉ r.id.toList) : ofParts r.kind r.idText = r := by
  obtain ⟨kind, id, relation⟩ := r
  cases relation with
  | none => exact ofParts_of_not_mem h
  | some relation => exact ofParts_userset h kind relation

/-- **Writing undoes reading.** -/
theorem text_of_parse? (h : parse? s = some r) : r.text = s := by
  obtain ⟨id, hcut, hr⟩ := exists_of_parse? h
  have hid : r.idText = id := by
    rw [hr, idText_ofParts]
  rw [text, hid]
  exact (Text.eq_of_cutAt hcut).symm

/-- What is read has no colon in its kind and no hash in its id. -/
theorem not_mem_of_parse? (h : parse? s = some r) : ':' ∉ r.kind.toList ∧ '#' ∉ r.id.toList := by
  obtain ⟨id, hcut, hr⟩ := exists_of_parse? h
  refine ⟨(Text.cutAt_eq_some_iff.1 hcut).1, ?_⟩
  rw [hr]
  exact hash_not_mem_id_ofParts r.kind id

/-- **Reading undoes writing** exactly where a reference can be read at all. -/
theorem parse?_text_iff : parse? r.text = some r ↔ ':' ∉ r.kind.toList ∧ '#' ∉ r.id.toList := by
  constructor
  · exact not_mem_of_parse?
  · intro h
    obtain ⟨hkind, hid⟩ := h
    rw [parse?, text, Text.cutAt_append_colon hkind]
    exact congrArg some (ofParts_idText_of_not_mem hid)

theorem text_ofParts (kind id : String) : (ofParts kind id).text = kind ++ ":" ++ id := by
  rw [text, kind_ofParts, idText_ofParts]

/-- **References are read and written consistently.** A text without a colon is no reference, and any other
is the text of the reference that it is read as. A reference is what its text is read as exactly if its
kind has no colon and its id no hash. The ends of a tuple, as references, are written as they stand in its
key. -/
theorem reading_and_writing_agree :
    (∀ s, (parse? s = none ↔ ':' ∉ s.toList) ∧ ∀ r, parse? s = some r → r.text = s) ∧
    (∀ r, parse? r.text = some r ↔ ':' ∉ r.kind.toList ∧ '#' ∉ r.id.toList) ∧
    ∀ t : Tuple, t.user.text = t.key.user ∧ t.object.text = t.key.object := by
  refine ⟨fun s => ⟨parse?_eq_none_iff, fun r => text_of_parse?⟩, fun r => parse?_text_iff, ?_⟩
  intro t
  exact ⟨text_ofParts t.userType t.userId, text_ofParts t.objectType t.objectId⟩

/-- A userset with an empty relation is not the object. -/
example : parse? "group:3#" = some ⟨"group", "3", some ""⟩ ∧
    parse? "group:3" = some ⟨"group", "3", none⟩ := by
  decide

end Ref
end TupleSync
