/-!
# References

**A reference is cut at the first colon, and what follows the colon at the first hash.** What stands
before the colon is the kind, what stands between the two is the id, and what follows the hash, if there
is one, is the relation of a userset: `support_group:3#member` is everyone who is a member of group 3.

Later separators belong to the part they stand in. So printing always undoes reading, and reading undoes
printing when the kind has no colon and the id no hash.
-/

set_option autoImplicit false

namespace TupleSync

namespace Text

/-- The characters before the first `c`, and those after it. -/
def cutChars (c : Char) : List Char → Option (List Char × List Char)
  | [] => none
  | x :: rest =>
    if x = c then some ([], rest)
    else (cutChars c rest).map fun (before, after) => (x :: before, after)

theorem cutChars_eq_none_iff {c : Char} {cs : List Char} : cutChars c cs = none ↔ c ∉ cs := by
  induction cs with
  | nil => simp [cutChars]
  | cons x rest ih =>
    by_cases h : x = c
    · simp [cutChars, h]
    · simp [cutChars, h, ih, Ne.symm h]

/-- What is before the cut has no `c`, and joined at a `c` the two are the whole. -/
theorem cutChars_eq_some_iff {c : Char} {cs before after : List Char} :
    cutChars c cs = some (before, after) ↔ c ∉ before ∧ cs = before ++ c :: after := by
  induction cs generalizing before with
  | nil => simp [cutChars]
  | cons x rest ih =>
    by_cases h : x = c
    · subst h
      cases before <;> simp [cutChars]
      grind
    · cases before <;> simp [cutChars, h, ih]
      grind

/-- The text before the first `c`, and the text after it. -/
def cutAt (c : Char) (s : String) : Option (String × String) :=
  (cutChars c s.toList).map fun (before, after) => (String.ofList before, String.ofList after)

end Text

/-- Something that a tuple speaks of: an object, or the subjects that have a relation on it. -/
structure Ref where
  kind : String
  id : String
  relation : Option String
  deriving Repr, DecidableEq

namespace Ref

/-- The reference of that kind; the id may carry a relation behind a hash. -/
def ofParts (kind id : String) : Ref :=
  match Text.cutAt '#' id with
  | some (id, relation) => ⟨kind, id, some relation⟩
  | none => ⟨kind, id, none⟩

/-- Reads a reference; without a colon there is none. -/
def parse? (s : String) : Option Ref :=
  (Text.cutAt ':' s).map fun (kind, id) => ofParts kind id

/-- The id with the relation behind it. -/
def idText (r : Ref) : String :=
  match r.relation with
  | some relation => r.id ++ "#" ++ relation
  | none => r.id

/-- The text of a reference. -/
def text (r : Ref) : String := r.kind ++ ":" ++ r.idText

end Ref

end TupleSync
