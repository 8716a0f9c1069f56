import TupleSync.Proofs.Json.Variation

/-!
# A text that is a value

**A text can be read as a value exactly if its outline is that value's own** (`toJson_eq_ok_iff`): no
mistake anywhere in it, no bracket left open, and no more nesting than the reader enters. So whether a text
is JSON, and which value it is, can be said without a reader (`Document.Tells`).
-/

set_option autoImplicit false

namespace TupleSync.Json

/-! ## Nesting -/

mutual

/-- How deep the value's brackets are nested. -/
def nesting : Json → Nat
  | .null | .bool _ | .number _ | .text _ => 0
  | .array items => itemsNesting items + 1
  | .object members => membersNesting members + 1

def itemsNesting : List Json → Nat
  | [] => 0
  | v :: rest => max (nesting v) (itemsNesting rest)

def membersNesting : List (String × Json) → Nat
  | [] => 0
  | (_, v) :: rest => max (nesting v) (membersNesting rest)

end

mutual

theorem toJson_outline {j : Json} {depth : Nat} (h : j.nesting ≤ depth) :
    j.outline.toJson depth = .ok j := by
  match j, depth with
  | .null, _ | .bool _, _ | .number _, _ | .text _, _ => rfl
  | .array items, depth + 1 =>
    rw [outline, Outline.toJson, toJsonItems_itemOutlines (Nat.le_of_succ_le_succ h)]
    rfl
  | .object members, depth + 1 =>
    rw [outline, Outline.toJson, toJsonMembers_memberOutlines (Nat.le_of_succ_le_succ h)]
    rfl

theorem toJsonItems_itemOutlines {items : List Json} {depth : Nat} (h : itemsNesting items ≤ depth) :
    Outline.toJsonItems (itemOutlines items) depth = .ok items := by
  match items with
  | [] => rfl
  | v :: rest =>
    obtain ⟨hv, hrest⟩ := Nat.max_le.1 h
    rw [itemOutlines, Outline.toJsonItems, toJson_outline hv, toJsonItems_itemOutlines hrest]
    rfl

theorem toJsonMembers_memberOutlines {members : List (String × Json)} {depth : Nat}
    (h : membersNesting members ≤ depth) :
    Outline.toJsonMembers (memberOutlines members) depth = .ok members := by
  match members with
  | [] => rfl
  | (key, v) :: rest =>
    obtain ⟨hv, hrest⟩ := Nat.max_le.1 h
    rw [memberOutlines, Outline.toJsonMembers, toJson_outline hv, toJsonMembers_memberOutlines hrest]
    rfl

end

/-! ## What was read -/

namespace Outline

mutual

theorem eq_outline_of_toJson {v : Outline} {depth : Nat} {j : Json} (h : v.toJson depth = .ok j) :
    v = j.outline ∧ j.nesting ≤ depth := by
  match v, depth with
  | .scalar .null, _ | .scalar (.bool _), _ | .scalar (.number (.ok _)), _ | .text (.ok _), _ =>
    cases h
    exact ⟨rfl, Nat.zero_le _⟩
  | .scalar (.number (.error _)), _ | .text (.error _), _ | .broken _, _ => cases h
  | .array _ _, 0 | .object _ _, 0 => cases h
  | .array items stop, depth + 1 =>
    obtain ⟨js, hitems, h⟩ := Reader.exists_of_bind_eq_ok h
    cases stop with
    | some s => cases h
    | none =>
      cases h
      obtain ⟨rfl, hnesting⟩ := eq_itemOutlines_of_toJsonItems hitems
      exact ⟨rfl, Nat.succ_le_succ hnesting⟩
  | .object members stop, depth + 1 =>
    obtain ⟨js, hmembers, h⟩ := Reader.exists_of_bind_eq_ok h
    cases stop with
    | some s => cases h
    | none =>
      cases h
      obtain ⟨rfl, hnesting⟩ := eq_memberOutlines_of_toJsonMembers hmembers
      exact ⟨rfl, Nat.succ_le_succ hnesting⟩

theorem eq_itemOutlines_of_toJsonItems {items : List Outline} {depth : Nat} {js : List Json}
    (h : toJsonItems items depth = .ok js) : items = itemOutlines js ∧ itemsNesting js ≤ depth := by
  match items with
  | [] =>
    cases h
    exact ⟨rfl, Nat.zero_le _⟩
  | v :: rest =>
    obtain ⟨j, hv, h⟩ := Reader.exists_of_bind_eq_ok h
    obtain ⟨js, hrest, h⟩ := Reader.exists_of_bind_eq_ok h
    cases h
    obtain ⟨rfl, hdepth⟩ := eq_outline_of_toJson hv
    obtain ⟨rfl, hdepths⟩ := eq_itemOutlines_of_toJsonItems hrest
    exact ⟨rfl, Nat.max_le.2 ⟨hdepth, hdepths⟩⟩

theorem eq_memberOutlines_of_toJsonMembers {members : List (Except Fault String × Outline)} {depth : Nat}
    {js : List (String × Json)} (h : toJsonMembers members depth = .ok js) :
    members = memberOutlines js ∧ membersNesting js ≤ depth := by
  match members with
  | [] =>
    cases h
    exact ⟨rfl, Nat.zero_le _⟩
  | (key, v) :: rest =>
    obtain ⟨k, hkey, hmember⟩ := Reader.exists_of_bind_eq_ok h
    obtain ⟨j, hv, hmembers⟩ := Reader.exists_of_bind_eq_ok hmember
    obtain ⟨js, hrest, hall⟩ := Reader.exists_of_bind_eq_ok hmembers
    cases hkey
    cases hall
    obtain ⟨rfl, hdepth⟩ := eq_outline_of_toJson hv
    obtain ⟨rfl, hdepths⟩ := eq_memberOutlines_of_toJsonMembers hrest
    exact ⟨rfl, Nat.max_le.2 ⟨hdepth, hdepths⟩⟩

end

/-- **A value is read where its outline stands**, and nothing else is a value. -/
theorem toJson_eq_ok_iff {v : Outline} {depth : Nat} {j : Json} :
    v.toJson depth = .ok j ↔ v = j.outline ∧ j.nesting ≤ depth := by
  constructor
  · exact eq_outline_of_toJson
  · rintro ⟨rfl, h⟩
    exact toJson_outline h

end Outline

/-! ## Whole texts -/

/-- The text is that of the value, and nothing follows it. -/
def Tells (bytes : List UInt8) (j : Json) : Prop :=
  Document.ofBytes bytes = ⟨j.outline, false⟩ ∧ j.nesting ≤ Document.maxDepth

/-- **A text is read as the value that it tells.** -/
theorem decode_json_eq_ok_iff {bytes : List UInt8} {j : Json} :
    decode Reader.json bytes = .ok j ↔ Tells bytes j := by
  rw [decode, Tells]
  obtain ⟨root, trailing⟩ := Document.ofBytes bytes
  rw [Document.mk.injEq, Document.read]
  constructor
  · intro h
    obtain ⟨j', hroot, h⟩ := Reader.exists_of_bind_eq_ok h
    obtain ⟨rfl, hnesting⟩ := Outline.toJson_eq_ok_iff.1 hroot
    cases trailing with
    | true => cases h
    | false =>
      cases h
      exact ⟨⟨rfl, rfl⟩, hnesting⟩
  · rintro ⟨⟨rfl, rfl⟩, hnesting⟩
    show (j.outline.toJson Document.maxDepth >>= _) = _
    rw [toJson_outline hnesting]
    rfl

/-- What is printed tells the value. -/
theorem tells_bytes {j : Json} (h : j.Integral) (hnesting : j.nesting ≤ Document.maxDepth) :
    Tells j.bytes j :=
  ⟨ofBytes_bytes h, hnesting⟩

theorem Tells.unique {bytes : List UInt8} {j j' : Json} (h : Tells bytes j) (h' : Tells bytes j') :
    j = j' :=
  Except.ok.inj ((decode_json_eq_ok_iff.2 h).symm.trans (decode_json_eq_ok_iff.2 h'))

end TupleSync.Json
