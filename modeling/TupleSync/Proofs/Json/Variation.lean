import TupleSync.Proofs.Json.Members

/-!
# Changes that a record does not notice

**Two objects that differ in the order of their members, in members that no column knows and in which of
its names a column goes by are read alike.** `Variation` is one such change, made anywhere in the object.
Both kinds of records are closed under it: the plain one, which skips what it does not know, and the open
one, which keeps it for the record inside. There what is new to the outer record has to be new to the inner
one as well, and the order in which members are handed on is the order that the inner record does not look
at.

A column that is named twice is refused by both kinds, at whichever level it stands.
-/

set_option autoImplicit false

namespace TupleSync.Json

/-! ## Values that nobody wants -/

namespace Outline

mutual

/-- What can be read can be skipped. -/
theorem skip_of_toJson {v : Outline} {depth : Nat} {j : Json} (h : v.toJson depth = .ok j) :
    v.skip = .ok () := by
  match v, depth with
  | .scalar s, _ => rfl
  | .text t, _ => rfl
  | .broken stop, _ => cases h
  | .array items stop, 0 => cases h
  | .array items stop, depth + 1 =>
    obtain ⟨js, hitems, h⟩ := Reader.exists_of_bind_eq_ok h
    cases stop with
    | some s => cases h
    | none =>
      rw [skip, skipItems_of_toJson hitems]
      rfl
  | .object members stop, 0 => cases h
  | .object members stop, depth + 1 =>
    obtain ⟨js, hmembers, h⟩ := Reader.exists_of_bind_eq_ok h
    cases stop with
    | some s => cases h
    | none =>
      rw [skip, skipMembers_of_toJson hmembers]
      rfl

theorem skipItems_of_toJson {items : List Outline} {depth : Nat} {js : List Json}
    (h : toJsonItems items depth = .ok js) : skipItems items = .ok () := by
  match items with
  | [] => rfl
  | v :: rest =>
    obtain ⟨j, hv, h⟩ := Reader.exists_of_bind_eq_ok h
    obtain ⟨js, hrest, -⟩ := Reader.exists_of_bind_eq_ok h
    rw [skipItems, skip_of_toJson hv]
    exact skipItems_of_toJson hrest

theorem skipMembers_of_toJson {members : List Member} {depth : Nat} {js : List (String × Json)}
    (h : toJsonMembers members depth = .ok js) : skipMembers members = .ok () := by
  match members with
  | [] => rfl
  | (key, v) :: rest =>
    obtain ⟨k, -, h⟩ := Reader.exists_of_bind_eq_ok h
    obtain ⟨j, hv, h⟩ := Reader.exists_of_bind_eq_ok h
    obtain ⟨js, hrest, -⟩ := Reader.exists_of_bind_eq_ok h
    rw [skipMembers, skip_of_toJson hv]
    exact skipMembers_of_toJson hrest

end

end Outline

/-- A key and a value that can be read are passed over by every record that does not know the key. -/
theorem Spare.accepts_of_readable {spare : Spare} {depth : Nat} {m : Member}
    (hkey : ∃ key, m.1 = .ok key) (hvalue : ∃ j, m.2.toJson depth = .ok j) : spare.Accepts depth m := by
  refine ⟨hkey, ?_⟩
  obtain ⟨j, hj⟩ := hvalue
  cases spare with
  | skipped => exact Outline.skip_of_toJson hj
  | kept => exact ⟨j, hj⟩

/-! ## Variations -/

/-- One change of the members of an object that a record of these columns does not notice; the number
bounds the nesting of a value that is put in. -/
inductive Variation (cols : List Column) (depth : Nat) : List Member → List Member → Prop where
  | reordered {ms ms' : List Member} (h : ms.Perm ms') : Variation cols depth ms ms'
  /-- A member whose key is no name of a column is put in anywhere. -/
  | inserted (before after : List Member) {m : Member} (hkey : Unnamed cols m)
      (hvalue : ∃ j, m.2.toJson depth = .ok j) :
      Variation cols depth (before ++ after) (before ++ m :: after)
  /-- A column goes by another of its names. -/
  | renamed (before after : List Member) {c : Column} (hc : c ∈ cols) {key key' : String}
      (hkey : key ∈ c.names) (hkey' : key' ∈ c.names) (v : Outline) :
      Variation cols depth (before ++ (.ok key, v) :: after) (before ++ (.ok key', v) :: after)

/-- Some column is given more than one value. -/
def GivenTwice (cols : List Column) (ms : List Member) : Prop := ∃ c ∈ cols, 1 < (c.valuesIn ms).length

theorem Unnamed.mono {cols cols' : List Column} {m : Member} (h : Unnamed cols m)
    (hsub : ∀ c ∈ cols', c ∈ cols) : Unnamed cols' m := by
  obtain ⟨key, hkey, hnames⟩ := h
  exact ⟨key, hkey, fun c hc => hnames c (hsub c hc)⟩

/-! ## Plain records -/

namespace Reader

theorem plain_eq_ok_iff {cols : List Column} {depth : Nat} {ms : List Member} {row : Row cols} :
    plain cols (depth + 1) (.object ms none) = .ok row ↔
      ∃ more, Row.ofObject .skipped cols depth ms none = .ok (row, more) := by
  constructor
  · intro h
    obtain ⟨⟨row, more⟩, hobject, rfl⟩ := exists_of_map_eq_ok h
    exact ⟨more, hobject⟩
  · rintro ⟨more, hobject⟩
    show Prod.fst <$> Row.ofObject .skipped cols depth ms none = _
    rw [hobject]
    rfl

/-- An object without its closing bracket is no record. -/
theorem stop_eq_none_of_plain {cols : List Column} {depth : Nat} {ms : List Member} {stop : Option Stop}
    {row : Row cols} (h : plain cols depth (.object ms stop) = .ok row) : stop = none := by
  cases stop with
  | none => rfl
  | some s =>
    cases depth with
    | zero => cases h
    | succ depth =>
      obtain ⟨p, hobject, -⟩ := exists_of_map_eq_ok h
      obtain ⟨q, -, hstop⟩ := exists_of_bind_eq_ok hobject
      cases hstop

/-- **A plain record does not notice a variation.** -/
theorem plain_of_variation {cols : List Column} (hapart : Apart cols) {depth : Nat} {ms ms' : List Member}
    (h : Variation cols depth ms ms') {row : Row cols}
    (hread : plain cols (depth + 1) (.object ms none) = .ok row) :
    plain cols (depth + 1) (.object ms' none) = .ok row := by
  rw [plain_eq_ok_iff] at hread ⊢
  obtain ⟨more, hread⟩ := hread
  -- wherever a change is made, the changed member may as well stand first
  cases h with
  | reordered hperm =>
    obtain ⟨more', -, hread⟩ := Row.ofObject_of_perm hperm hread
    exact ⟨more', hread⟩
  | @inserted before after m hkey hvalue =>
    obtain ⟨key, hm, -⟩ := id hkey
    have hfront := (Row.ofObject_cons_unnamed_iff hkey).2
      ⟨Spare.accepts_of_readable ⟨key, hm⟩ hvalue, more, hread, rfl⟩
    obtain ⟨more', -, hread⟩ := Row.ofObject_of_perm List.perm_middle.symm hfront
    exact ⟨more', hread⟩
  | renamed before after hc hkey hkey' v =>
    obtain ⟨more₁, -, hfront⟩ := Row.ofObject_of_perm List.perm_middle hread
    obtain ⟨more₂, -, hread⟩ :=
      Row.ofObject_of_perm List.perm_middle.symm (Row.ofObject_of_renamed hapart hc hkey hkey' hfront)
    exact ⟨more₂, hread⟩

/-- **A plain record refuses a column that is given twice.** -/
theorem plain_of_givenTwice {cols : List Column} (hapart : Apart cols) {depth : Nat} {ms : List Member}
    {stop : Option Stop} (htwice : GivenTwice cols ms) (row : Row cols) :
    plain cols depth (.object ms stop) ≠ .ok row := by
  intro hread
  obtain rfl := stop_eq_none_of_plain hread
  cases depth with
  | zero => cases hread
  | succ depth =>
    obtain ⟨more, hobject⟩ := plain_eq_ok_iff.1 hread
    obtain ⟨c, hc, hlength⟩ := htwice
    exact absurd (Row.length_valuesIn_le_one hapart hc hobject) (Nat.not_le.2 hlength)

/-- A plain record reads a member's value by the column that it names. -/
theorem exists_read_of_plain {cols : List Column} (hapart : Apart cols) {c : Column} (hc : c ∈ cols)
    {key : String} (hkey : key ∈ c.names) {depth : Nat} {ms : List Member} {v : Outline}
    (hmem : (.ok key, v) ∈ ms) {stop : Option Stop} {row : Row cols}
    (hread : plain cols (depth + 1) (.object ms stop) = .ok row) :
    ∃ a, c.codec.read depth v = .ok a := by
  obtain rfl := stop_eq_none_of_plain hread
  obtain ⟨more, hobject⟩ := plain_eq_ok_iff.1 hread
  exact Row.exists_read_of_mem hapart hc hkey hmem hobject

/-- A plain record does not notice that a value is replaced by one that is read alike. -/
theorem plain_of_revalued {cols : List Column} {depth : Nat} {before after : List Member} {key : String}
    (hnamed : ∃ c ∈ cols, key ∈ c.names) {v v' : Outline}
    (hvalue : ∀ c ∈ cols, key ∈ c.names → ∀ a, c.codec.read depth v = .ok a →
      c.codec.read depth v' = .ok a) {row : Row cols}
    (hread : plain cols (depth + 1) (.object (before ++ (.ok key, v) :: after) none) = .ok row) :
    plain cols (depth + 1) (.object (before ++ (.ok key, v') :: after) none) = .ok row := by
  obtain ⟨more, hobject⟩ := plain_eq_ok_iff.1 hread
  obtain ⟨more₁, -, hfront⟩ := Row.ofObject_of_perm List.perm_middle hobject
  obtain ⟨more₂, -, hobject'⟩ :=
    Row.ofObject_of_perm List.perm_middle.symm (Row.ofObject_of_revalued hnamed hvalue hfront)
  exact plain_eq_ok_iff.2 ⟨more₂, hobject'⟩

/-! ## Open records -/

section

variable {cols inner : List Column} {depth : Nat} {ms ms' more more' : List Member} {row : Row cols}
  {row' : Row inner}

theorem flattened_eq_ok_iff :
    flattened cols inner (depth + 1) (.object ms none) = .ok (row, row') ↔
      ∃ more left, Row.ofObject .kept cols depth ms none = .ok (row, more) ∧
        Row.ofObject .skipped inner depth more none = .ok (row', left) := by
  constructor
  · intro h
    obtain ⟨⟨row, more⟩, houter, h⟩ := exists_of_bind_eq_ok h
    obtain ⟨⟨row', left⟩, hinner, heq⟩ := exists_of_bind_eq_ok h
    cases heq
    exact ⟨more, left, houter, hinner⟩
  · rintro ⟨more, left, houter, hinner⟩
    show (Row.ofObject .kept cols depth ms none >>= _) = _
    rw [houter]
    show (Row.ofObject .skipped inner depth more none >>= _) = _
    rw [hinner]
    rfl

theorem stop_eq_none_of_flattened {stop : Option Stop} {p : Row cols × Row inner}
    (h : flattened cols inner depth (.object ms stop) = .ok p) : stop = none := by
  cases stop with
  | none => rfl
  | some s =>
    cases depth with
    | zero => cases h
    | succ depth =>
      obtain ⟨p, hobject, -⟩ := exists_of_bind_eq_ok h
      obtain ⟨q, -, hstop⟩ := exists_of_bind_eq_ok hobject
      cases hstop

/-- An open record does not notice the order of its members. -/
theorem flattened_of_perm (hperm : ms.Perm ms')
    (hread : flattened cols inner (depth + 1) (.object ms none) = .ok (row, row')) :
    flattened cols inner (depth + 1) (.object ms' none) = .ok (row, row') := by
  obtain ⟨more, left, houter, hinner⟩ := flattened_eq_ok_iff.1 hread
  obtain ⟨more', hmore, houter'⟩ := Row.ofObject_of_perm hperm houter
  obtain ⟨left', -, hinner'⟩ := Row.ofObject_of_perm hmore hinner
  exact flattened_eq_ok_iff.2 ⟨more', left', houter', hinner'⟩

/-- A member that is new to both records passes through the first and is skipped by the second. -/
theorem flattened_of_inserted {m : Member} (hkey : Unnamed (cols ++ inner) m)
    (hvalue : ∃ j, m.2.toJson depth = .ok j)
    (hread : flattened cols inner (depth + 1) (.object ms none) = .ok (row, row')) :
    flattened cols inner (depth + 1) (.object (m :: ms) none) = .ok (row, row') := by
  obtain ⟨more, left, houter, hinner⟩ := flattened_eq_ok_iff.1 hread
  obtain ⟨key, hm, -⟩ := id hkey
  have houter' : Row.ofObject .kept cols depth (m :: ms) none = .ok (row, m :: more) :=
    (Row.ofObject_cons_unnamed_iff (hkey.mono fun c hc => List.mem_append_left _ hc)).2
      ⟨Spare.accepts_of_readable ⟨key, hm⟩ hvalue, more, houter, rfl⟩
  have hinner' : Row.ofObject .skipped inner depth (m :: more) none = .ok (row', left) :=
    (Row.ofObject_cons_unnamed_iff (hkey.mono fun c hc => List.mem_append_right _ hc)).2
      ⟨Spare.accepts_of_readable ⟨key, hm⟩ hvalue, left, hinner, rfl⟩
  exact flattened_eq_ok_iff.2 ⟨m :: more, left, houter', hinner'⟩

theorem flattened_of_renamed (hapart : Apart (cols ++ inner)) {c : Column} (hc : c ∈ cols ++ inner)
    {key key' : String} (hkey : key ∈ c.names) (hkey' : key' ∈ c.names) {v : Outline}
    (hread : flattened cols inner (depth + 1) (.object ((.ok key, v) :: ms) none) = .ok (row, row')) :
    flattened cols inner (depth + 1) (.object ((.ok key', v) :: ms) none) = .ok (row, row') := by
  obtain ⟨more, left, houter, hinner⟩ := flattened_eq_ok_iff.1 hread
  obtain ⟨hcols, hinners, hbetween⟩ := List.pairwise_append.1 hapart
  rcases List.mem_append.1 hc with hc | hc
  · exact flattened_eq_ok_iff.2
      ⟨more, left, Row.ofObject_of_renamed hcols hc hkey hkey' houter, hinner⟩
  · -- a column of the inner record: under both names the outer one hands the member on
    have hunnamed : Unnamed cols (.ok key, v) := ⟨key, rfl, fun o ho => hbetween o ho c hc key hkey⟩
    have hunnamed' : Unnamed cols (.ok key', v) :=
      ⟨key', rfl, fun o ho => hbetween o ho c hc key' hkey'⟩
    obtain ⟨⟨-, hvalue⟩, more, hrest, rfl⟩ := (Row.ofObject_cons_unnamed_iff hunnamed).1 houter
    have houter' : Row.ofObject .kept cols depth ((.ok key', v) :: ms) none =
        .ok (row, (.ok key', v) :: more) :=
      (Row.ofObject_cons_unnamed_iff hunnamed').2 ⟨⟨⟨key', rfl⟩, hvalue⟩, more, hrest, rfl⟩
    exact flattened_eq_ok_iff.2
      ⟨_, left, houter', Row.ofObject_of_renamed hinners hc hkey hkey' hinner⟩

end

/-- **An open record does not notice a variation** of what it and the record inside know. -/
theorem flattened_of_variation {cols inner : List Column} (hapart : Apart (cols ++ inner)) {depth : Nat}
    {ms ms' : List Member} (h : Variation (cols ++ inner) depth ms ms') {p : Row cols × Row inner}
    (hread : flattened cols inner (depth + 1) (.object ms none) = .ok p) :
    flattened cols inner (depth + 1) (.object ms' none) = .ok p := by
  obtain ⟨row, row'⟩ := p
  cases h with
  | reordered hperm => exact flattened_of_perm hperm hread
  | inserted before after hkey hvalue =>
    exact flattened_of_perm List.perm_middle.symm (flattened_of_inserted hkey hvalue hread)
  | renamed before after hc hkey hkey' v =>
    have hfront := flattened_of_perm List.perm_middle hread
    exact flattened_of_perm List.perm_middle.symm (flattened_of_renamed hapart hc hkey hkey' hfront)

/-- **An open record refuses a column that is given twice**, its own or one of the record inside. -/
theorem flattened_of_givenTwice {cols inner : List Column} (hapart : Apart (cols ++ inner)) {depth : Nat}
    {ms : List Member} {stop : Option Stop} (htwice : GivenTwice (cols ++ inner) ms)
    (p : Row cols × Row inner) : flattened cols inner depth (.object ms stop) ≠ .ok p := by
  intro hread
  obtain rfl := stop_eq_none_of_flattened hread
  obtain ⟨hcols, hinners, hbetween⟩ := List.pairwise_append.1 hapart
  obtain ⟨c, hc, hlength⟩ := htwice
  cases depth with
  | zero => cases hread
  | succ depth =>
    obtain ⟨row, row'⟩ := p
    obtain ⟨more, left, houter, hinner⟩ := flattened_eq_ok_iff.1 hread
    rcases List.mem_append.1 hc with hc | hc
    · exact absurd (Row.length_valuesIn_le_one hcols hc houter) (Nat.not_le.2 hlength)
    · rw [← Row.valuesIn_of_kept (fun o ho => hbetween o ho c hc) houter] at hlength
      exact absurd (Row.length_valuesIn_le_one hinners hc hinner) (Nat.not_le.2 hlength)

end Reader

end TupleSync.Json
