import TupleSync.Proofs.Json.Record

/-!
# A record looks at the members it knows

**A column sees the values of the members that name it, and nothing else of an object.** There may be one
value, which its codec reads, or none, and then the column must have a value of its own for that; two are
always refused. So what a record makes of an object does not depend on the order of the members, on
members that no column knows, or on which name of a column was used.

`ofObject_cons_iff` is where that comes from: the members that name the first column are its own affair, and
the others are read by the other columns as if the first ones were not there. Every later proof is an
induction over the columns.
-/

set_option autoImplicit false

namespace TupleSync.Json

/-! ## Members of a column -/

namespace Column

/-- The column answers to the key of the member. -/
def isNamedBy (c : Column) (m : Member) : Bool :=
  match m.1 with
  | .ok key => decide (key ∈ c.names)
  | .error _ => false

/-- The values of the members that name the column. -/
def valuesIn (c : Column) (ms : List Member) : List Outline := (ms.filter c.isNamedBy).map Prod.snd

/-- The members that the column leaves to others. -/
def leaves (c : Column) (ms : List Member) : List Member := ms.filter fun m => !c.isNamedBy m

/-- What a column makes of the values that it is given. -/
def Takes (c : Column) (depth : Nat) : List Outline → c.Value → Prop
  | [], a => c.absent = some a
  | [v], a => c.codec.read depth v = .ok a
  | _, _ => False

/-- The same, where the column may be filled already. -/
def Fills (c : Column) (depth : Nat) : Option c.Value → List Outline → Option c.Value → Prop
  | slot, [], slot' => slot' = slot
  | some _, _ :: _, _ => False
  | none, v :: vs, slot' => vs = [] ∧ ∃ a, c.codec.read depth v = .ok a ∧ slot' = some a

variable {c : Column} {key : String} {v : Outline} {ms ms' : List Member} {depth : Nat}

theorem valuesIn_cons_of_mem (h : key ∈ c.names) :
    c.valuesIn ((.ok key, v) :: ms) = v :: c.valuesIn ms := by
  simp [valuesIn, isNamedBy, h]

theorem leaves_cons_of_mem (h : key ∈ c.names) : c.leaves ((.ok key, v) :: ms) = c.leaves ms := by
  simp [leaves, isNamedBy, h]

theorem valuesIn_cons_of_not_mem (h : key ∉ c.names) :
    c.valuesIn ((.ok key, v) :: ms) = c.valuesIn ms := by
  simp [valuesIn, isNamedBy, h]

theorem leaves_cons_of_not_mem (h : key ∉ c.names) :
    c.leaves ((.ok key, v) :: ms) = (.ok key, v) :: c.leaves ms := by
  simp [leaves, isNamedBy, h]

theorem leaves_cons_of_error (f : Fault) : c.leaves ((.error f, v) :: ms) = (.error f, v) :: c.leaves ms := by
  simp [leaves, isNamedBy]

/-- What a column leaves has all that other columns look for. -/
theorem valuesIn_leaves {c' : Column} (h : ∀ key ∈ c'.names, key ∉ c.names) (ms : List Member) :
    c'.valuesIn (c.leaves ms) = c'.valuesIn ms := by
  have hboth : ∀ m : Member, (c'.isNamedBy m && !c.isNamedBy m) = c'.isNamedBy m := by
    intro m
    cases hm : c'.isNamedBy m with
    | false => rfl
    | true =>
      obtain ⟨key | key, v⟩ := m
      · cases hm
      · have hkey : key ∉ c.names := h key (of_decide_eq_true hm)
        simp [isNamedBy, hkey]
  rw [valuesIn, leaves, List.filter_filter]
  simp only [hboth]
  rfl

theorem Takes.of_perm {vs vs' : List Outline} {a : c.Value} (h : c.Takes depth vs a)
    (hperm : vs.Perm vs') : c.Takes depth vs' a := by
  match vs, h with
  | [], h =>
    obtain rfl : vs' = [] := List.nil_perm.1 hperm
    exact h
  | [v], h =>
    obtain rfl : vs' = [v] := (List.singleton_perm.1 hperm).symm
    exact h

theorem Takes.length_le_one {vs : List Outline} {a : c.Value} (h : c.Takes depth vs a) :
    vs.length ≤ 1 := by
  match vs, h with
  | [], _ => exact Nat.zero_le 1
  | [v], _ => exact Nat.le_refl 1

theorem Takes.read_of_mem {vs : List Outline} {a : c.Value} (h : c.Takes depth vs a) (hv : v ∈ vs) :
    c.codec.read depth v = .ok a := by
  match vs, h with
  | [v'], h =>
    obtain rfl := List.mem_singleton.1 hv
    exact h

theorem mem_valuesIn (hkey : key ∈ c.names) (hmem : (.ok key, v) ∈ ms) : v ∈ c.valuesIn ms := by
  refine List.mem_map.2 ⟨(.ok key, v), List.mem_filter.2 ⟨hmem, ?_⟩, rfl⟩
  simp [isNamedBy, hkey]

/-- One more value for a column that is not filled fills it. -/
theorem fills_none_cons {vs : List Outline} {slot : Option c.Value} :
    c.Fills depth none (v :: vs) slot ↔
      ∃ a, c.codec.read depth v = .ok a ∧ c.Fills depth (some a) vs slot := by
  cases vs with
  | nil => simp [Fills]
  | cons v' vs => simp [Fills]

end Column

/-- What a record does not know it passes over, if it can read that far. -/
def Spare.Accepts (spare : Spare) (depth : Nat) (m : Member) : Prop :=
  (∃ key, m.1 = .ok key) ∧
    match spare with
    | .skipped => m.2.skip = .ok ()
    | .kept => ∃ j, m.2.toJson depth = .ok j

/-- The unknown members that are handed on. -/
def Spare.keep (spare : Spare) (ms : List Member) : List Member :=
  match spare with
  | .skipped => []
  | .kept => ms

theorem Spare.read_eq_ok_iff {spare : Spare} {key : String} {depth : Nat} {v : Outline}
    {kept : List Member} : spare.read key depth v = .ok kept ↔
      spare.Accepts depth (.ok key, v) ∧ kept = spare.keep [(.ok key, v)] := by
  cases spare with
  | skipped =>
    cases hskip : v.skip with
    | error f => simp [Spare.read, Accepts, keep, hskip, bind, Except.bind]
    | ok u => simp [Spare.read, Accepts, keep, hskip, bind, Except.bind, eq_comm]
  | kept =>
    cases hjson : v.toJson depth with
    | error f => simp [Spare.read, Accepts, keep, hjson, bind, Except.bind]
    | ok j => simp [Spare.read, Accepts, keep, hjson, bind, Except.bind, eq_comm]

/-! ## One member -/

namespace Row

variable {spare : Spare} {depth : Nat} {c : Column} {cols cs : List Column} {key : String} {v : Outline}
  {ms ms' more : List Member}

/-- What one member does to a draft: it fills a column, or no column knows it and it is passed over. -/
def Meets (spare : Spare) (cols : List Column) (depth : Nat) (d : Draft cols) (key : String)
    (v : Outline) (d' : Draft cols) (kept : List Member) : Prop :=
  match d.offer key depth v cols with
  | some filled => filled = .ok d' ∧ kept = []
  | none => spare.read key depth v = .ok kept ∧ d' = d

theorem ofMembers_cons_eq_ok_iff {d d' : Draft cols} :
    ofMembers spare cols depth d ((.ok key, v) :: ms) = .ok (d', more) ↔
      ∃ d₁ kept more₁, Meets spare cols depth d key v d₁ kept ∧
        ofMembers spare cols depth d₁ ms = .ok (d', more₁) ∧ more = kept ++ more₁ := by
  cases hoffer : d.offer key depth v cols with
  | some filled =>
    simp only [ofMembers_cons_of_some hoffer, Meets, hoffer]
    constructor
    · intro h
      obtain ⟨d₁, rfl, hrest⟩ := Reader.exists_of_bind_eq_ok h
      exact ⟨d₁, [], more, ⟨rfl, rfl⟩, hrest, rfl⟩
    · rintro ⟨d₁, kept, more₁, ⟨rfl, rfl⟩, hrest, rfl⟩
      exact hrest
  | none =>
    simp only [ofMembers_cons_of_none hoffer, Meets, hoffer]
    constructor
    · intro h
      obtain ⟨kept, hspare, h⟩ := Reader.exists_of_bind_eq_ok h
      obtain ⟨⟨d₂, more₁⟩, hrest, heq⟩ := Reader.exists_of_bind_eq_ok h
      cases heq
      exact ⟨d, kept, more₁, ⟨hspare, rfl⟩, hrest, rfl⟩
    · rintro ⟨d₁, kept, more₁, ⟨hspare, rfl⟩, hrest, rfl⟩
      rw [hspare, hrest]
      rfl

theorem meets_cons_of_mem (h : key ∈ c.names) {slot slot' : Option c.Value} {d d' : Draft cs}
    {kept : List Member} :
    Meets spare (c :: cs) depth (slot, d) key v (slot', d') kept ↔
      slot = none ∧ (∃ a, c.codec.read depth v = .ok a ∧ slot' = some a) ∧ d' = d ∧ kept = [] := by
  cases slot with
  | some a => simp [Meets, Draft.offer_cons_filled h]
  | none =>
    rw [Meets, Draft.offer_cons_empty h]
    cases hread : c.codec.read depth v with
    | error f => simp [Functor.map, Except.map]
    | ok a =>
      simp only [Functor.map, Except.map, Except.ok.injEq, Prod.mk.injEq]
      grind

theorem meets_cons_of_not_mem (h : key ∉ c.names) {slot slot' : Option c.Value} {d d' : Draft cs}
    {kept : List Member} :
    Meets spare (c :: cs) depth (slot, d) key v (slot', d') kept ↔
      slot' = slot ∧ Meets spare cs depth d key v d' kept := by
  rw [Meets, Meets, Draft.offer_cons_of_not_mem h]
  cases hoffer : d.offer key depth v cs with
  | none => simp [and_left_comm]
  | some filled =>
    cases filled with
    | error f => simp [Functor.map, Except.map]
    | ok d₁ => simp [Functor.map, Except.map, and_assoc, eq_comm]

/-! ## Column by column -/

/-- **The first column fills itself from the members that name it, and the others read the rest.** -/
theorem ofMembers_cons_iff {slot slot' : Option c.Value} {d d' : Draft cs} :
    ofMembers spare (c :: cs) depth (slot, d) ms = .ok ((slot', d'), more) ↔
      c.Fills depth slot (c.valuesIn ms) slot' ∧
        ofMembers spare cs depth d (c.leaves ms) = .ok (d', more) := by
  induction ms generalizing slot d more with
  | nil =>
    constructor
    · intro h
      cases h
      exact ⟨rfl, rfl⟩
    · rintro ⟨hfill, hrest⟩
      cases hrest
      obtain rfl : slot' = slot := hfill
      rfl
  | cons m ms ih =>
    obtain ⟨key | key, v⟩ := m
    · -- a key that cannot be read stops every reader
      rw [Column.leaves_cons_of_error]
      constructor
      · intro h
        cases h
      · rintro ⟨-, h⟩
        cases h
    · rw [ofMembers_cons_eq_ok_iff]
      by_cases hkey : key ∈ c.names
      · rw [Column.valuesIn_cons_of_mem hkey, Column.leaves_cons_of_mem hkey]
        constructor
        · rintro ⟨⟨slot₁, d₁⟩, kept, more₁, hmeets, hrest, rfl⟩
          obtain ⟨rfl, ⟨a, hread, rfl⟩, rfl, rfl⟩ := (meets_cons_of_mem hkey).1 hmeets
          obtain ⟨hfill, hothers⟩ := ih.1 hrest
          exact ⟨Column.fills_none_cons.2 ⟨a, hread, hfill⟩, hothers⟩
        · rintro ⟨hfill, hothers⟩
          cases slot with
          | some a => exact False.elim hfill
          | none =>
            obtain ⟨a, hread, hfill⟩ := Column.fills_none_cons.1 hfill
            exact ⟨(some a, d), [], more, (meets_cons_of_mem hkey).2 ⟨rfl, ⟨a, hread, rfl⟩, rfl, rfl⟩,
              ih.2 ⟨hfill, hothers⟩, rfl⟩
      · rw [Column.valuesIn_cons_of_not_mem hkey, Column.leaves_cons_of_not_mem hkey,
          ofMembers_cons_eq_ok_iff]
        constructor
        · rintro ⟨⟨slot₁, d₁⟩, kept, more₁, hmeets, hrest, rfl⟩
          obtain ⟨rfl, hnext⟩ := (meets_cons_of_not_mem hkey).1 hmeets
          obtain ⟨hfill, hothers⟩ := ih.1 hrest
          exact ⟨hfill, d₁, kept, more₁, hnext, hothers, rfl⟩
        · rintro ⟨hfill, d₁, kept, more₁, hmeets, hothers, rfl⟩
          exact ⟨(slot, d₁), kept, more₁, (meets_cons_of_not_mem hkey).2 ⟨rfl, hmeets⟩,
            ih.2 ⟨hfill, hothers⟩, rfl⟩

theorem ofMembers_nil_iff :
    ofMembers spare [] depth () ms = .ok ((), more) ↔
      (∀ m ∈ ms, spare.Accepts depth m) ∧ more = spare.keep ms := by
  induction ms generalizing more with
  | nil => cases spare <;> simp [ofMembers, Spare.keep, eq_comm]
  | cons m ms ih =>
    obtain ⟨key | key, v⟩ := m
    · simp [ofMembers, Spare.Accepts, bind, Except.bind]
    · rw [ofMembers_cons_of_none rfl, List.forall_mem_cons]
      constructor
      · intro h
        obtain ⟨kept, hspare, h⟩ := Reader.exists_of_bind_eq_ok h
        obtain ⟨⟨u, more'⟩, hrest, heq⟩ := Reader.exists_of_bind_eq_ok h
        cases heq
        obtain ⟨haccepts, rfl⟩ := Spare.read_eq_ok_iff.1 hspare
        obtain ⟨hothers, rfl⟩ := ih.1 hrest
        refine ⟨⟨haccepts, hothers⟩, ?_⟩
        cases spare <;> rfl
      · rintro ⟨⟨haccepts, hothers⟩, rfl⟩
        rw [Spare.read_eq_ok_iff.2 ⟨haccepts, rfl⟩, show ofMembers spare [] depth () ms = _ from
          ih.2 ⟨hothers, rfl⟩]
        cases spare <;> rfl

/-- A finished column has the value that filled it, or else its own. -/
theorem exists_fills_iff {a : c.Value} {vs : List Outline} :
    (∃ slot, c.Fills depth none vs slot ∧ (slot <|> c.absent) = some a) ↔ c.Takes depth vs a := by
  match vs with
  | [] => simp [Column.Fills, Column.Takes]
  | [v] =>
    constructor
    · rintro ⟨slot, ⟨-, a', hread, rfl⟩, ha⟩
      cases ha
      exact hread
    · intro hread
      exact ⟨some a, ⟨rfl, a, hread, rfl⟩, rfl⟩
  | v :: v' :: vs => simp [Column.Fills, Column.Takes]

/-- **An object is read column by column.** -/
theorem ofObject_cons_iff {a : c.Value} {row : Row cs} :
    ofObject spare (c :: cs) depth ms none = .ok ((a, row), more) ↔
      c.Takes depth (c.valuesIn ms) a ∧ ofObject spare cs depth (c.leaves ms) none = .ok (row, more) := by
  rw [← exists_fills_iff]
  constructor
  · intro h
    obtain ⟨⟨⟨slot, d⟩, more₁⟩, hmembers, h⟩ := Reader.exists_of_bind_eq_ok h
    obtain ⟨row₁, hfinish, heq⟩ := Reader.exists_of_bind_eq_ok h
    cases heq
    obtain ⟨hfill, hothers⟩ := ofMembers_cons_iff.1 hmembers
    rw [Draft.finish] at hfinish
    cases hslot : slot <|> c.absent with
    | none =>
      rw [hslot] at hfinish
      cases hfinish
    | some a₁ =>
      rw [hslot] at hfinish
      obtain ⟨row₂, hrow, heq⟩ := Reader.exists_of_map_eq_ok hfinish
      cases heq
      refine ⟨⟨slot, hfill, hslot⟩, ?_⟩
      rw [ofObject, hothers]
      show (d.finish cs >>= _) = _
      rw [hrow]
      rfl
  · rintro ⟨⟨slot, hfill, hslot⟩, h⟩
    obtain ⟨⟨d, more₁⟩, hothers, h⟩ := Reader.exists_of_bind_eq_ok h
    obtain ⟨row₁, hfinish, heq⟩ := Reader.exists_of_bind_eq_ok h
    cases heq
    have hmembers : ofMembers spare (c :: cs) depth (Draft.empty (c :: cs)) ms =
        .ok ((slot, d), more) := ofMembers_cons_iff.2 ⟨hfill, hothers⟩
    rw [ofObject, hmembers]
    show (Draft.finish (c :: cs) (slot, d) >>= _) = _
    rw [Draft.finish, hslot]
    show ((fun r => (a, r)) <$> d.finish cs >>= _) = _
    rw [hfinish]
    rfl

theorem ofObject_nil_iff :
    ofObject spare [] depth ms none = .ok ((), more) ↔
      (∀ m ∈ ms, spare.Accepts depth m) ∧ more = spare.keep ms := by
  rw [← ofMembers_nil_iff]
  constructor
  · intro h
    obtain ⟨⟨u, more₁⟩, hmembers, heq⟩ := Reader.exists_of_bind_eq_ok h
    cases heq
    exact hmembers
  · intro h
    rw [ofObject, show ofMembers spare [] depth (Draft.empty []) ms = _ from h]
    rfl

/-! ## What a record does not notice -/

/-- The order of the members does not matter, but for the order of those that are handed on. -/
theorem ofObject_of_perm {row : Row cols} (hperm : ms.Perm ms')
    (h : ofObject spare cols depth ms none = .ok (row, more)) :
    ∃ more', more.Perm more' ∧ ofObject spare cols depth ms' none = .ok (row, more') := by
  induction cols generalizing ms ms' with
  | nil =>
    obtain ⟨haccepts, rfl⟩ := ofObject_nil_iff.1 h
    refine ⟨spare.keep ms', ?_, ofObject_nil_iff.2 ⟨fun m hm => haccepts m (hperm.mem_iff.2 hm), rfl⟩⟩
    cases spare with
    | skipped => exact List.Perm.refl _
    | kept => exact hperm
  | cons c cs ih =>
    obtain ⟨a, row⟩ := row
    obtain ⟨htakes, hothers⟩ := ofObject_cons_iff.1 h
    obtain ⟨more', hmore, hothers'⟩ := ih (hperm.filter _) hothers
    exact ⟨more', hmore, ofObject_cons_iff.2 ⟨htakes.of_perm ((hperm.filter _).map _), hothers'⟩⟩

/-- A member that no column knows is passed over. -/
theorem ofObject_cons_unnamed_iff {m : Member} (hm : Unnamed cols m) {row : Row cols} :
    ofObject spare cols depth (m :: ms) none = .ok (row, more) ↔
      spare.Accepts depth m ∧ ∃ more', ofObject spare cols depth ms none = .ok (row, more') ∧
        more = spare.keep [m] ++ more' := by
  obtain ⟨key, v⟩ := m
  obtain ⟨key, rfl, hkey⟩ := hm
  induction cols generalizing ms with
  | nil =>
    rw [ofObject_nil_iff, List.forall_mem_cons]
    constructor
    · rintro ⟨⟨haccepts, hothers⟩, rfl⟩
      refine ⟨haccepts, spare.keep ms, ofObject_nil_iff.2 ⟨hothers, rfl⟩, ?_⟩
      cases spare <;> rfl
    · rintro ⟨haccepts, more', h, rfl⟩
      obtain ⟨hothers, rfl⟩ := ofObject_nil_iff.1 h
      refine ⟨⟨haccepts, hothers⟩, ?_⟩
      cases spare <;> rfl
  | cons c cs ih =>
    obtain ⟨a, row⟩ := row
    have hc : key ∉ c.names := hkey c List.mem_cons_self
    rw [ofObject_cons_iff, Column.valuesIn_cons_of_not_mem hc, Column.leaves_cons_of_not_mem hc,
      ih fun c' hc' => hkey c' (List.mem_cons_of_mem _ hc')]
    constructor
    · rintro ⟨htakes, haccepts, more', hothers, rfl⟩
      exact ⟨haccepts, more', ofObject_cons_iff.2 ⟨htakes, hothers⟩, rfl⟩
    · rintro ⟨haccepts, more', h, rfl⟩
      obtain ⟨htakes, hothers⟩ := ofObject_cons_iff.1 h
      exact ⟨htakes, haccepts, more', hothers, rfl⟩

end Row

/-- No two columns share a name. -/
def Apart (cols : List Column) : Prop := cols.Pairwise fun c c' => ∀ key ∈ c'.names, key ∉ c.names

namespace Row

variable {spare : Spare} {depth : Nat} {cols : List Column} {ms more : List Member}

/-- Which of its names a column goes by does not matter. -/
theorem ofObject_of_renamed (hapart : Apart cols) {c : Column} (hc : c ∈ cols) {key key' : String}
    (hkey : key ∈ c.names) (hkey' : key' ∈ c.names) {v : Outline} {row : Row cols}
    (h : ofObject spare cols depth ((.ok key, v) :: ms) none = .ok (row, more)) :
    ofObject spare cols depth ((.ok key', v) :: ms) none = .ok (row, more) := by
  induction cols generalizing ms with
  | nil => exact absurd hc List.not_mem_nil
  | cons first cs ih =>
    obtain ⟨a, row⟩ := row
    obtain ⟨hfirst, hrest⟩ := List.pairwise_cons.1 hapart
    rw [ofObject_cons_iff] at h ⊢
    rcases List.mem_cons.1 hc with rfl | hc
    · rw [Column.valuesIn_cons_of_mem hkey, Column.leaves_cons_of_mem hkey] at h
      rwa [Column.valuesIn_cons_of_mem hkey', Column.leaves_cons_of_mem hkey']
    · have hpast : key ∉ first.names := hfirst c hc key hkey
      have hpast' : key' ∉ first.names := hfirst c hc key' hkey'
      rw [Column.valuesIn_cons_of_not_mem hpast, Column.leaves_cons_of_not_mem hpast] at h
      rw [Column.valuesIn_cons_of_not_mem hpast', Column.leaves_cons_of_not_mem hpast']
      exact ⟨h.1, ih hrest hc h.2⟩

/-- A value may be replaced by one that is read alike. -/
theorem ofObject_of_revalued {key : String} (hnamed : ∃ c ∈ cols, key ∈ c.names) {v v' : Outline}
    (hvalue : ∀ c ∈ cols, key ∈ c.names → ∀ a, c.codec.read depth v = .ok a →
      c.codec.read depth v' = .ok a) {row : Row cols}
    (h : ofObject spare cols depth ((.ok key, v) :: ms) none = .ok (row, more)) :
    ofObject spare cols depth ((.ok key, v') :: ms) none = .ok (row, more) := by
  induction cols generalizing ms with
  | nil =>
    obtain ⟨c, hc, -⟩ := hnamed
    exact absurd hc List.not_mem_nil
  | cons first cs ih =>
    obtain ⟨a, row⟩ := row
    obtain ⟨hfirst, hrest⟩ := List.forall_mem_cons.1 hvalue
    rw [ofObject_cons_iff] at h ⊢
    by_cases hkey : key ∈ first.names
    · rw [Column.valuesIn_cons_of_mem hkey, Column.leaves_cons_of_mem hkey] at h ⊢
      obtain ⟨htakes, hothers⟩ := h
      have hnone : first.valuesIn ms = [] :=
        List.eq_nil_of_length_eq_zero (Nat.le_zero.1 (Nat.le_of_succ_le_succ htakes.length_le_one))
      rw [hnone] at htakes ⊢
      exact ⟨hfirst hkey a htakes, hothers⟩
    · rw [Column.valuesIn_cons_of_not_mem hkey, Column.leaves_cons_of_not_mem hkey] at h ⊢
      obtain ⟨c, hc, hnames⟩ := hnamed
      have hothers : ∃ c ∈ cs, key ∈ c.names := by
        rcases List.mem_cons.1 hc with rfl | hc
        · exact absurd hnames hkey
        · exact ⟨c, hc, hnames⟩
      exact ⟨h.1, ih hothers hrest h.2⟩

/-- Every column takes the values of the members that name it. -/
theorem exists_takes (hapart : Apart cols) {c : Column} (hc : c ∈ cols) {row : Row cols}
    (h : ofObject spare cols depth ms none = .ok (row, more)) : ∃ a, c.Takes depth (c.valuesIn ms) a := by
  induction cols generalizing ms with
  | nil => exact absurd hc List.not_mem_nil
  | cons first cs ih =>
    obtain ⟨a, row⟩ := row
    obtain ⟨hfirst, hrest⟩ := List.pairwise_cons.1 hapart
    obtain ⟨htakes, hothers⟩ := ofObject_cons_iff.1 h
    rcases List.mem_cons.1 hc with rfl | hc
    · exact ⟨a, htakes⟩
    · rw [← Column.valuesIn_leaves (hfirst c hc)]
      exact ih hrest hc hothers

/-- **No column is given two values.** -/
theorem length_valuesIn_le_one (hapart : Apart cols) {c : Column} (hc : c ∈ cols) {row : Row cols}
    (h : ofObject spare cols depth ms none = .ok (row, more)) : (c.valuesIn ms).length ≤ 1 := by
  obtain ⟨a, htakes⟩ := exists_takes hapart hc h
  exact htakes.length_le_one

theorem exists_read_of_mem (hapart : Apart cols) {c : Column} (hc : c ∈ cols) {key : String}
    (hkey : key ∈ c.names) {v : Outline} (hmem : (.ok key, v) ∈ ms) {row : Row cols}
    (h : ofObject spare cols depth ms none = .ok (row, more)) : ∃ a, c.codec.read depth v = .ok a := by
  obtain ⟨a, htakes⟩ := exists_takes hapart hc h
  exact ⟨a, htakes.read_of_mem (Column.mem_valuesIn hkey hmem)⟩

/-- What is handed on has all that a column looks for that shares no name with the record. -/
theorem valuesIn_of_kept {c : Column} (hc : ∀ c' ∈ cols, ∀ key ∈ c.names, key ∉ c'.names) {row : Row cols}
    (h : ofObject .kept cols depth ms none = .ok (row, more)) : c.valuesIn more = c.valuesIn ms := by
  induction cols generalizing ms with
  | nil =>
    obtain ⟨-, rfl⟩ := ofObject_nil_iff.1 h
    rfl
  | cons first cs ih =>
    obtain ⟨a, row⟩ := row
    obtain ⟨hfirst, hrest⟩ := List.forall_mem_cons.1 hc
    obtain ⟨-, hothers⟩ := ofObject_cons_iff.1 h
    rw [ih hrest hothers, Column.valuesIn_leaves hfirst]

end Row

end TupleSync.Json
