import TupleSync.Json.Record
import TupleSync.Proofs.Json.Compact

/-!
# Records are read as they were written

**A codec keeps a value if it reads what it writes of it as the value again**, in a text and at any
place that leaves room for the value's own nesting. A record keeps its values if its columns keep
theirs and no column answers to the written name of a later one; then each member, as it comes, fills the
one column that is next.

An open record with a second record inside keeps both. The members of the second name no column of the
first, so the first hands them on, whole and in order, and the second finds nothing else.
-/

set_option autoImplicit false

namespace TupleSync.Json

/-! ## Codecs -/

/-- The codec reads what it writes of the value, where `levels` more levels of nesting are left. -/
structure Codec.Keeps {α : Type} (c : Codec α) (levels : Nat) (a : α) : Prop where
  read_write : ∀ depth, levels ≤ depth → c.read depth (c.write a).outline = .ok a
  integral : (c.write a).Integral

/-- What a codec keeps it reads from the text that it is printed as. -/
theorem Codec.Keeps.decode_bytes {α : Type} {c : Codec α} {levels : Nat} {a : α}
    (h : c.Keeps levels a) (hlevels : levels ≤ Document.maxDepth) :
    decode c.read (c.write a).bytes = .ok a := by
  rw [Json.decode_bytes _ h.integral, h.read_write _ hlevels]

theorem Codec.Keeps.mono {α : Type} {c : Codec α} {levels levels' : Nat} {a : α}
    (h : c.Keeps levels a) (hle : levels ≤ levels') : c.Keeps levels' a where
  read_write depth hdepth := h.read_write depth (Nat.le_trans hle hdepth)
  integral := h.integral

/-- Keeping carries over to a codec that wraps what it reads, and unwraps what it writes. -/
theorem Codec.Keeps.map {α β : Type} {c : Codec α} {c' : Codec β} {f : α → β} {levels : Nat} {a : α}
    (h : c.Keeps levels a) (hread : ∀ depth v, c'.read depth v = f <$> c.read depth v)
    (hwrite : c'.write (f a) = c.write a) : c'.Keeps levels (f a) where
  read_write depth hdepth := by
    rw [hwrite, hread, h.read_write depth hdepth]
    rfl
  integral := hwrite ▸ h.integral

theorem Reader.exists_of_map_eq_ok {α β : Type} {f : α → β} {x : Except Fault α} {b : β}
    (h : f <$> x = .ok b) : ∃ a, x = .ok a ∧ f a = b := by
  cases x with
  | error e => cases h
  | ok a => exact ⟨a, rfl, Except.ok.inj h⟩

theorem Reader.exists_of_bind_eq_ok {α β : Type} {x : Except Fault α} {f : α → Except Fault β} {b : β}
    (h : x >>= f = .ok b) : ∃ a, x = .ok a ∧ f a = .ok b := by
  cases x with
  | error e => cases h
  | ok a => exact ⟨a, rfl, h⟩

namespace Codec

theorem text_keeps (s : String) : Codec.text.Keeps 0 s where
  read_write _ _ := rfl
  integral := trivial

theorem int64_keeps (n : Int64) : Codec.int64.Keeps 0 n where
  read_write depth _ := by
    have hin : Reader.intIn Int64.minValue.toInt Int64.maxValue.toInt depth
        (Codec.int64.write n).outline = .ok n.toInt :=
      if_pos ⟨n.minValue_le_toInt, n.toInt_le⟩
    show Int64.ofInt <$> _ = _
    rw [hin]
    exact congrArg Except.ok (Int64.ofInt_toInt n)
  integral := by
    show n.toInt.natAbs < UInt64.size
    have hlow := n.le_toInt
    have hhigh := n.toInt_lt
    have hsize : UInt64.size = 2 ^ 64 := rfl
    omega

theorem int16_keeps (n : Int16) : Codec.int16.Keeps 0 n where
  read_write depth _ := by
    have hin : Reader.intIn Int16.minValue.toInt Int16.maxValue.toInt depth
        (Codec.int16.write n).outline = .ok n.toInt :=
      if_pos ⟨n.minValue_le_toInt, n.toInt_le⟩
    show Int16.ofInt <$> _ = _
    rw [hin]
    exact congrArg Except.ok (Int16.ofInt_toInt n)
  integral := by
    show n.toInt.natAbs < UInt64.size
    have hlow := n.le_toInt
    have hhigh := n.toInt_lt
    have hsize : UInt64.size = 2 ^ 64 := rfl
    omega

end Codec

/-! ## Columns -/

/-- No column answers to the name that a later one is written under. -/
def Distinct (cols : List Column) : Prop := cols.Pairwise fun c c' => c'.name ∉ c.names

/-- The columns keep the values of the record. -/
def Row.Kept (levels : Nat) : (cols : List Column) → Row cols → Prop
  | [], _ => True
  | c :: cs, (a, rest) => c.codec.Keeps levels a ∧ Row.Kept levels cs rest

theorem Row.kept_of_forall {levels : Nat} {cols : List Column}
    (h : ∀ c ∈ cols, ∀ a, c.codec.Keeps levels a) (row : Row cols) : Row.Kept levels cols row := by
  induction cols with
  | nil => trivial
  | cons c cs ih =>
    obtain ⟨hc, hcs⟩ := List.forall_mem_cons.1 h
    exact ⟨hc row.1, ih hcs row.2⟩

/-- The members of a record, as a reader meets them. -/
abbrev Row.written (cols : List Column) (row : Row cols) : List Member :=
  memberOutlines (Row.members cols row)

/-- The member has a readable key, and no column answers to it. -/
def Unnamed (cols : List Column) (m : Member) : Prop :=
  ∃ key, m.1 = .ok key ∧ ∀ c ∈ cols, key ∉ c.names

theorem exists_column_of_mem_written {cols : List Column} {row : Row cols} {m : Member}
    (h : m ∈ Row.written cols row) :
    ∃ c ∈ cols, ∃ a : c.Value, m = (.ok c.name, (c.codec.write a).outline) := by
  induction cols with
  | nil => exact absurd h List.not_mem_nil
  | cons c cs ih =>
    rcases List.mem_cons.1 h with rfl | h
    · exact ⟨c, List.mem_cons_self, row.1, rfl⟩
    · obtain ⟨c', hc', hm⟩ := ih h
      exact ⟨c', List.mem_cons_of_mem _ hc', hm⟩

theorem unnamed_of_mem_written {cols others : List Column}
    (h : ∀ c ∈ cols, ∀ o ∈ others, c.name ∉ o.names) {row : Row cols} {m : Member}
    (hm : m ∈ Row.written cols row) : Unnamed others m := by
  obtain ⟨c, hc, a, rfl⟩ := exists_column_of_mem_written hm
  exact ⟨c.name, rfl, h c hc⟩

theorem integral_members {levels : Nat} {cols : List Column} {row : Row cols}
    (h : Row.Kept levels cols row) : MembersIntegral (Row.members cols row) := by
  induction cols with
  | nil => trivial
  | cons c cs ih => exact ⟨h.1.integral, ih h.2⟩

/-! ## Drafts -/

/-- The draft in which every column is filled. -/
def Draft.filled : (cols : List Column) → Row cols → Draft cols
  | [], _ => ()
  | _ :: cs, (a, rest) => (some a, filled cs rest)

theorem Draft.finish_filled {cols : List Column} (row : Row cols) :
    (filled cols row).finish cols = .ok row := by
  induction cols with
  | nil => rfl
  | cons c cs ih =>
    show (fun r => (row.1, r)) <$> finish cs (filled cs row.2) = _
    rw [ih row.2]
    rfl

theorem Draft.offer_cons_empty {key : String} {c : Column} (h : key ∈ c.names) (depth : Nat)
    (v : Outline) {cs : List Column} (d : Draft cs) :
    offer key depth v (c :: cs) (none, d) = some ((fun a => (some a, d)) <$> c.codec.read depth v) :=
  if_pos h

theorem Draft.offer_cons_filled {key : String} {c : Column} (h : key ∈ c.names) (depth : Nat)
    (v : Outline) {cs : List Column} (a : c.Value) (d : Draft cs) :
    offer key depth v (c :: cs) (some a, d) = some (.error .mistyped) :=
  if_pos h

theorem Draft.offer_cons_of_not_mem {key : String} {c : Column} (h : key ∉ c.names) (depth : Nat)
    (v : Outline) {cs : List Column} (slot : Option c.Value) (d : Draft cs) :
    offer key depth v (c :: cs) (slot, d) =
      (offer key depth v cs d).map ((fun d => (slot, d)) <$> ·) :=
  if_neg h

/-! ## Members in order -/

namespace Row

variable {spare : Spare} {depth : Nat} {cols : List Column} {key : String} {v : Outline}

theorem ofMembers_cons_of_some {d : Draft cols} {filled : Except Fault (Draft cols)}
    (h : d.offer key depth v cols = some filled) (ms : List Member) :
    ofMembers spare cols depth d ((.ok key, v) :: ms) =
      filled >>= fun d => ofMembers spare cols depth d ms := by
  rw [ofMembers]
  dsimp only [bind, Except.bind]
  rw [h]

theorem ofMembers_cons_of_none {d : Draft cols} (h : d.offer key depth v cols = none)
    (ms : List Member) :
    ofMembers spare cols depth d ((.ok key, v) :: ms) =
      spare.read key depth v >>= fun kept =>
        ofMembers spare cols depth d ms >>= fun p => Except.ok (p.1, kept ++ p.2) := by
  rw [ofMembers]
  dsimp only [bind, Except.bind]
  rw [h]

/-- Members that do not name the first column are read by the others. -/
theorem ofMembers_cons_of_unnamed {c : Column} {cs : List Column} {ms : List Member}
    (h : ∀ m ∈ ms, Unnamed [c] m) (slot : Option c.Value) {d d' : Draft cs} {kept : List Member}
    (hread : ofMembers spare cs depth d ms = .ok (d', kept)) :
    ofMembers spare (c :: cs) depth (slot, d) ms = .ok ((slot, d'), kept) := by
  induction ms generalizing d kept with
  | nil =>
    cases hread
    rfl
  | cons m ms ih =>
    obtain ⟨hm, hms⟩ := List.forall_mem_cons.1 h
    obtain ⟨key, v⟩ := m
    obtain ⟨key, rfl, hkey⟩ := hm
    -- what the others make of the member is also what all of them make of it
    have hpast := Draft.offer_cons_of_not_mem (hkey c List.mem_cons_self) depth v slot d
    cases hoffer : d.offer key depth v cs with
    | some filled =>
      rw [hoffer] at hpast
      rw [ofMembers_cons_of_some hoffer] at hread
      obtain ⟨d, rfl, hrest⟩ := Reader.exists_of_bind_eq_ok hread
      exact (ofMembers_cons_of_some hpast ms).trans (ih hms hrest)
    | none =>
      rw [hoffer] at hpast
      rw [ofMembers_cons_of_none hoffer] at hread
      obtain ⟨first, hspare, hread⟩ := Reader.exists_of_bind_eq_ok hread
      obtain ⟨p, hrest, heq⟩ := Reader.exists_of_map_eq_ok hread
      cases heq
      rw [ofMembers_cons_of_none hpast, hspare]
      show ofMembers spare (c :: cs) depth (slot, d) ms >>= _ = _
      rw [ih hms hrest]
      rfl

/-- **The written members of a record fill its columns**, and what follows them is left to those that
take what names no column. -/
theorem ofMembers_written {levels : Nat} (hlevels : levels ≤ depth) (hdistinct : Distinct cols)
    {row : Row cols} (hkept : Row.Kept levels cols row) {tail kept : List Member}
    (hunnamed : ∀ m ∈ tail, Unnamed cols m)
    (htail : ofMembers spare [] depth () tail = .ok ((), kept)) :
    ofMembers spare cols depth (Draft.empty cols) (written cols row ++ tail) =
      .ok (Draft.filled cols row, kept) := by
  -- the first member fills the first column, and all that follow pass it by
  induction cols with
  | nil => exact htail
  | cons c cs ih =>
    obtain ⟨hfirst, hrest⟩ := List.pairwise_cons.1 hdistinct
    have hoffer : (Draft.empty (c :: cs)).offer c.name depth (c.codec.write row.1).outline (c :: cs) =
        some (.ok (some row.1, Draft.empty cs)) := by
      refine (Draft.offer_cons_empty List.mem_cons_self depth _ (Draft.empty cs)).trans ?_
      rw [hkept.1.read_write depth hlevels]
      rfl
    have hothers : ofMembers spare cs depth (Draft.empty cs) (written cs row.2 ++ tail) =
        .ok (Draft.filled cs row.2, kept) := by
      refine ih hrest hkept.2 fun m hm => ?_
      obtain ⟨key, hkey, hnames⟩ := hunnamed m hm
      exact ⟨key, hkey, fun c' hc' => hnames c' (List.mem_cons_of_mem _ hc')⟩
    refine (ofMembers_cons_of_some hoffer _).trans ?_
    refine ofMembers_cons_of_unnamed (fun m hm => ?_) (some row.1) hothers
    rcases List.mem_append.1 hm with hm | hm
    · exact unnamed_of_mem_written
        (fun c' hc' o ho => List.mem_singleton.1 ho ▸ hfirst c' hc') hm
    · obtain ⟨key, hkey, hnames⟩ := hunnamed m hm
      exact ⟨key, hkey, fun o ho => List.mem_singleton.1 ho ▸ hnames c List.mem_cons_self⟩

/-- The members of an object that is no more than a written record. -/
theorem ofObject_written {levels : Nat} (hlevels : levels ≤ depth) (hdistinct : Distinct cols)
    {row : Row cols} (hkept : Row.Kept levels cols row) :
    ofObject spare cols depth (written cols row) none = .ok (row, []) := by
  have hmembers : ofMembers spare cols depth (Draft.empty cols) (written cols row ++ []) =
      .ok (Draft.filled cols row, []) :=
    ofMembers_written hlevels hdistinct hkept (fun m hm => absurd hm List.not_mem_nil) rfl
  rw [List.append_nil] at hmembers
  rw [ofObject, hmembers]
  show (do let row ← (Draft.filled cols row).finish cols; Except.ok (row, [])) = _
  rw [Draft.finish_filled]
  rfl

end Row

/-! ## Records -/

/-- **A record keeps what its columns keep.** -/
theorem Codec.record_keeps {α : Type} {cols : List Column} {toRow : α → Row cols}
    {ofRow : Row cols → α} {levels : Nat} {a : α} (hdistinct : Distinct cols)
    (hkept : Row.Kept levels cols (toRow a)) (hback : ofRow (toRow a) = a) :
    (Codec.record cols toRow ofRow).Keeps (levels + 1) a where
  read_write depth hdepth := by
    obtain ⟨depth, rfl⟩ : ∃ d, depth = d + 1 := ⟨depth - 1, by omega⟩
    show ofRow <$> Prod.fst <$> Row.ofObject .skipped cols depth (Row.written cols (toRow a)) none = _
    rw [Row.ofObject_written (Nat.le_of_succ_le_succ hdepth) hdistinct hkept]
    exact congrArg Except.ok hback
  integral := integral_members hkept

/-- The written members of a record whose values are scalars can all be handed on. -/
theorem ofMembers_kept {depth : Nat} {ms : List Member}
    (h : ∀ m ∈ ms, ∃ key j, m.1 = .ok key ∧ m.2.toJson depth = .ok j) :
    Row.ofMembers .kept [] depth () ms = .ok ((), ms) := by
  induction ms with
  | nil => rfl
  | cons m ms ih =>
    obtain ⟨⟨key, j, hkey, hj⟩, hms⟩ := List.forall_mem_cons.1 h
    obtain ⟨key', v⟩ := m
    obtain rfl : key' = .ok key := hkey
    have hspare : Spare.kept.read key depth v = .ok [(.ok key, v)] := by
      show (do let _ ← v.toJson depth; Except.ok [((.ok key, v) : Member)]) = _
      rw [show v.toJson depth = .ok j from hj]
      rfl
    rw [Row.ofMembers_cons_of_none rfl, hspare, ih hms]
    rfl

/-- **An open record keeps its own columns and those of the record inside it.** -/
theorem Reader.flattened_written {cols inner : List Column} {levels depth : Nat}
    (hlevels : levels ≤ depth) (hdistinct : Distinct cols) (hinner : Distinct inner)
    (hapart : ∀ i ∈ inner, ∀ c ∈ cols, i.name ∉ c.names) {row : Row cols} {row' : Row inner}
    (hkept : Row.Kept levels cols row) (hkept' : Row.Kept levels inner row')
    (hscalar : ∀ m ∈ Row.written inner row', ∃ j, m.2.toJson depth = .ok j) :
    Reader.flattened cols inner (depth + 1)
        (.object (Row.written cols row ++ Row.written inner row') none) = .ok (row, row') := by
  have hunnamed : ∀ m ∈ Row.written inner row', Unnamed cols m :=
    fun m hm => unnamed_of_mem_written hapart hm
  have htail : Row.ofMembers .kept [] depth () (Row.written inner row') =
      .ok ((), Row.written inner row') := by
    refine ofMembers_kept fun m hm => ?_
    obtain ⟨key, hkey, -⟩ := hunnamed m hm
    obtain ⟨j, hj⟩ := hscalar m hm
    exact ⟨key, j, hkey, hj⟩
  have houter : Row.ofObject .kept cols depth (Row.written cols row ++ Row.written inner row') none =
      .ok (row, Row.written inner row') := by
    rw [Row.ofObject, Row.ofMembers_written hlevels hdistinct hkept hunnamed htail]
    show (do let row ← (Draft.filled cols row).finish cols; Except.ok (row, _)) = _
    rw [Draft.finish_filled]
    rfl
  rw [Reader.flattened, houter]
  show (do let p ← Row.ofObject .skipped inner depth (Row.written inner row') none
           Except.ok (row, p.1)) = _
  rw [Row.ofObject_written hlevels hinner hkept']
  rfl

/-! ## Where values come from -/

/-- The value was read by the column's codec. -/
def Column.Read (c : Column) (a : c.Value) : Prop := ∃ depth v, c.codec.read depth v = .ok a

/-- The value was read, or it stands for a missing one. -/
def Column.Yields (c : Column) (a : c.Value) : Prop := c.Read a ∨ c.absent = some a

/-- All values so far were read. -/
def Draft.Yielded : (cols : List Column) → Draft cols → Prop
  | [], _ => True
  | c :: cs, (slot, rest) => (∀ a ∈ slot, c.Read a) ∧ Yielded cs rest

/-- Every value is one that its column yields. -/
def Row.Yielded : (cols : List Column) → Row cols → Prop
  | [], _ => True
  | c :: cs, (a, rest) => c.Yields a ∧ Yielded cs rest

namespace Draft

theorem yielded_empty (cols : List Column) : Yielded cols (empty cols) := by
  induction cols with
  | nil => trivial
  | cons c cs ih => exact ⟨fun _ h => (nomatch h), ih⟩

theorem Yielded.offer {key : String} {depth : Nat} {v : Outline} {cols : List Column}
    {d d' : Draft cols} (h : Yielded cols d) (hoffer : d.offer key depth v cols = some (.ok d')) :
    Yielded cols d' := by
  induction cols with
  | nil => cases hoffer
  | cons c cs ih =>
    obtain ⟨slot, d⟩ := d
    by_cases hkey : key ∈ c.names
    · cases slot with
      | some a =>
        rw [offer_cons_filled hkey] at hoffer
        cases hoffer
      | none =>
        rw [offer_cons_empty hkey] at hoffer
        obtain ⟨a, hread, rfl⟩ := Reader.exists_of_map_eq_ok (Option.some.inj hoffer)
        exact ⟨fun a' ha' => Option.some.inj ha' ▸ ⟨depth, v, hread⟩, h.2⟩
    · rw [offer_cons_of_not_mem hkey] at hoffer
      obtain ⟨filled, hfilled, hmap⟩ := Option.map_eq_some_iff.1 hoffer
      obtain ⟨d'', rfl, rfl⟩ := Reader.exists_of_map_eq_ok hmap
      exact ⟨h.1, ih h.2 hfilled⟩

theorem Yielded.finish {cols : List Column} {d : Draft cols} {row : Row cols} (h : Yielded cols d)
    (hfinish : d.finish cols = .ok row) : Row.Yielded cols row := by
  induction cols with
  | nil => trivial
  | cons c cs ih =>
    obtain ⟨slot, d⟩ := d
    cases hvalue : slot <|> c.absent with
    | none =>
      rw [Draft.finish, hvalue] at hfinish
      cases hfinish
    | some a =>
      rw [Draft.finish, hvalue] at hfinish
      obtain ⟨row, hrest, rfl⟩ := Reader.exists_of_map_eq_ok hfinish
      refine ⟨?_, ih h.2 hrest⟩
      cases slot with
      | some a' => exact Or.inl (h.1 a hvalue)
      | none => exact Or.inr hvalue

end Draft

namespace Row

theorem yielded_of_ofMembers {spare : Spare} {depth : Nat} {cols : List Column} {ms more : List Member}
    {d d' : Draft cols} (h : Draft.Yielded cols d)
    (hread : ofMembers spare cols depth d ms = .ok (d', more)) : Draft.Yielded cols d' := by
  induction ms generalizing d more with
  | nil =>
    cases hread
    exact h
  | cons m ms ih =>
    obtain ⟨key, v⟩ := m
    cases key with
    | error f => cases hread
    | ok key =>
      cases hoffer : d.offer key depth v cols with
      | some filled =>
        rw [ofMembers_cons_of_some hoffer] at hread
        obtain ⟨d, rfl, hrest⟩ := Reader.exists_of_bind_eq_ok hread
        exact ih (h.offer hoffer) hrest
      | none =>
        rw [ofMembers_cons_of_none hoffer] at hread
        obtain ⟨kept, -, hread⟩ := Reader.exists_of_bind_eq_ok hread
        obtain ⟨⟨d', rest⟩, hrest, heq⟩ := Reader.exists_of_map_eq_ok hread
        cases heq
        exact ih h hrest

theorem yielded_of_ofItems {depth : Nat} {cols : List Column} {vs : List Outline}
    {stop : Option Stop} {row : Row cols} (hread : ofItems depth cols vs stop = .ok row) :
    Yielded cols row := by
  induction cols generalizing vs with
  | nil => trivial
  | cons c cs ih =>
    cases vs with
    | nil =>
      cases stop with
      | some s => cases hread
      | none =>
        cases habsent : c.absent with
        | none =>
          rw [ofItems, habsent] at hread
          cases hread
        | some a =>
          rw [ofItems, habsent] at hread
          obtain ⟨row, hrest, rfl⟩ := Reader.exists_of_map_eq_ok hread
          exact ⟨Or.inr habsent, ih hrest⟩
    | cons v vs =>
      rw [ofItems] at hread
      obtain ⟨a, hvalue, hread⟩ := Reader.exists_of_bind_eq_ok hread
      obtain ⟨row, hrest, heq⟩ := Reader.exists_of_map_eq_ok hread
      cases heq
      exact ⟨Or.inl ⟨depth, v, hvalue⟩, ih hrest⟩

end Row

/-- **A record is made of nothing but what its columns yield.** -/
theorem Reader.yielded_of_plain {cols : List Column} {depth : Nat} {v : Outline} {row : Row cols}
    (h : Reader.plain cols depth v = .ok row) : Row.Yielded cols row := by
  cases depth with
  | zero => cases v <;> cases h
  | succ depth =>
    cases v with
    | object ms stop =>
      obtain ⟨⟨row, more⟩, hobject, rfl⟩ := Reader.exists_of_map_eq_ok h
      obtain ⟨⟨d, more⟩, hmembers, hobject⟩ := Reader.exists_of_bind_eq_ok hobject
      have hd : Draft.Yielded cols d := Row.yielded_of_ofMembers (Draft.yielded_empty cols) hmembers
      cases stop with
      | some s => cases hobject
      | none =>
        obtain ⟨row, hfinish, heq⟩ := Reader.exists_of_map_eq_ok hobject
        cases heq
        exact hd.finish hfinish
    | array vs stop => exact Row.yielded_of_ofItems h
    | _ => cases h

end TupleSync.Json
