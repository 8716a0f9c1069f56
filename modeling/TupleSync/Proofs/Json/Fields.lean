import TupleSync.Proofs.Json.Variation

/-!
# What stands under a name

**What a text holds under a name is said of its tree, without columns, drafts and codecs.** `fields?` looks
for the members of an object by their names, each of which may be there once or not at all, or takes the
items of an array for the values of the names in their order; `text?` and `list?` say what a text and a
list are. A reader sees such a reading of the tree if it succeeds exactly there, with the same answer, on
trees of any depth that it is willing to enter (`Reader.Sees`).

`plain_eq_ok_iff_fields` says so of every record whose columns have one name each: what the reader makes of a tree
are the values of its fields, whatever the order of the members and whatever else there is.
-/

set_option autoImplicit false

namespace TupleSync.Json

/-! ## Reading the tree -/

namespace Outline

/-- The values of the members of the name. -/
def under (name : String) (ms : List Member) : List Outline :=
  ms.filterMap fun m =>
    match m.1 with
    | .ok key => if key = name then some m.2 else none
    | .error _ => none

/-- The member does not keep one from the values under the names: its key is text, and if it is another
one, the value can be passed over. -/
def isClearOf (names : List String) (m : Member) : Bool :=
  match m.1 with
  | .ok key => decide (key ∈ names) || m.2.skip.isOk
  | .error _ => false

/-- What stands under each of the names, if there is no name that is given twice and nothing that cannot be
read past. -/
def fields? (names : List String) : Outline → Option (List (Option Outline))
  | .object ms none =>
    if ms.all (isClearOf names) ∧ ∀ name ∈ names, (under name ms).length ≤ 1 then
      some (names.map fun name => (under name ms).head?)
    else none
  | .array vs none =>
    if vs.length ≤ names.length then
      some (vs.map some ++ List.replicate (names.length - vs.length) none)
    else none
  | _ => none

def text? : Outline → Option String
  | .text (.ok s) => some s
  | _ => none

/-- A list of what can be read as the items. -/
def list? {α : Type} (item? : Outline → Option α) : Outline → Option (List α)
  | .array vs none => vs.mapM item?
  | _ => none

variable {names : List String} {name key : String} {v : Outline} {ms : List Member}

theorem isClearOf_iff {m : Member} :
    isClearOf names m = true ↔ ∃ key, m.1 = .ok key ∧ (key ∈ names ∨ m.2.skip = .ok ()) := by
  obtain ⟨key | key, v⟩ := m
  · simp [isClearOf]
  · cases hskip : v.skip <;> simp [isClearOf, hskip, Except.isOk, Except.toBool]

theorem under_cons_self : under name ((.ok name, v) :: ms) = v :: under name ms := by
  simp [under]

theorem under_cons_of_ne (h : key ≠ name) : under name ((.ok key, v) :: ms) = under name ms := by
  simp [under, h]

theorem under_cons_of_error (f : Fault) : under name ((.error f, v) :: ms) = under name ms := by
  simp [under]

end Outline

open Outline

/-! ## Columns of one name -/

section Columns

variable {c : Column} {cs cols : List Column} {depth : Nat} {ms : List Member} {row : Row cols}

namespace Column

theorem valuesIn_eq_under (h : c.aliases = []) (ms : List Member) :
    c.valuesIn ms = under c.name ms := by
  induction ms with
  | nil => rfl
  | cons m ms ih =>
    obtain ⟨key | key, v⟩ := m
    · rw [under_cons_of_error, ← ih]
      simp [valuesIn, isNamedBy]
    · by_cases hkey : key = c.name
      · rw [valuesIn_cons_of_mem (by simp [names, hkey]), ih, hkey, under_cons_self]
      · rw [valuesIn_cons_of_not_mem (by simp [names, h, hkey]), ih, under_cons_of_ne hkey]

theorem under_leaves (h : c.aliases = []) {name : String} (hname : name ≠ c.name)
    (ms : List Member) : under name (c.leaves ms) = under name ms := by
  induction ms with
  | nil => rfl
  | cons m ms ih =>
    obtain ⟨key | key, v⟩ := m
    · rw [leaves_cons_of_error, under_cons_of_error, under_cons_of_error, ih]
    · by_cases hkey : key = c.name
      · rw [leaves_cons_of_mem (by simp [names, hkey]), ih, hkey, under_cons_of_ne hname.symm]
      · rw [leaves_cons_of_not_mem (by simp [names, h, hkey])]
        by_cases hsame : key = name
        · rw [hsame, under_cons_self, under_cons_self, ih]
        · rw [under_cons_of_ne hsame, under_cons_of_ne hsame, ih]

/-- What a column leaves is clear of the other names if all that there was is clear of all the names. -/
theorem isClearOf_leaves_iff (h : c.aliases = []) {others : List String} :
    (∀ m ∈ c.leaves ms, isClearOf others m = true) ↔
      ∀ m ∈ ms, isClearOf (c.name :: others) m = true := by
  have hone : ∀ m : Member, (c.isNamedBy m = false → isClearOf others m = true) ↔
      isClearOf (c.name :: others) m = true := by
    intro m
    obtain ⟨key | key, v⟩ := m
    · simp [isClearOf_iff, isNamedBy]
    · by_cases hkey : key = c.name
      · simp [isClearOf_iff, isNamedBy, names, hkey]
      · simp [isClearOf_iff, isNamedBy, names, h, hkey]
  simp only [leaves, List.mem_filter, and_imp, Bool.not_eq_true', hone]

theorem takes_iff_head? {vs : List Outline} {a : c.Value} :
    c.Takes depth vs a ↔ vs.length ≤ 1 ∧ c.Takes depth vs.head?.toList a := by
  match vs with
  | [] => simp
  | [v] => simp
  | v :: v' :: vs => simp [Takes]

end Column

namespace Row

/-- The columns take the values of a row from these fields, one by one. -/
def Fits (depth : Nat) : (cols : List Column) → List (Option Outline) → Row cols → Prop
  | [], [], _ => True
  | c :: cs, slot :: slots, (a, row) => c.Takes depth slot.toList a ∧ Fits depth cs slots row
  | _, _, _ => False

/-- **The members of an object are read by their names.** The induction is on the columns: the first one
takes what stands under its name and leaves the others what they look for. -/
theorem exists_ofObject_iff (hcols : ∀ c ∈ cols, c.aliases = []) (hnames : (cols.map Column.name).Nodup) :
    (∃ more, ofObject .skipped cols depth ms none = .ok (row, more)) ↔
      (∀ m ∈ ms, isClearOf (cols.map Column.name) m = true) ∧
        (∀ name ∈ cols.map Column.name, (under name ms).length ≤ 1) ∧
          Fits depth cols ((cols.map Column.name).map fun name => (under name ms).head?) row := by
  induction cols generalizing ms with
  | nil =>
    obtain ⟨⟩ := row
    have hclear : ∀ m : Member, isClearOf [] m = true ↔ Spare.skipped.Accepts depth m := by
      intro m
      simp [isClearOf_iff, Spare.Accepts]
    simp only [List.map_nil, hclear, List.not_mem_nil, false_imp_iff, implies_true, Fits, and_true]
    constructor
    · rintro ⟨more, h⟩
      exact (ofObject_nil_iff.1 h).1
    · intro h
      exact ⟨_, ofObject_nil_iff.2 ⟨h, rfl⟩⟩
  | cons c cs ih =>
    obtain ⟨a, row⟩ := row
    obtain ⟨hc, hcs⟩ := List.forall_mem_cons.1 hcols
    obtain ⟨hfirst, hrest⟩ := List.nodup_cons.1 hnames
    have hunder : ∀ name ∈ cs.map Column.name, under name (c.leaves ms) = under name ms :=
      fun name hname => Column.under_leaves hc (fun heq => hfirst (heq ▸ hname)) ms
    have hheads : ((cs.map Column.name).map fun name => (under name (c.leaves ms)).head?) =
        (cs.map Column.name).map fun name => (under name ms).head? :=
      List.map_congr_left fun name hname => by rw [hunder name hname]
    have hlengths : (∀ name ∈ cs.map Column.name, (under name (c.leaves ms)).length ≤ 1) ↔
        ∀ name ∈ cs.map Column.name, (under name ms).length ≤ 1 :=
      forall₂_congr fun name hname => by rw [hunder name hname]
    have hothers := @ih (c.leaves ms) row hcs hrest
    rw [Column.isClearOf_leaves_iff hc, hlengths, hheads] at hothers
    rw [List.map_cons, List.forall_mem_cons, List.map_cons]
    constructor
    · rintro ⟨more, h⟩
      obtain ⟨htakes, h⟩ := ofObject_cons_iff.1 h
      rw [Column.valuesIn_eq_under hc, Column.takes_iff_head?] at htakes
      obtain ⟨hclear, hlength, hfits⟩ := hothers.1 ⟨more, h⟩
      exact ⟨hclear, ⟨htakes.1, hlength⟩, htakes.2, hfits⟩
    · rintro ⟨hclear, ⟨hlength, hlengths⟩, htakes, hfits⟩
      obtain ⟨more, h⟩ := hothers.2 ⟨hclear, hlengths, hfits⟩
      refine ⟨more, ofObject_cons_iff.2 ⟨?_, h⟩⟩
      rw [Column.valuesIn_eq_under hc, Column.takes_iff_head?]
      exact ⟨hlength, htakes⟩

/-- **The items of an array are read in the order of the columns**, and those that are left have nothing. -/
theorem ofItems_eq_ok_iff {vs : List Outline} {stop : Option Stop} :
    ofItems depth cols vs stop = .ok row ↔ stop = none ∧ vs.length ≤ cols.length ∧
      Fits depth cols (vs.map some ++ List.replicate (cols.length - vs.length) none) row := by
  induction cols generalizing vs with
  | nil =>
    cases vs with
    | nil => cases stop <;> simp [ofItems, Fits]
    | cons v vs => simp [ofItems]
  | cons c cs ih =>
    obtain ⟨a, row⟩ := row
    cases vs with
    | nil =>
      cases stop with
      | some s => simp [ofItems]
      | none =>
        have hrest := @ih row []
        simp only [List.length_nil, Nat.zero_le, true_and, List.map_nil, List.nil_append,
          Nat.sub_zero] at hrest
        rw [ofItems]
        cases habsent : c.absent with
        | none => simp [Fits, Column.Takes, habsent, List.replicate_succ]
        | some a' =>
          simp only [List.length_nil, Nat.zero_le, List.map_nil, List.nil_append, Nat.sub_zero, true_and,
            List.length_cons, List.replicate_succ, Fits, Option.toList_none, Column.Takes, habsent,
            Option.some.injEq, ← hrest]
          constructor
          · intro h
            obtain ⟨row', hrow, heq⟩ := Reader.exists_of_map_eq_ok h
            cases heq
            exact ⟨rfl, hrow⟩
          · rintro ⟨rfl, hrow⟩
            rw [hrow]
            rfl
    | cons v vs =>
      have hrest := @ih row vs
      have hlengths : (c :: cs).length - (v :: vs).length = cs.length - vs.length :=
        Nat.add_sub_add_right ..
      rw [hlengths, List.length_cons, List.length_cons, Nat.add_le_add_iff_right, List.map_cons,
        List.cons_append]
      constructor
      · intro h
        obtain ⟨a', hread, h⟩ := Reader.exists_of_bind_eq_ok h
        obtain ⟨row', hrow, heq⟩ := Reader.exists_of_bind_eq_ok h
        cases heq
        obtain ⟨hstop, hle, hfits⟩ := hrest.1 hrow
        exact ⟨hstop, hle, hread, hfits⟩
      · rintro ⟨hstop, hle, hread, hfits⟩
        have hread : c.codec.read depth v = .ok a := hread
        rw [ofItems, hread]
        show (ofItems depth cs vs stop >>= _) = _
        rw [hrest.2 ⟨hstop, hle, hfits⟩]
        rfl

end Row

end Columns

/-! ## Readers -/

namespace Reader

/-- **A record of columns with one name each reads what stands under their names.** -/
theorem plain_eq_ok_iff_fields {cols : List Column} (hcols : ∀ c ∈ cols, c.aliases = [])
    (hnames : (cols.map Column.name).Nodup) {depth : Nat} {v : Outline} {row : Row cols} :
    plain cols (depth + 1) v = .ok row ↔
      ∃ slots, v.fields? (cols.map Column.name) = some slots ∧ Row.Fits depth cols slots row := by
  match v with
  | .scalar s => simp [plain, fields?]
  | .text t => simp [plain, fields?]
  | .broken stop => simp [plain, fields?]
  | .array vs stop =>
    show Row.ofItems depth cols vs stop = .ok row ↔ _
    rw [Row.ofItems_eq_ok_iff]
    cases stop with
    | none => simp [fields?, and_assoc]
    | some s => simp [fields?]
  | .object ms (some s) =>
    simp only [fields?, reduceCtorEq, false_and, exists_false, iff_false]
    intro h
    cases stop_eq_none_of_plain h
  | .object ms none =>
    rw [plain_eq_ok_iff, Row.exists_ofObject_iff hcols hnames]
    simp [fields?, and_assoc]

variable {α β : Type} {r : Reader α} {f : Outline → Option α} {levels : Nat}

/-- The reader succeeds exactly where the tree can be read so, and with the same answer, if it may enter so
many levels. -/
def Sees (r : Reader α) (levels : Nat) (f : Outline → Option α) : Prop :=
  ∀ depth, levels ≤ depth → ∀ v a, r depth v = .ok a ↔ f v = some a

theorem text_sees : Codec.text.read.Sees 0 text? := by
  intro depth _ v s
  match v with
  | .text (.ok s') => simp [Codec.text, text, text?]
  | .text (.error f) => simp [Codec.text, text, text?]
  | .scalar _ | .array _ _ | .object _ _ | .broken _ => simp [Codec.text, text, text?]

theorem Sees.items (h : r.Sees levels f) {depth : Nat} (hdepth : levels ≤ depth) {vs : List Outline}
    {as : List α} : Reader.items r depth vs none = .ok as ↔ vs.mapM f = some as := by
  induction vs generalizing as with
  | nil => simp [Reader.items]
  | cons v vs ih =>
    rw [List.mapM_cons]
    constructor
    · intro hread
      obtain ⟨a, hv, hread⟩ := exists_of_bind_eq_ok hread
      obtain ⟨as', hvs, heq⟩ := exists_of_bind_eq_ok hread
      cases heq
      simp [(h depth hdepth v a).1 hv, ih.1 hvs]
    · intro hsome
      simp only [Option.bind_eq_bind, Option.bind_eq_some_iff, Option.pure_def, Option.some.injEq] at hsome
      obtain ⟨a, hv, as', hvs, rfl⟩ := hsome
      rw [Reader.items, (h depth hdepth v a).2 hv]
      show (Reader.items r depth vs none >>= _) = _
      rw [ih.2 hvs]
      rfl

/-- An array without its closing bracket is no list. -/
theorem items_ne_ok_of_stop (r : Reader α) (depth : Nat) (vs : List Outline) (s : Stop) (as : List α) :
    Reader.items r depth vs (some s) ≠ .ok as := by
  induction vs generalizing as with
  | nil => exact nofun
  | cons v vs ih =>
    intro hread
    obtain ⟨a, -, hread⟩ := exists_of_bind_eq_ok hread
    obtain ⟨as', hvs, -⟩ := exists_of_bind_eq_ok hread
    exact ih as' hvs

theorem Sees.list (h : r.Sees levels f) : (Reader.list r).Sees (levels + 1) (list? f) := by
  intro depth hdepth v as
  obtain ⟨depth, rfl⟩ := Nat.exists_eq_add_of_le' hdepth
  match v with
  | .array vs none => exact h.items (Nat.le_add_left levels depth)
  | .array vs (some s) =>
    exact iff_of_false (items_ne_ok_of_stop r (depth + levels) vs s as) nofun
  | .scalar _ | .text _ | .object _ _ | .broken _ => simp [Reader.list, list?]

end Reader

/-! ## Columns and records -/

namespace Column

variable {α : Type} {codec : Codec α} {f : Outline → Option α} {levels : Nat}

/-- The column makes of what stands under its name, or of nothing, what the reading makes of it. -/
def Sees (c : Column) (levels : Nat) (g : Option Outline → Option c.Value) : Prop :=
  ∀ depth, levels ≤ depth → ∀ slot a, c.Takes depth slot.toList a ↔ g slot = some a

theorem required_sees (h : codec.read.Sees levels f) (name : String) :
    (required name codec).Sees levels fun slot => slot.bind f := by
  intro depth hdepth slot a
  cases slot with
  | none => simp [Takes]
  | some v => exact h depth hdepth v a

theorem optional_sees (h : codec.read.Sees levels f) (name : String) (absent : α) :
    (optional name [] codec absent).Sees levels fun slot => slot.elim (some absent) f := by
  intro depth hdepth slot a
  cases slot with
  | none => simp [Takes]
  | some v => exact h depth hdepth v a

end Column

/-- **A record is what the fields of its columns give.** -/
theorem Codec.record_sees {α : Type} {cols : List Column} {toRow : α → Row cols} {ofRow : Row cols → α}
    {names : List String} {levels : Nat} {g : List (Option Outline) → Option α}
    (hcols : ∀ c ∈ cols, c.aliases = []) (hnames : cols.map Column.name = names) (hapart : names.Nodup)
    (hfits : ∀ depth, levels ≤ depth → ∀ slots a,
      (∃ row, Row.Fits depth cols slots row ∧ ofRow row = a) ↔ g slots = some a) :
    (Codec.record cols toRow ofRow).read.Sees (levels + 1) fun v => (v.fields? names).bind g := by
  subst hnames
  intro depth hdepth v a
  obtain ⟨depth, rfl⟩ := Nat.exists_eq_add_of_le' hdepth
  rw [Option.bind_eq_some_iff]
  simp only [← hfits (depth + levels) (Nat.le_add_left levels depth)]
  constructor
  · intro h
    obtain ⟨row, hrow, rfl⟩ := Reader.exists_of_map_eq_ok h
    obtain ⟨slots, hslots, hrow⟩ := (Reader.plain_eq_ok_iff_fields hcols hapart).1 hrow
    exact ⟨slots, hslots, row, hrow, rfl⟩
  · rintro ⟨slots, hslots, row, hrow, rfl⟩
    have hread := (Reader.plain_eq_ok_iff_fields hcols hapart).2 ⟨slots, hslots, hrow⟩
    show ofRow <$> Reader.plain cols (depth + levels + 1) v = _
    rw [hread]
    rfl

/-- A record of one column is what stands under its name. -/
theorem Codec.record_sees_single {c : Column} {levels : Nat} {g : Option Outline → Option c.Value}
    (hc : c.aliases = []) (h : c.Sees levels g) :
    (Codec.record [c] (fun a => (a, ())) Prod.fst).read.Sees (levels + 1) fun v =>
      (v.fields? [c.name]).bind fun
        | [slot] => g slot
        | _ => none := by
  refine Codec.record_sees (by simp [hc]) rfl (by simp) fun depth hdepth slots a => ?_
  constructor
  · rintro ⟨⟨a, _⟩, hfits, rfl⟩
    match slots, hfits with
    | [slot], ⟨ha, _⟩ => exact (h depth hdepth slot a).1 ha
  · intro ha
    split at ha
    · exact ⟨(a, ()), ⟨(h depth hdepth _ a).2 ha, trivial⟩, rfl⟩
    · cases ha

end TupleSync.Json
