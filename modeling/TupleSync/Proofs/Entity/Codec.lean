import TupleSync.Entity.Codec
import TupleSync.Proofs.Json.Record
import TupleSync.Proofs.Time.Instant

/-!
# Entities are read as they were written

**Every kind of record is kept by its codec, whatever its fields hold.** That takes four facts about a
layout, and no more: its columns are told apart by their names, none of them answers to an audit column's
name, each keeps all its values, and the fields can be put together again.
-/

set_option autoImplicit false

namespace TupleSync

open Json

/-! ## Columns -/

theorem Instant.read_text (s : String) (depth : Nat) :
    Instant.codec.read depth (.text (.ok s)) =
      match Instant.parse? s with
      | some t => .ok (some t)
      | none => .error .mistyped := rfl

theorem Instant.codec_keeps (t : Option Instant) : Instant.codec.Keeps 0 t where
  read_write _ _ := by
    cases t with
    | none => rfl
    | some t =>
      show Instant.codec.read _ (.text (.ok t.text)) = _
      rw [Instant.read_text, Instant.parse?_text]
  integral := by
    cases t with
    | none => trivial
    | some t => trivial

/-- The column keeps every value, and each is written as a scalar. -/
structure Json.Column.Scalar (c : Column) : Prop where
  keeps : ∀ a, c.codec.Keeps 0 a
  toJson : ∀ a depth, (c.codec.write a).outline.toJson depth = .ok (c.codec.write a)

@[simp] theorem key_scalar : Layout.key.Scalar := ⟨Codec.int64_keeps, fun _ _ => rfl⟩

@[simp] theorem textColumn_scalar (name : String) (aliases : List String) :
    (textColumn name aliases).Scalar := ⟨Codec.text_keeps, fun _ _ => rfl⟩

@[simp] theorem idColumn_scalar (name : String) (aliases : List String) :
    (idColumn name aliases).Scalar := ⟨Codec.int64_keeps, fun _ _ => rfl⟩

@[simp] theorem int16Column_scalar (name : String) :
    (Column.optional name [] Codec.int16 0).Scalar := ⟨Codec.int16_keeps, fun _ _ => rfl⟩

@[simp] theorem instantColumn_scalar (name : String) :
    (Column.optional name [] Instant.codec none).Scalar :=
  ⟨Instant.codec_keeps, fun t _ => by cases t <;> rfl⟩

namespace Audit

theorem columns_scalar : ∀ c ∈ columns, c.Scalar := by
  simp

theorem toRow_kept (a : Audit) : Row.Kept 0 columns a.toRow :=
  Row.kept_of_forall (fun c hc => (columns_scalar c hc).keeps) _

theorem columns_distinct : Distinct columns := by
  simp [Distinct, Column.names]

theorem ofRow_toRow (a : Audit) : ofRow a.toRow = a := rfl

end Audit

/-! ## Layouts -/

namespace Layout

/-- The layout can be written and read back. -/
structure Lawful {α : Type} (l : Layout α) : Prop where
  distinct : Distinct l.columns
  /-- No column answers to the name of an audit column. -/
  apart : ∀ i ∈ Audit.columns, ∀ c ∈ l.columns, i.name ∉ c.names
  scalar : ∀ c ∈ l.columns, c.Scalar
  ofRow_toRow : ∀ a, l.ofRow (l.toRow a) (l.audit a) = a

theorem Lawful.toRow_kept {α : Type} {l : Layout α} (h : l.Lawful) (a : α) :
    Row.Kept 0 l.columns (l.toRow a) :=
  Row.kept_of_forall (fun c hc => (h.scalar c hc).keeps) _

/-- **A lawful layout keeps every record**, one level below the record itself. -/
theorem Lawful.codec_keeps {α : Type} {l : Layout α} (h : l.Lawful) (a : α) :
    l.codec.Keeps 1 a where
  read_write depth hdepth := by
    obtain ⟨depth, rfl⟩ : ∃ d, depth = d + 1 := ⟨depth - 1, by omega⟩
    have hread := Reader.flattened_written (Nat.zero_le depth) h.distinct Audit.columns_distinct
      h.apart (h.toRow_kept a) (l.audit a).toRow_kept fun m hm => by
        obtain ⟨c, hc, v, rfl⟩ := exists_column_of_mem_written hm
        exact ⟨_, (Audit.columns_scalar c hc).toJson v depth⟩
    rw [← memberOutlines_append] at hread
    show (Reader.flattened l.columns Audit.columns (depth + 1) (l.codec.write a).outline >>= fun p =>
      Except.ok (l.ofRow p.1 (Audit.ofRow p.2))) = _
    rw [show Reader.flattened l.columns Audit.columns (depth + 1) (l.codec.write a).outline =
      .ok (l.toRow a, (l.audit a).toRow) from hread]
    show Except.ok (l.ofRow (l.toRow a) (Audit.ofRow (l.audit a).toRow)) = _
    rw [Audit.ofRow_toRow, h.ofRow_toRow]
  integral :=
    (integral_members (h.toRow_kept a)).append (integral_members (l.audit a).toRow_kept)

end Layout

theorem SupportGroup.layout_lawful : SupportGroup.layout.Lawful where
  distinct := by simp [SupportGroup.layout, Distinct, Column.names]
  apart := by simp [SupportGroup.layout, Column.names]
  scalar := by simp [SupportGroup.layout]
  ofRow_toRow _ := rfl

theorem Service.layout_lawful : Service.layout.Lawful where
  distinct := by simp [Service.layout, Distinct, Column.names]
  apart := by simp [Service.layout, Column.names]
  scalar := by simp [Service.layout]
  ofRow_toRow _ := rfl

theorem Component.layout_lawful : Component.layout.Lawful where
  distinct := by simp [Component.layout, Distinct, Column.names]
  apart := by simp [Component.layout, Column.names]
  scalar := by simp [Component.layout]
  ofRow_toRow _ := rfl

theorem ComponentVersion.layout_lawful : ComponentVersion.layout.Lawful where
  distinct := by simp [ComponentVersion.layout, Distinct, Column.names]
  apart := by simp [ComponentVersion.layout, Column.names]
  scalar := by simp [ComponentVersion.layout]
  ofRow_toRow _ := rfl

theorem ComponentInstance.layout_lawful : ComponentInstance.layout.Lawful where
  distinct := by simp [ComponentInstance.layout, Distinct, Column.names]
  apart := by simp [ComponentInstance.layout, Column.names]
  scalar := by simp [ComponentInstance.layout]
  ofRow_toRow _ := rfl

theorem IssueMatch.layout_lawful : IssueMatch.layout.Lawful where
  distinct := by simp [IssueMatch.layout, Distinct, Column.names]
  apart := by simp [IssueMatch.layout, Column.names]
  scalar := by simp [IssueMatch.layout]
  ofRow_toRow _ := rfl

theorem User.layout_lawful : User.layout.Lawful where
  distinct := by simp [User.layout, Distinct, Column.names]
  apart := by simp [User.layout, Column.names]
  scalar := by simp [User.layout]
  ofRow_toRow _ := rfl

/-! ## Records of any kind -/

namespace Entity

/-- **Every record is kept by the codec of its kind.** -/
theorem codec_keeps (e : Entity) : (Entity.codec e.kind).Keeps 1 e := by
  cases e with
  | supportGroup r => exact (SupportGroup.layout_lawful.codec_keeps r).map (fun _ _ => rfl) rfl
  | service r => exact (Service.layout_lawful.codec_keeps r).map (fun _ _ => rfl) rfl
  | component r => exact (Component.layout_lawful.codec_keeps r).map (fun _ _ => rfl) rfl
  | componentVersion r => exact (ComponentVersion.layout_lawful.codec_keeps r).map (fun _ _ => rfl) rfl
  | componentInstance r => exact (ComponentInstance.layout_lawful.codec_keeps r).map (fun _ _ => rfl) rfl
  | issueMatch r => exact (IssueMatch.layout_lawful.codec_keeps r).map (fun _ _ => rfl) rfl
  | user r => exact (User.layout_lawful.codec_keeps r).map (fun _ _ => rfl) rfl

/-- What is read as a record of a kind is of that kind. -/
theorem kind_of_read {k : EntityKind} {depth : Nat} {v : Outline} {e : Entity}
    (h : (Entity.codec k).read depth v = .ok e) : e.kind = k := by
  cases k
  all_goals
    obtain ⟨r, -, rfl⟩ := Reader.exists_of_map_eq_ok h
    rfl

end Entity

end TupleSync
