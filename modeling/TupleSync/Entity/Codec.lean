import TupleSync.Json.Record
import TupleSync.Entity.Basic

/-!
# How entities are written

**An entity is one flat object: its own columns and, beside them, the four audit columns.** Only the id
has to be there. Whatever else a record holds is read to its end and then dropped.

The foreign keys of three kinds are written under the names of an older schema and read under either
name; so is the external id of a user.
-/

set_option autoImplicit false

namespace TupleSync

open Json

/-- A moment, or nothing. -/
def Instant.codec : Codec (Option Instant) where
  read depth v :=
    match v with
    | .scalar .null => .ok none
    | _ => do
      let s ← Reader.text depth v
      match Instant.parse? s with
      | some t => .ok (some t)
      | none => .error .mistyped
  write
    | none => .null
    | some t => .text t.text

/-- A column for text that is empty where it is missing. -/
abbrev textColumn (name : String) (aliases : List String) : Column :=
  .optional name aliases .text ""

/-- A column for an id that is not set where it is missing. -/
abbrev idColumn (name : String) (aliases : List String) : Column :=
  .optional name aliases .int64 0

namespace Audit

abbrev columns : List Column :=
  [idColumn "created_by" [], .optional "created_at" [] Instant.codec none,
   idColumn "updated_by" [], .optional "updated_at" [] Instant.codec none]

def toRow (a : Audit) : Row columns :=
  (a.createdBy, a.createdAt, a.updatedBy, a.updatedAt, ())

def ofRow : Row columns → Audit
  | (createdBy, createdAt, updatedBy, updatedAt, ()) => ⟨createdBy, createdAt, updatedBy, updatedAt⟩

end Audit

/-- The columns of a kind of records, and how they stand for its fields. -/
structure Layout (α : Type) where
  columns : List Column
  toRow : α → Row columns
  audit : α → Audit
  ofRow : Row columns → Audit → α

namespace Layout

/-- Every record starts with its id. -/
abbrev key : Column := .required "id" .int64

def codec {α : Type} (l : Layout α) : Codec α where
  read depth v := do
    let (row, audit) ← Reader.flattened l.columns Audit.columns depth v
    .ok (l.ofRow row (Audit.ofRow audit))
  write a :=
    .object (Row.members l.columns (l.toRow a) ++ Row.members Audit.columns (l.audit a).toRow)

end Layout

def SupportGroup.layout : Layout SupportGroup where
  columns := [Layout.key, textColumn "ccrn" []]
  toRow r := (r.id, r.ccrn, ())
  audit := SupportGroup.audit
  ofRow := fun (id, ccrn, ()) audit => ⟨id, ccrn, audit⟩

def Service.layout : Layout Service where
  columns := [Layout.key, textColumn "ccrn" [], idColumn "SupportGroupId" ["support_group_id"]]
  toRow r := (r.id, r.ccrn, r.supportGroup, ())
  audit := Service.audit
  ofRow := fun (id, ccrn, supportGroup, ()) audit => ⟨id, ccrn, supportGroup, audit⟩

def Component.layout : Layout Component where
  columns := [Layout.key, textColumn "ccrn" [], textColumn "type" []]
  toRow r := (r.id, r.ccrn, r.type, ())
  audit := Component.audit
  ofRow := fun (id, ccrn, type, ()) audit => ⟨id, ccrn, type, audit⟩

def ComponentVersion.layout : Layout ComponentVersion where
  columns := [Layout.key, textColumn "version" [], idColumn "ComponentId" ["component_id"]]
  toRow r := (r.id, r.version, r.component, ())
  audit := ComponentVersion.audit
  ofRow := fun (id, version, component, ()) audit => ⟨id, version, component, audit⟩

def ComponentInstance.layout : Layout ComponentInstance where
  columns :=
    [Layout.key, textColumn "ccrn" [], .optional "count" [] .int16 0,
     idColumn "ComponentVersionId" ["component_version_id"], idColumn "ServiceId" ["service_id"]]
  toRow r := (r.id, r.ccrn, r.count, r.componentVersion, r.service, ())
  audit := ComponentInstance.audit
  ofRow := fun (id, ccrn, count, componentVersion, service, ()) audit =>
    ⟨id, ccrn, count, componentVersion, service, audit⟩

def IssueMatch.layout : Layout IssueMatch where
  columns :=
    [Layout.key, textColumn "status" [], idColumn "issue_id" [],
     idColumn "component_instance_id" [], idColumn "user_id" []]
  toRow r := (r.id, r.status, r.issue, r.componentInstance, r.user, ())
  audit := IssueMatch.audit
  ofRow := fun (id, status, issue, componentInstance, user, ()) audit =>
    ⟨id, status, issue, componentInstance, user, audit⟩

def User.layout : Layout User where
  columns :=
    [Layout.key, textColumn "unique_user_id" ["uniqueUserId", "sapId"], textColumn "name" []]
  toRow r := (r.id, r.uniqueUserId, r.name, ())
  audit := User.audit
  ofRow := fun (id, uniqueUserId, name, ()) audit => ⟨id, uniqueUserId, name, audit⟩

namespace Entity

/-- Reads a record of the kind. -/
def read : EntityKind → Reader Entity
  | .supportGroup => fun depth v => supportGroup <$> SupportGroup.layout.codec.read depth v
  | .service => fun depth v => service <$> Service.layout.codec.read depth v
  | .component => fun depth v => component <$> Component.layout.codec.read depth v
  | .componentVersion => fun depth v =>
    componentVersion <$> ComponentVersion.layout.codec.read depth v
  | .componentInstance => fun depth v =>
    componentInstance <$> ComponentInstance.layout.codec.read depth v
  | .issueMatch => fun depth v => issueMatch <$> IssueMatch.layout.codec.read depth v
  | .user => fun depth v => user <$> User.layout.codec.read depth v

/-- The record as an object. -/
def toJson : Entity → Json
  | .supportGroup r => SupportGroup.layout.codec.write r
  | .service r => Service.layout.codec.write r
  | .component r => Component.layout.codec.write r
  | .componentVersion r => ComponentVersion.layout.codec.write r
  | .componentInstance r => ComponentInstance.layout.codec.write r
  | .issueMatch r => IssueMatch.layout.codec.write r
  | .user r => User.layout.codec.write r

/-- Entities of the kind. -/
def codec (k : EntityKind) : Codec Entity := ⟨read k, toJson⟩

end Entity

end TupleSync
