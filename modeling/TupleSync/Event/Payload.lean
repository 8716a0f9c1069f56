import TupleSync.Json.Printer
import TupleSync.Entity.Codec
import TupleSync.Event.Basic

/-!
# Payloads

**The payload of an event is one small record, and its name is not part of it.** A creation or an update
holds the record under the title of its kind; a deletion holds the id under the title with `ID` behind
it; an affiliation holds its two ids. Who reads a payload has to know the event's name.
-/

set_option autoImplicit false

namespace TupleSync

open Json

namespace Affiliation

/-- The two columns of an affiliation, both of them ids. -/
abbrev columns (first second : String) : List Column :=
  [.required first .int64, .required second .int64]

/-- The names of the ids. -/
def idNames : AffiliationKind → String × String
  | .userInSupportGroup => ("SupportGroupID", "UserID")
  | .serviceInSupportGroup => ("SupportGroupID", "ServiceID")
  | .ownerOfService => ("ServiceID", "OwnerID")

/-- The ids, in the order of their names. -/
def ids : Affiliation → Int64 × Int64
  | .userInSupportGroup group user => (group, user)
  | .serviceInSupportGroup group service => (group, service)
  | .ownerOfService service owner => (service, owner)

/-- The affiliation of these ids. -/
def ofIds : AffiliationKind → Int64 × Int64 → Affiliation
  | .userInSupportGroup, (group, user) => .userInSupportGroup group user
  | .serviceInSupportGroup, (group, service) => .serviceInSupportGroup group service
  | .ownerOfService, (service, owner) => .ownerOfService service owner

theorem ofIds_ids (m : Affiliation) : ofIds m.kind m.ids = m := by cases m <;> rfl

/-- Affiliations of the kind. -/
def codec (k : AffiliationKind) : Codec Affiliation :=
  .record (columns (idNames k).1 (idNames k).2)
    (fun m => (m.ids.1, m.ids.2, ()))
    (fun (a, b, ()) => ofIds k (a, b))

end Affiliation

namespace Event

/-- A record of one column. -/
abbrev single {α : Type} (name : String) (codec : Codec α) : Codec α :=
  .record [.required name codec] (fun a => (a, ())) Prod.fst

/-- The object that holds a record of the kind. -/
def entityCodec (k : EntityKind) : Codec Entity := single k.title (Entity.codec k)

/-- The object that holds the id of a record of the kind. -/
def idCodec (k : EntityKind) : Codec Int64 := single (k.title ++ "ID") .int64

/-- The payload of an event. -/
def payload : Event → Json
  | .created e => (entityCodec e.kind).write e
  | .updated e => (entityCodec e.kind).write e
  | .deleted kind id => (idCodec kind).write id
  | .linked m => (Affiliation.codec m.kind).write m
  | .unlinked m => (Affiliation.codec m.kind).write m

/-- The payload as it travels. -/
def payloadBytes (e : Event) : List UInt8 := e.payload.bytes

/-- Reads the payload of an event of the name. -/
def reader : EventName → Reader Event
  | .create k => fun depth v => created <$> (entityCodec k).read depth v
  | .update k => fun depth v => updated <$> (entityCodec k).read depth v
  | .delete k => fun depth v => deleted k <$> (idCodec k).read depth v
  | .link k => fun depth v => linked <$> (Affiliation.codec k).read depth v
  | .unlink k => fun depth v => unlinked <$> (Affiliation.codec k).read depth v

/-- The event of the name that the bytes are the payload of. -/
def ofPayload (n : EventName) (bytes : List UInt8) : Except Fault Event :=
  decode (reader n) bytes

end Event

end TupleSync
