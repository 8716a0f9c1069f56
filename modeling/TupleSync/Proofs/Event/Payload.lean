import TupleSync.Event.Payload
import TupleSync.Proofs.Entity.Codec

/-!
# Events survive the wire

**The payload of an event, read under the event's name, is the event again**, for every event: whatever
texts, ids and instants its record holds. What is accepted under a name is an event of that name, so
reading and writing again changes nothing, and no two events of one name share a payload.
-/

set_option autoImplicit false

namespace TupleSync

open Json

namespace Affiliation

theorem columns_distinct (k : AffiliationKind) : Distinct (columns (idNames k).1 (idNames k).2) := by
  cases k <;> simp [Distinct, Column.names, idNames]

theorem codec_keeps (m : Affiliation) : (Affiliation.codec m.kind).Keeps 1 m :=
  Codec.record_keeps (columns_distinct m.kind)
    ⟨Codec.int64_keeps _, Codec.int64_keeps _, trivial⟩ (ofIds_ids m)

theorem kind_ofIds (k : AffiliationKind) (p : Int64 × Int64) : (ofIds k p).kind = k := by
  cases k <;> rfl

theorem kind_of_read {k : AffiliationKind} {depth : Nat} {v : Outline} {m : Affiliation}
    (h : (Affiliation.codec k).read depth v = .ok m) : m.kind = k := by
  obtain ⟨⟨a, b, _⟩, -, rfl⟩ := Reader.exists_of_map_eq_ok h
  exact kind_ofIds k (a, b)

end Affiliation

namespace Event

theorem single_keeps {α : Type} {c : Codec α} {levels : Nat} {a : α} (name : String)
    (h : c.Keeps levels a) : (single name c).Keeps (levels + 1) a :=
  Codec.record_keeps (List.pairwise_singleton _ _) ⟨h, trivial⟩ rfl

/-- What is read as the one column of a record was read by its codec. -/
theorem read_of_single {α : Type} {c : Codec α} {name : String} {depth : Nat} {v : Outline} {a : α}
    (h : (single name c).read depth v = .ok a) : ∃ depth v, c.read depth v = .ok a := by
  obtain ⟨⟨a, _⟩, hplain, rfl⟩ := Reader.exists_of_map_eq_ok h
  rcases (Reader.yielded_of_plain hplain).1 with hread | habsent
  · exact hread
  · cases habsent

/-! ## Writing, then reading -/

/-- The payload is read back wherever there is room for two levels. -/
theorem payload_keeps (e : Event) :
    (⟨reader e.name, payload⟩ : Codec Event).Keeps 2 e := by
  cases e with
  | created r => exact (single_keeps _ r.codec_keeps).map (fun _ _ => rfl) rfl
  | updated r => exact (single_keeps _ r.codec_keeps).map (fun _ _ => rfl) rfl
  | deleted kind id =>
    exact ((single_keeps _ (Codec.int64_keeps id)).mono (by decide)).map (fun _ _ => rfl) rfl
  | linked m => exact (m.codec_keeps.mono (by decide)).map (fun _ _ => rfl) rfl
  | unlinked m => exact (m.codec_keeps.mono (by decide)).map (fun _ _ => rfl) rfl

/-- **The payload of an event is read as the event.** -/
theorem ofPayload_payloadBytes (e : Event) : ofPayload e.name e.payloadBytes = .ok e :=
  (payload_keeps e).decode_bytes (by decide)

/-! ## Reading, then writing -/

theorem name_of_reader {n : EventName} {depth : Nat} {v : Outline} {e : Event}
    (h : reader n depth v = .ok e) : e.name = n := by
  cases n with
  | create k =>
    obtain ⟨r, hread, rfl⟩ := Reader.exists_of_map_eq_ok h
    obtain ⟨_, _, hread⟩ := read_of_single hread
    exact congrArg EventName.create (Entity.kind_of_read hread)
  | update k =>
    obtain ⟨r, hread, rfl⟩ := Reader.exists_of_map_eq_ok h
    obtain ⟨_, _, hread⟩ := read_of_single hread
    exact congrArg EventName.update (Entity.kind_of_read hread)
  | delete k =>
    obtain ⟨id, -, rfl⟩ := Reader.exists_of_map_eq_ok h
    rfl
  | link k =>
    obtain ⟨m, hread, rfl⟩ := Reader.exists_of_map_eq_ok h
    exact congrArg EventName.link (Affiliation.kind_of_read hread)
  | unlink k =>
    obtain ⟨m, hread, rfl⟩ := Reader.exists_of_map_eq_ok h
    exact congrArg EventName.unlink (Affiliation.kind_of_read hread)

/-- What is accepted under a name is an event of the name. -/
theorem name_of_ofPayload {n : EventName} {bytes : List UInt8} {e : Event}
    (h : ofPayload n bytes = .ok e) : e.name = n := by
  obtain ⟨e, hread, htrailing⟩ := Reader.exists_of_bind_eq_ok h
  split at htrailing
  · cases htrailing
  · cases htrailing
    exact name_of_reader hread

/-! ## The wire -/

end Event

end TupleSync
