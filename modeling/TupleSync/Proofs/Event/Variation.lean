import Mathlib.Logic.Relation
import TupleSync.Proofs.Event.Payload
import TupleSync.Proofs.Json.Variation

/-!
# Payloads of other writers

**A payload is read by what it says about the columns of its event, and by nothing else.** Whoever writes
it may put the members of the payload and those of the record in it in any order, may add members that
mean nothing here, and may use the older names of columns. `Varies` is one such change at either level. A
column that is given twice, under one name or under two, is refused at either level.

The payload of an event is a plain record, and the record in it is an open one, with the audit columns
inside; the two theories of the records meet in the one member that holds the record.
-/

set_option autoImplicit false

namespace TupleSync

open Json

/-! ## The columns of a kind of records -/

namespace EntityKind

/-- The columns of the kind itself. -/
def ownColumns : EntityKind → List Column
  | .supportGroup => SupportGroup.layout.columns
  | .service => Service.layout.columns
  | .component => Component.layout.columns
  | .componentVersion => ComponentVersion.layout.columns
  | .componentInstance => ComponentInstance.layout.columns
  | .issueMatch => IssueMatch.layout.columns
  | .user => User.layout.columns

/-- All that a record of the kind is read from: its own columns and the audit columns. -/
def columns (k : EntityKind) : List Column := k.ownColumns ++ Audit.columns

/-- No record has a name for two of its columns. -/
theorem columns_apart (k : EntityKind) : Apart k.columns := by
  cases k <;>
    simp [Apart, columns, ownColumns, SupportGroup.layout, Service.layout, Component.layout,
      ComponentVersion.layout, ComponentInstance.layout, IssueMatch.layout, User.layout, Column.names]

end EntityKind

theorem Layout.codec_read {α : Type} (l : Layout α) (depth : Nat) (v : Outline) :
    l.codec.read depth v =
      (fun p => l.ofRow p.1 (Audit.ofRow p.2)) <$> Reader.flattened l.columns Audit.columns depth v := by
  show (Reader.flattened l.columns Audit.columns depth v >>= _) = _
  cases Reader.flattened l.columns Audit.columns depth v with
  | error f => rfl
  | ok p => rfl

/-- A record of any kind is an open record of its columns. -/
theorem Entity.exists_read_eq (k : EntityKind) :
    ∃ f : Row k.ownColumns × Row Audit.columns → Entity, ∀ depth v,
      (Entity.codec k).read depth v = f <$> Reader.flattened k.ownColumns Audit.columns depth v := by
  have hmap : ∀ {α : Type} (l : Layout α) (wrap : α → Entity) (depth : Nat) (v : Outline),
      wrap <$> l.codec.read depth v =
        (fun p => wrap (l.ofRow p.1 (Audit.ofRow p.2))) <$>
          Reader.flattened l.columns Audit.columns depth v := by
    intro α l wrap depth v
    rw [Layout.codec_read]
    cases Reader.flattened l.columns Audit.columns depth v with
    | error f => rfl
    | ok p => rfl
  cases k with
  | supportGroup => exact ⟨_, hmap SupportGroup.layout .supportGroup⟩
  | service => exact ⟨_, hmap Service.layout .service⟩
  | component => exact ⟨_, hmap Component.layout .component⟩
  | componentVersion => exact ⟨_, hmap ComponentVersion.layout .componentVersion⟩
  | componentInstance => exact ⟨_, hmap ComponentInstance.layout .componentInstance⟩
  | issueMatch => exact ⟨_, hmap IssueMatch.layout .issueMatch⟩
  | user => exact ⟨_, hmap User.layout .user⟩

theorem Entity.read_of_variation {k : EntityKind} {depth : Nat} {fields fields' : List Member}
    (h : Variation k.columns depth fields fields') {e : Entity}
    (hread : (Entity.codec k).read (depth + 1) (.object fields none) = .ok e) :
    (Entity.codec k).read (depth + 1) (.object fields' none) = .ok e := by
  obtain ⟨f, hf⟩ := exists_read_eq k
  rw [hf] at hread ⊢
  obtain ⟨p, hflat, rfl⟩ := Reader.exists_of_map_eq_ok hread
  rw [Reader.flattened_of_variation k.columns_apart h hflat]
  rfl

theorem Entity.read_of_givenTwice {k : EntityKind} {depth : Nat} {fields : List Member}
    {stop : Option Stop} (h : Json.GivenTwice k.columns fields) (e : Entity) :
    (Entity.codec k).read depth (.object fields stop) ≠ .ok e := by
  intro hread
  obtain ⟨f, hf⟩ := exists_read_eq k
  rw [hf] at hread
  obtain ⟨p, hflat, -⟩ := Reader.exists_of_map_eq_ok hread
  exact Reader.flattened_of_givenTwice k.columns_apart h p hflat

/-! ## The columns of an event -/

namespace EventName

/-- The kind of the record that events of the name hold, if they hold one. -/
def held? : EventName → Option EntityKind
  | .create k => some k
  | .update k => some k
  | _ => none

/-- The columns of the payload. -/
def columns : EventName → List Column
  | .create k => [.required k.title (Entity.codec k)]
  | .update k => [.required k.title (Entity.codec k)]
  | .delete k => [.required (k.title ++ "ID") .int64]
  | .link k => Affiliation.columns (Affiliation.idNames k).1 (Affiliation.idNames k).2
  | .unlink k => Affiliation.columns (Affiliation.idNames k).1 (Affiliation.idNames k).2

theorem columns_apart (n : EventName) : Apart n.columns := by
  have hpair : ∀ k, Apart (Affiliation.columns (Affiliation.idNames k).1 (Affiliation.idNames k).2) := by
    intro k
    cases k <;> simp [Apart, Column.names, Affiliation.idNames]
  cases n with
  | link k => exact hpair k
  | unlink k => exact hpair k
  | _ => exact List.pairwise_singleton _ _

/-- An event that holds a record has no other column. -/
theorem columns_of_held {n : EventName} {k : EntityKind} (h : n.held? = some k) :
    n.columns = [.required k.title (Entity.codec k)] := by
  cases n with
  | create k' =>
    cases h
    rfl
  | update k' =>
    cases h
    rfl
  | _ => cases h

end EventName

namespace Event

variable {n : EventName}

/-- The payload of an event is a plain record of its columns. -/
theorem exists_reader_eq (n : EventName) :
    ∃ f : Row n.columns → Event, ∀ depth v, reader n depth v = f <$> Reader.plain n.columns depth v := by
  have hmap : ∀ {α : Type} (c : Codec α) (cols : List Column) (g : Row cols → α) (wrap : α → Event),
      (∀ depth v, c.read depth v = g <$> Reader.plain cols depth v) → ∀ depth v,
        wrap <$> c.read depth v = (fun row => wrap (g row)) <$> Reader.plain cols depth v := by
    intro α c cols g wrap hc depth v
    rw [hc]
    cases Reader.plain cols depth v with
    | error f => rfl
    | ok row => rfl
  cases n with
  | create k => exact ⟨_, hmap (entityCodec k) _ Prod.fst created fun _ _ => rfl⟩
  | update k => exact ⟨_, hmap (entityCodec k) _ Prod.fst updated fun _ _ => rfl⟩
  | delete k => exact ⟨_, hmap (idCodec k) _ Prod.fst (deleted k) fun _ _ => rfl⟩
  | link k => exact ⟨_, hmap (Affiliation.codec k) _ _ linked fun _ _ => rfl⟩
  | unlink k => exact ⟨_, hmap (Affiliation.codec k) _ _ unlinked fun _ _ => rfl⟩

/-! ## Changes of a payload -/

/-- One change of the members of a payload that its event does not notice, in the payload itself or in the
record that it holds. -/
inductive Varies (n : EventName) : List Member → List Member → Prop where
  | outside {ms ms' : List Member} (h : Variation n.columns (Document.maxDepth - 1) ms ms') :
    Varies n ms ms'
  | inside (before after : List Member) {k : EntityKind} (hk : n.held? = some k)
      {fields fields' : List Member} (h : Variation k.columns (Document.maxDepth - 2) fields fields') :
    Varies n (before ++ (.ok k.title, .object fields none) :: after)
      (before ++ (.ok k.title, .object fields' none) :: after)

/-- A column of the payload, or of the record that it holds, is given more than one value. -/
inductive GivenTwice (n : EventName) (ms : List Member) : Prop where
  | outside (h : Json.GivenTwice n.columns ms)
  | inside {k : EntityKind} (hk : n.held? = some k) {fields : List Member} {stop : Option Stop}
      (hmem : (.ok k.title, .object fields stop) ∈ ms) (h : Json.GivenTwice k.columns fields)

theorem plain_of_varies {ms ms' : List Member} (h : Varies n ms ms') {row : Row n.columns}
    (hread : Reader.plain n.columns Document.maxDepth (.object ms none) = .ok row) :
    Reader.plain n.columns Document.maxDepth (.object ms' none) = .ok row := by
  cases h with
  | outside h => exact Reader.plain_of_variation n.columns_apart h hread
  | @inside before after k hk fields fields' h =>
    have hnamed : ∃ c ∈ n.columns, k.title ∈ c.names := by
      rw [EventName.columns_of_held hk]
      exact ⟨_, List.mem_cons_self, List.mem_cons_self⟩
    -- the column that holds the record reads it alike before and after
    refine Reader.plain_of_revalued hnamed ?_ hread
    rw [EventName.columns_of_held hk]
    intro c hc _ a ha
    obtain rfl := List.mem_singleton.1 hc
    exact Entity.read_of_variation h ha

/-- **An event does not notice the changes of its payload**, however many are made. -/
theorem reader_of_varies {ms ms' : List Member} (h : Relation.ReflTransGen (Varies n) ms ms')
    {e : Event} (hread : reader n Document.maxDepth (.object ms none) = .ok e) :
    reader n Document.maxDepth (.object ms' none) = .ok e := by
  obtain ⟨f, hf⟩ := exists_reader_eq n
  rw [hf] at hread ⊢
  obtain ⟨row, hplain, rfl⟩ := Reader.exists_of_map_eq_ok hread
  have hplain' : Reader.plain n.columns Document.maxDepth (.object ms' none) = .ok row := by
    induction h with
    | refl => exact hplain
    | tail _ hlast ih => exact plain_of_varies hlast ih
  rw [hplain']
  rfl

theorem stop_eq_none_of_reader {ms : List Member} {stop : Option Stop} {depth : Nat} {e : Event}
    (hread : reader n depth (.object ms stop) = .ok e) : stop = none := by
  obtain ⟨f, hf⟩ := exists_reader_eq n
  rw [hf] at hread
  obtain ⟨row, hplain, -⟩ := Reader.exists_of_map_eq_ok hread
  exact Reader.stop_eq_none_of_plain hplain

/-- **An event refuses a payload that gives a column twice.** -/
theorem reader_of_givenTwice {ms : List Member} {stop : Option Stop} (h : GivenTwice n ms) (e : Event) :
    reader n Document.maxDepth (.object ms stop) ≠ .ok e := by
  intro hread
  obtain ⟨f, hf⟩ := exists_reader_eq n
  rw [hf] at hread
  obtain ⟨row, hplain, -⟩ := Reader.exists_of_map_eq_ok hread
  cases h with
  | outside h => exact Reader.plain_of_givenTwice n.columns_apart h row hplain
  | @inside k hk fields stop' hmem h =>
    obtain ⟨c, hc, hkey⟩ : ∃ c ∈ n.columns, k.title ∈ c.names := by
      rw [EventName.columns_of_held hk]
      exact ⟨_, List.mem_cons_self, List.mem_cons_self⟩
    obtain ⟨a, ha⟩ : ∃ a, c.codec.read (Document.maxDepth - 1) (.object fields stop') = .ok a :=
      Reader.exists_read_of_plain n.columns_apart hc hkey hmem hplain
    rw [EventName.columns_of_held hk] at hc
    obtain rfl := List.mem_singleton.1 hc
    exact Entity.read_of_givenTwice h a ha

/-! ## Payloads -/

theorem ofPayload_eq_ok_iff {bytes : List UInt8} {e : Event} :
    ofPayload n bytes = .ok e ↔ reader n Document.maxDepth (Document.ofBytes bytes).root = .ok e ∧
      (Document.ofBytes bytes).trailing = false := by
  constructor
  · intro h
    obtain ⟨e, hread, h⟩ := Reader.exists_of_bind_eq_ok h
    split at h
    · cases h
    · next htrailing =>
      cases h
      exact ⟨hread, Bool.eq_false_iff.2 htrailing⟩
  · rintro ⟨hread, htrailing⟩
    show (reader n Document.maxDepth (Document.ofBytes bytes).root >>= _) = _
    rw [hread, htrailing]
    rfl

/-- **A payload depends on its known members only.** A text that is the payload of an event, with its
members and those of the record in it put into any order, with members added whose keys are no names of
columns and whose values can be read, and with columns going by others of their names, is the payload of
the same event. A text that gives a column twice, under whichever of its names, is no payload. -/
theorem depends_on_known_members (n : EventName) {bytes : List UInt8} {ms : List Member}
    {stop : Option Stop} (hbytes : (Document.ofBytes bytes).root = .object ms stop) :
    (∀ e, ofPayload n bytes = .ok e → ∀ bytes' ms', Document.ofBytes bytes' = ⟨.object ms' none, false⟩ →
        Relation.ReflTransGen (Varies n) ms ms' → ofPayload n bytes' = .ok e) ∧
      (GivenTwice n ms → ∀ e, ofPayload n bytes ≠ .ok e) := by
  constructor
  · intro e hread bytes' ms' hbytes' hvaries
    rw [ofPayload_eq_ok_iff, hbytes] at hread
    obtain rfl := stop_eq_none_of_reader hread.1
    rw [ofPayload_eq_ok_iff, hbytes']
    exact ⟨reader_of_varies hvaries hread.1, rfl⟩
  · intro htwice e hread
    rw [ofPayload_eq_ok_iff, hbytes] at hread
    exact reader_of_givenTwice htwice e hread.1

/-- A user as this library writes one, but for the columns that are missing. -/
def tersePayload : Json :=
  .object [("User", .object [("id", whole 7), ("unique_user_id", .text "u"), ("created_by", whole 3)])]

/-- The same user from a writer with another order, another name and more to say. -/
def foreignPayload : Json :=
  .object
    [("trace", .array [whole 1, .object [("User", .null)]]),
      ("User", .object
        [("x", .bool true), ("created_by", whole 3), ("x", .text "2"), ("sapId", .text "u"), ("id", whole 7)])]

/-- Two names of one column. -/
def doubledPayload : Json :=
  .object [("User", .object [("id", whole 7), ("sapId", .text "u"), ("uniqueUserId", .text "u")])]

theorem depends_on_known_members_user :
    let e : Event := created (.user ⟨7, "u", "", ⟨3, none, 0, none⟩⟩)
    ofPayload (.create .user) tersePayload.bytes = .ok e ∧
      ofPayload (.create .user) foreignPayload.bytes = .ok e ∧
      ∀ e, ofPayload (.create .user) doubledPayload.bytes ≠ .ok e := by
  intro e
  have hterse : Document.ofBytes tersePayload.bytes = ⟨tersePayload.outline, false⟩ :=
    ofBytes_bytes (by simp [tersePayload, Integral, MembersIntegral, Number.Fits, UInt64.size])
  have hforeign : Document.ofBytes foreignPayload.bytes = ⟨foreignPayload.outline, false⟩ :=
    ofBytes_bytes (by
      simp [foreignPayload, Integral, MembersIntegral, ItemsIntegral, Number.Fits, UInt64.size])
  have hdoubled : Document.ofBytes doubledPayload.bytes = ⟨doubledPayload.outline, false⟩ :=
    ofBytes_bytes (by simp [doubledPayload, Integral, MembersIntegral, Number.Fits, UInt64.size])
  have hread : ofPayload (.create .user) tersePayload.bytes = .ok e := by
    rw [ofPayload_eq_ok_iff, hterse]
    exact ⟨rfl, rfl⟩
  refine ⟨hread, ?_, ?_⟩
  · obtain ⟨hvaried, -⟩ :=
      depends_on_known_members (.create .user) (congrArg Document.root hterse)
    refine hvaried e hread _ _ hforeign ?_
    have hinside : ∀ {fields fields' : List Member}, Variation EntityKind.user.columns 125 fields fields' →
        Varies (.create .user) [(.ok "User", .object fields none)]
          [(.ok "User", .object fields' none)] := fun h => .inside [] [] rfl h
    -- turned around, renamed, filled up twice, and something put before the record
    refine .head (hinside (.reordered (List.reverse_perm _).symm)) ?_
    have halias : "sapId" ∈ (textColumn "unique_user_id" ["uniqueUserId", "sapId"]).names := by
      simp [Column.names]
    refine .head (hinside (.renamed [_] [_] ?_ List.mem_cons_self halias _)) ?_
    · simp [EntityKind.columns, EntityKind.ownColumns, User.layout]
    refine .head (hinside (.inserted [_] [_, _] (m := (.ok "x", outline (.text "2"))) ?_ ⟨_, rfl⟩)) ?_
    · exact ⟨"x", rfl, by simp [EntityKind.columns, EntityKind.ownColumns, User.layout, Column.names]⟩
    refine .head (hinside (.inserted [] [_, _, _, _] (m := (.ok "x", outline (.bool true))) ?_ ⟨_, rfl⟩)) ?_
    · exact ⟨"x", rfl, by simp [EntityKind.columns, EntityKind.ownColumns, User.layout, Column.names]⟩
    refine .single (.outside (.inserted [] [_] ?_ ⟨_, rfl⟩))
    exact ⟨"trace", rfl, by simp [EventName.columns, Column.names, EntityKind.title]⟩
  · obtain ⟨-, htwice⟩ :=
      depends_on_known_members (.create .user) (congrArg Document.root hdoubled)
    refine htwice (.inside rfl List.mem_cons_self ?_)
    refine ⟨textColumn "unique_user_id" ["uniqueUserId", "sapId"], ?_, by decide⟩
    simp [EntityKind.columns, EntityKind.ownColumns, User.layout]

end Event

end TupleSync
