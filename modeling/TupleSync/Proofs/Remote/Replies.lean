import TupleSync.Proofs.Json.Compact
import TupleSync.Proofs.Json.Fields
import TupleSync.Proofs.Json.Values
import TupleSync.Remote.Codec

/-!
# What a reply shows

**What a reply says is said of its text, and not by the client that reads it.** A good reply shows what
stands in its body under the names that a server writes: the items of a page and its token, a store, the
ids of models. A page without a list has no items and one without a token is the last; everything else has
to be there. A change is confirmed by any value. A reply that does not show what was asked for has a fault,
which is the server's own word if it refused and no more than that the reply is of no use otherwise.

The client reads a reply exactly so (`read_storesCodec` and the like), and a page that is printed shows
what was printed (`tuples?_bytes`, `stores?_bytes`).
-/

set_option autoImplicit false

namespace TupleSync.Remote

open Json (Outline Document Codec Column Reader)
open Json.Outline (list? text?)

/-! ## Values in a text -/

/-- A record of one text. -/
def textIn? (name : String) (v : Outline) : Option String :=
  (v.fields? [name]).bind fun
    | [text] => text.bind text?
    | _ => none

def keyIn? (v : Outline) : Option TupleKey :=
  (v.fields? ["user", "relation", "object"]).bind fun
    | [user, relation, object] =>
      return ⟨← user.bind text?, ← relation.bind text?, ← object.bind text?⟩
    | _ => none

/-- A stored tuple is known by its key; whatever else a server tells of it is passed over. -/
def storedIn? (v : Outline) : Option TupleKey :=
  (v.fields? ["key"]).bind fun
    | [key] => key.bind keyIn?
    | _ => none

def storeIn? (v : Outline) : Option StoreEntry :=
  (v.fields? ["id", "name"]).bind fun
    | [id, name] => return ⟨← id.bind text?, ← name.bind text?⟩
    | _ => none

/-- A page of items: without a list it has none, and without a token nothing comes after it. -/
def pageIn? {α : Type} (name : String) (item? : Outline → Option α) (v : Outline) : Option (Page α) :=
  (v.fields? [name, "continuation_token"]).bind fun
    | [items, token] => return ⟨← items.elim (some []) (list? item?), ← token.elim (some "") text?⟩
    | _ => none

/-- The ids of a list of models. -/
def modelsIn? (v : Outline) : Option (List String) :=
  (v.fields? ["authorization_models"]).bind fun
    | [models] => models.elim (some []) (list? (textIn? "id"))
    | _ => none

/-! ## Replies -/

namespace Reply

/-- What a good reply shows that is read so, if nothing follows it. -/
def shows? {α : Type} (read? : Outline → Option α) : Reply → Option α
  | .failed _ => none
  | .ok body =>
    let d := Document.ofBytes body
    if d.trailing then none else read? d.root

/-- Why a reply is of no use that does not show what it should. -/
def fault : Reply → StoreError
  | .failed .unreachable => .transport
  | .failed .closed => .transport
  | .failed (.refused status body) => .backend status (Text.ofBytesLossy body)
  | .ok _ => .transport

/-- What was looked for, or why it is not there. -/
def answer {α : Type} (reply : Reply) : Option α → Except StoreError α
  | some a => .ok a
  | none => .error reply.fault

def stores? (reply : Reply) : Option (Page StoreEntry) := reply.shows? (pageIn? "stores" storeIn?)

def store? (reply : Reply) : Option StoreEntry := reply.shows? storeIn?

def tuples? (reply : Reply) : Option (Page TupleKey) := reply.shows? (pageIn? "tuples" storedIn?)

/-- The ids of the models, the latest one first. -/
def models? (reply : Reply) : Option (List String) := reply.shows? modelsIn?

def writtenModel? (reply : Reply) : Option String := reply.shows? (textIn? "authorization_model_id")

/-- The reply says that a change was made: it is good and some JSON value, whichever it is. -/
def Confirms (reply : Reply) : Prop := ∃ body j, reply = .ok body ∧ Json.Tells body j

/-- The reply to a change is no confirmation, for this reason. -/
def FailsWith (reply : Reply) (e : StoreError) : Prop := ¬reply.Confirms ∧ e = reply.fault

section

variable {α : Type} {reply : Reply} {shown : Option α}

@[simp] theorem answer_eq_ok_iff {a : α} : reply.answer shown = .ok a ↔ shown = some a := by
  cases shown <;> simp [answer]

@[simp] theorem answer_eq_error_iff {e : StoreError} :
    reply.answer shown = .error e ↔ shown = none ∧ e = reply.fault := by
  cases shown <;> simp [answer, eq_comm]

theorem FailsWith.unique {e e' : StoreError} (h : reply.FailsWith e) (h' : reply.FailsWith e') : e = e' :=
  h.2.trans h'.2.symm

end

end Reply

/-! ## The client reads what is shown -/

section Codecs

theorem single_sees (name : String) : (single name).read.Sees 1 (textIn? name) :=
  Codec.record_sees_single rfl (Column.required_sees Reader.text_sees name)

theorem key_sees : TupleKey.codec.read.Sees 1 keyIn? := by
  refine Codec.record_sees (by simp) rfl (by decide) fun depth hdepth slots k => ?_
  have hcol := fun name => Column.required_sees Reader.text_sees name depth hdepth
  constructor
  · rintro ⟨⟨user, relation, object, _⟩, hfits, rfl⟩
    match slots, hfits with
    | [_, _, _], ⟨huser, hrelation, hobject, _⟩ =>
      simp [(hcol "user" _ user).1 huser, (hcol "relation" _ relation).1 hrelation,
        (hcol "object" _ object).1 hobject]
  · intro h
    split at h
    · obtain ⟨user, huser, h⟩ := Option.bind_eq_some_iff.1 h
      obtain ⟨relation, hrelation, h⟩ := Option.bind_eq_some_iff.1 h
      obtain ⟨object, hobject, h⟩ := Option.bind_eq_some_iff.1 h
      exact ⟨(user, relation, object, ()), ⟨(hcol "user" _ user).2 huser,
        (hcol "relation" _ relation).2 hrelation, (hcol "object" _ object).2 hobject, trivial⟩,
        Option.some.inj h⟩
    · cases h

theorem stored_sees : storedCodec.read.Sees 2 storedIn? :=
  Codec.record_sees_single rfl (Column.required_sees key_sees "key")

theorem store_sees : StoreEntry.codec.read.Sees 1 storeIn? := by
  refine Codec.record_sees (by simp) rfl (by decide) fun depth hdepth slots entry => ?_
  have hcol := fun name => Column.required_sees Reader.text_sees name depth hdepth
  constructor
  · rintro ⟨⟨id, name, _⟩, hfits, rfl⟩
    match slots, hfits with
    | [_, _], ⟨hid, hname, _⟩ => simp [(hcol "id" _ id).1 hid, (hcol "name" _ name).1 hname]
  · intro h
    split at h
    · obtain ⟨id, hid, h⟩ := Option.bind_eq_some_iff.1 h
      obtain ⟨name, hname, h⟩ := Option.bind_eq_some_iff.1 h
      exact ⟨(id, name, ()), ⟨(hcol "id" _ id).2 hid, (hcol "name" _ name).2 hname, trivial⟩,
        Option.some.inj h⟩
    · cases h

theorem page_sees {α : Type} {items : Codec α} {item? : Outline → Option α} {levels : Nat}
    (h : items.read.Sees levels item?) {name : String} (hname : name ≠ "continuation_token") :
    (Page.codec name items).read.Sees (levels + 2) (pageIn? name item?) := by
  have hapart : [name, "continuation_token"].Nodup := by simp [hname]
  refine Codec.record_sees (by simp) rfl hapart fun depth hdepth slots page => ?_
  have hlist : items.list.read.Sees (levels + 1) (list? item?) := h.list
  have hitems := Column.optional_sees hlist name [] depth hdepth
  have htoken := Column.optional_sees Reader.text_sees "continuation_token" "" depth (Nat.zero_le _)
  constructor
  · rintro ⟨⟨found, next, _⟩, hfits, rfl⟩
    match slots, hfits with
    | [_, _], ⟨hfound, hnext, _⟩ => simp [(hitems _ found).1 hfound, (htoken _ next).1 hnext]
  · intro h
    split at h
    · obtain ⟨found, hfound, h⟩ := Option.bind_eq_some_iff.1 h
      obtain ⟨next, hnext, h⟩ := Option.bind_eq_some_iff.1 h
      exact ⟨(found, next, ()), ⟨(hitems _ found).2 hfound, (htoken _ next).2 hnext, trivial⟩,
        Option.some.inj h⟩
    · cases h

theorem models_sees : modelsCodec.read.Sees 3 modelsIn? := by
  have hlist : (single "id").list.read.Sees 2 (list? (textIn? "id")) := (single_sees "id").list
  exact Codec.record_sees_single rfl (Column.optional_sees hlist "authorization_models" [])

end Codecs

/-- **What a client reads is what is shown**, and there is no more to a failure than the reply's fault. -/
theorem read_eq_of_sees {α : Type} {reader : Reader α} {read? : Outline → Option α} {levels : Nat}
    (h : reader.Sees levels read?) (hlevels : levels ≤ Document.maxDepth) (reply : Reply) :
    Wire.read reader reply = reply.answer (reply.shows? read?) := by
  cases reply with
  | failed f => cases f <;> rfl
  | ok body =>
    have hroot := h Document.maxDepth hlevels (Document.ofBytes body).root
    rw [Wire.read, Json.decode, Document.read, Reply.shows?]
    cases hshown : read? (Document.ofBytes body).root with
    | none =>
      cases hread : reader Document.maxDepth (Document.ofBytes body).root with
      | error f => cases (Document.ofBytes body).trailing <;> rfl
      | ok a => simp [(hroot a).1 hread] at hshown
    | some a =>
      rw [(hroot a).2 hshown]
      cases htrailing : (Document.ofBytes body).trailing <;> simp [bind, Except.bind, Reply.answer, Reply.fault]

section Reading

variable (reply : Reply)

theorem read_storesCodec :
    Wire.read storesCodec.read reply = reply.answer reply.stores? :=
  read_eq_of_sees (page_sees store_sees (by decide)) (by decide) reply

theorem read_storeCodec :
    Wire.read StoreEntry.codec.read reply = reply.answer reply.store? :=
  read_eq_of_sees store_sees (by decide) reply

theorem read_tuplesCodec :
    Wire.read tuplesCodec.read reply = reply.answer reply.tuples? :=
  read_eq_of_sees (page_sees stored_sees (by decide)) (by decide) reply

theorem read_modelsCodec :
    Wire.read modelsCodec.read reply = reply.answer reply.models? :=
  read_eq_of_sees models_sees (by decide) reply

theorem read_writtenModelCodec :
    Wire.read writtenModelCodec.read reply = reply.answer reply.writtenModel? :=
  read_eq_of_sees (single_sees _) (by decide) reply

end Reading

/-- **A change is made if its reply is a value**, and else the reply's fault is all that is said. -/
theorem read_json_cases (reply : Reply) :
    (reply.Confirms ∧ ∃ j, Wire.read Reader.json reply = .ok j) ∨
      ∃ e, reply.FailsWith e ∧ Wire.read Reader.json reply = .error e := by
  cases reply with
  | failed f =>
    have hnone : ¬(Reply.failed f).Confirms := fun ⟨_, _, heq, _⟩ => nomatch heq
    refine Or.inr ⟨_, ⟨hnone, rfl⟩, ?_⟩
    cases f <;> rfl
  | ok body =>
    rw [Wire.read]
    cases hread : Json.decode Reader.json body with
    | ok j => exact Or.inl ⟨⟨body, j, rfl, Json.decode_json_eq_ok_iff.1 hread⟩, j, rfl⟩
    | error f =>
      refine Or.inr ⟨_, ⟨?_, rfl⟩, rfl⟩
      rintro ⟨body', j, hbody, hj⟩
      cases hbody
      cases hread.symm.trans (Json.decode_json_eq_ok_iff.2 hj)

/-! ## Printed pages -/

/-- A page as a server prints it, which may leave out list and token. -/
def printedPage (name : String) (items : Option (List Json)) (token : Option String) : Json :=
  .object (items.toList.map (fun is => (name, .array is)) ++
    token.toList.map fun t => ("continuation_token", .text t))

def printedStore (s : StoreEntry) : Json := .object [("id", .text s.id), ("name", .text s.name)]

def printedTuple (k : TupleKey) : Json :=
  .object [("key", .object [("user", .text k.user), ("relation", .text k.relation),
    ("object", .text k.object)])]

/-- A list of models, the latest one first; a server that has none may leave it out. -/
def printedModels (ids : Option (List String)) : Json :=
  .object (ids.toList.map fun ids => ("authorization_models", .array (ids.map fun id =>
    .object [("id", .text id)])))

theorem Reply.shows?_bytes {α : Type} {read? : Outline → Option α} {v : Json} (h : v.Integral) :
    (Reply.ok v.bytes).shows? read? = read? v.outline := by
  rw [Reply.shows?, Json.ofBytes_bytes h]
  rfl

theorem textIn?_printed (name text : String) :
    textIn? name (Json.object [(name, .text text)]).outline = some text := by
  simp [textIn?, Json.outline, Json.memberOutlines, Outline.fields?, Outline.isClearOf, Outline.under,
    text?]

theorem storedIn?_printed (k : TupleKey) : storedIn? (printedTuple k).outline = some k := by
  simp [printedTuple, storedIn?, keyIn?, Json.outline, Json.memberOutlines, Outline.fields?,
    Outline.isClearOf, Outline.under, text?]

theorem storeIn?_printed (s : StoreEntry) : storeIn? (printedStore s).outline = some s := by
  simp [printedStore, storeIn?, Json.outline, Json.memberOutlines, Outline.fields?, Outline.isClearOf,
    Outline.under, text?]

section Printed

variable {α : Type} {item? : Outline → Option α} {print : α → Json} {name : String}

theorem mapM_itemOutlines (h : ∀ a, item? (print a).outline = some a) (as : List α) :
    (Json.itemOutlines (as.map print)).mapM item? = some as := by
  induction as with
  | nil => rfl
  | cons a as ih => simp [Json.itemOutlines, h, ih]

/-- **A page shows the items and the token that were put on it**, none if it has no list, and an empty
token if it has none. -/
theorem pageIn?_printed (hname : name ≠ "continuation_token") (h : ∀ a, item? (print a).outline = some a)
    (items : Option (List α)) (token : Option String) :
    pageIn? name item? (printedPage name (items.map fun as => as.map print) token).outline =
      some ⟨items.getD [], token.getD ""⟩ := by
  have hlist := mapM_itemOutlines h
  cases items <;> cases token <;>
    simp [printedPage, pageIn?, Json.outline, Json.memberOutlines, Outline.fields?, Outline.isClearOf,
      Outline.under, hname, hname.symm, list?, text?, hlist]

theorem itemsIntegral_map (h : ∀ a, (print a).Integral) (as : List α) :
    Json.ItemsIntegral (as.map print) := by
  induction as with
  | nil => trivial
  | cons a as ih => exact ⟨h a, ih⟩

theorem integral_printedPage (h : ∀ a, (print a).Integral) (items : Option (List α))
    (token : Option String) :
    (printedPage name (items.map fun as => as.map print) token).Integral := by
  have hitems := itemsIntegral_map h
  cases items <;> cases token <;>
    simp [printedPage, Json.Integral, Json.MembersIntegral, hitems]

end Printed

/-- Any printed value is a confirmation. -/
theorem confirms_bytes {v : Json} (h : v.Integral) (hnesting : v.nesting ≤ Document.maxDepth) :
    (Reply.ok v.bytes).Confirms :=
  ⟨_, v, rfl, Json.tells_bytes h hnesting⟩

/-- **A printed page of tuples shows the keys and the token on it.** -/
theorem tuples?_bytes (keys : Option (List TupleKey)) (token : Option String) :
    (Reply.ok (printedPage "tuples" (keys.map fun ks => ks.map printedTuple) token).bytes).tuples? =
      some ⟨keys.getD [], token.getD ""⟩ := by
  have hintegral : ∀ k, (printedTuple k).Integral := by
    simp [printedTuple, Json.Integral, Json.MembersIntegral]
  rw [Reply.tuples?, Reply.shows?_bytes (integral_printedPage hintegral keys token)]
  exact pageIn?_printed (by decide) storedIn?_printed keys token

/-- **A printed page of stores shows the stores and the token on it.** -/
theorem stores?_bytes (stores : Option (List StoreEntry)) (token : Option String) :
    (Reply.ok (printedPage "stores" (stores.map fun ss => ss.map printedStore) token).bytes).stores? =
      some ⟨stores.getD [], token.getD ""⟩ := by
  have hintegral : ∀ s, (printedStore s).Integral := by
    simp [printedStore, Json.Integral, Json.MembersIntegral]
  rw [Reply.stores?, Reply.shows?_bytes (integral_printedPage hintegral stores token)]
  exact pageIn?_printed (by decide) storeIn?_printed stores token

/-- A printed store is shown as it is. -/
theorem store?_bytes (s : StoreEntry) : (Reply.ok (printedStore s).bytes).store? = some s := by
  have hintegral : (printedStore s).Integral := by
    simp [printedStore, Json.Integral, Json.MembersIntegral]
  rw [Reply.store?, Reply.shows?_bytes hintegral, storeIn?_printed]

/-- The ids of printed models are shown in their order. -/
theorem models?_bytes (ids : Option (List String)) :
    (Reply.ok (printedModels ids).bytes).models? = some (ids.getD []) := by
  have hlist := mapM_itemOutlines (textIn?_printed "id")
  have hitems : ∀ ids : List String, Json.ItemsIntegral (ids.map fun id => .object [("id", .text id)]) :=
    itemsIntegral_map (by simp [Json.Integral, Json.MembersIntegral])
  have hintegral : (printedModels ids).Integral := by
    cases ids <;> simp [printedModels, Json.Integral, Json.MembersIntegral, hitems]
  rw [Reply.models?, Reply.shows?_bytes hintegral]
  cases ids <;>
    simp [printedModels, modelsIn?, Json.outline, Json.memberOutlines, Outline.fields?, Outline.isClearOf,
      Outline.under, list?, hlist]

/-- The id of a model that was written is shown. -/
theorem writtenModel?_bytes (id : String) :
    (Reply.ok (Json.object [("authorization_model_id", .text id)]).bytes).writtenModel? = some id := by
  rw [Reply.writtenModel?, Reply.shows?_bytes (by simp [Json.Integral, Json.MembersIntegral])]
  exact textIn?_printed _ id

end TupleSync.Remote
