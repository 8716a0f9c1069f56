import TupleSync.Remote.Store
import TupleSync.Store.Permissive
import TupleSync.Config.Basic

/-!
# Connecting to a server

**A client knows its store and its model before it is used, and asks for neither if it was told.** A store
that was not told is looked up by name and made if no page of the listing has it; a model that was not
told is the latest one, or the one in the model file if the store has none. The first failure ends the
attempt.

Which store a program works on is decided here as well: where enforcement is off, or nobody knows where
the server is, it is the permissive one.
-/

set_option autoImplicit false

namespace TupleSync

open Remote

namespace RemoteStore

/-- A token can be sent unless it has control characters other than tabs. -/
def IsSendable (token : String) : Prop := ∀ b ∈ token.toUTF8.toList, b = 9 ∨ (32 ≤ b ∧ b ≠ 127)

instance (token : String) : Decidable (IsSendable token) :=
  inferInstanceAs (Decidable (∀ b ∈ token.toUTF8.toList, _))

/-- What a client sends to be let in. -/
def authorizationOf (c : Config) : Except StoreError (Option String) :=
  match c.apiToken with
  | none => .ok none
  | some token =>
    if IsSendable token then .ok (some ("Bearer " ++ token))
    else .error (.configuration .tokenUnsendable)

/-- A request for a page of the server's stores. -/
def storesRequest (s : RemoteStore) (token : String) : Request :=
  ⟨.get, ["stores"],
    ("page_size", toString s.pageSize) ::
      (if token = "" then [] else [("continuation_token", token)]),
    s.authorization, none⟩

/-- The id of the first store of the name; it is made if there is none. -/
def findOrMakeStore (name : String) : StoreM RemoteStore String := do
  let s ← get
  let listing ← list storesCodec.read s.storesRequest fun page =>
    page.any fun entry => entry.name == name
  match (← listing.complete).find? fun entry => entry.name == name with
  | some entry =>
    note (.storeFound entry.id name)
    return entry.id
  | none =>
    let entry ← talk (Wire.ask StoreEntry.codec.read
      ⟨.post, ["stores"], [], s.authorization, some (.object [("name", .text name)])⟩)
    note (.storeMade entry)
    return entry.id

/-- The model that a file holds. -/
def modelOfFile (content : Option (List UInt8)) : Except StoreError Json :=
  match content with
  | none => .error .modelSource
  | some bytes =>
    if (String.fromUTF8? ⟨bytes.toArray⟩).isNone then .error .modelSource
    else match Json.decode Json.Reader.json bytes with
      | .ok j => .ok j
      | .error _ => .error .modelSource

/-- The id of the latest model; a store without one is given the model of the file. -/
def latestOrSentModel (path : String) (file : Option (List UInt8)) : StoreM RemoteStore String := do
  let s ← get
  let place := ["stores", s.storeId, "authorization-models"]
  let models ← talk (Wire.ask modelsCodec.read
    ⟨.get, place, [("page_size", "1")], s.authorization, none⟩)
  match models with
  | id :: _ =>
    note (.latestModel id)
    return id
  | [] =>
    let model ← modelOfFile file
    let id ← talk (Wire.ask writtenModelCodec.read
      ⟨.post, place, [], s.authorization, some model⟩)
    note (.modelSent id path)
    return id

/-- Finds store and model. -/
def resolve (c : Config) (file : Option (List UInt8)) : StoreM RemoteStore Unit := do
  let storeId ← match c.storeId with
    | some id => pure id
    | none => findOrMakeStore c.storeName
  modify fun s => { s with storeId }
  let modelId ← match c.modelId with
    | some id => pure id
    | none => latestOrSentModel c.modelFile file
  modify fun s => { s with modelId }
  note (.connected storeId modelId)

/-- A client that knows neither store nor model. -/
def unresolved (c : Config) (authorization : Option String) (wire : Wire) : RemoteStore where
  storeId := ""
  modelId := ""
  pageSize := max 1 c.pageSize
  chunk := max 1 c.maxTuplesPerWrite
  chunk_pos := by omega
  authorization := authorization
  wire := wire
  log := []

/-- Connects; `file` is what the model file holds. The client, or what went over the wire all the same,
comes back beside the error. -/
def connect (c : Config) (file : Option (List UInt8)) (wire : Wire) :
    Except StoreError Unit × RemoteStore :=
  match authorizationOf c with
  | .error e => (.error e, unresolved c none wire)
  | .ok authorization => (resolve c file).run (unresolved c authorization wire)

end RemoteStore

/-! ## Which store to use -/

/-- The store of a program. -/
inductive ChosenStore where
  | remote (s : RemoteStore)
  | permissive (s : PermissiveStore)

namespace ChosenStore

/-- Runs the operation of the store that was chosen. -/
def choose {α : Type} (onRemote : StoreM RemoteStore α) (onPermissive : StoreM PermissiveStore α) :
    StoreM ChosenStore α :=
  ExceptT.mk fun
    | .remote s =>
      let (r, s) := onRemote.run s
      (r, .remote s)
    | .permissive s =>
      let (r, s) := onPermissive.run s
      (r, .permissive s)

instance : TupleStore ChosenStore where
  check t := choose (TupleStore.check t) (TupleStore.check t)
  add t := choose (TupleStore.add t) (TupleStore.add t)
  addBulk ts := choose (TupleStore.addBulk ts) (TupleStore.addBulk ts)
  remove t := choose (TupleStore.remove t) (TupleStore.remove t)
  removeBulk ps := choose (TupleStore.removeBulk ps) (TupleStore.removeBulk ps)
  removeAll := choose TupleStore.removeAll TupleStore.removeAll
  list p := choose (TupleStore.list p) (TupleStore.list p)
  accessible t := choose (TupleStore.accessible t) (TupleStore.accessible t)
  replace stale fresh := fun
    | .remote s =>
      let (r, s) := TupleStore.replace stale fresh s
      (r, .remote s)
    | .permissive s =>
      let (r, s) := TupleStore.replace stale fresh s
      (r, .permissive s)

/-- The records of choosing a store. -/
def records (c : Config) : ChosenStore → List Log.Record
  | .remote s =>
    s.log.map RemoteNotice.record ++
      [⟨.info, "auth_zanzibar::authorization", "initialized authorization with OpenFGA",
        [("api_url", .shown c.apiUrl)]⟩]
  | .permissive _ =>
    [⟨.info, "auth_zanzibar::authorization",
      "authorization enforcement disabled; using no-op store", []⟩]

/-- Chooses the store that the configuration asks for, with an error if it cannot be connected to. -/
def ofConfig (c : Config) (file : Option (List UInt8)) (wire : Wire) :
    Except StoreError ChosenStore × RemoteStore :=
  if c.enabled ∧ c.apiUrl ≠ "" then
    let (r, s) := RemoteStore.connect c file wire
    (r.map fun () => .remote s, s)
  else (.ok (.permissive ⟨⟩), RemoteStore.unresolved c none wire)

end ChosenStore

end TupleSync
