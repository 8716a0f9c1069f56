import TupleSync.Remote.Codec
import TupleSync.Log.Record

/-!
# The store on a server

**The client checks before it sends, cuts what it sends into chunks, and deletes only what the server
showed it.** A pattern is not sent to be deleted by: the tuples it matches are listed first, all of them,
for all patterns, and only then named one by one. A failure on the way to the last page means that
nothing is deleted at all.
-/

set_option autoImplicit false

namespace TupleSync

open Remote

/-- What the client reports. -/
inductive RemoteNotice where
  | storeFound (id name : String)
  | storeMade (s : StoreEntry)
  | latestModel (id : String)
  | modelSent (id path : String)
  | connected (storeId modelId : String)
  | checked (t : Tuple) (allowed : Bool)
  | deleted (count : Nat)
  | malformedTuple (k : TupleKey)
  deriving Repr, DecidableEq

namespace RemoteNotice

open Log

def place : String := "auth_zanzibar::openfga"

def record : RemoteNotice → Record
  | storeFound id name =>
    ⟨.debug, place, "found existing store", [("store_id", .shown id), ("store_name", .shown name)]⟩
  | storeMade s =>
    ⟨.info, place, "created store", [("store_id", .shown s.id), ("store_name", .shown s.name)]⟩
  | latestModel id =>
    ⟨.debug, place, "using latest authorization model", [("model_id", .shown id)]⟩
  | modelSent id path =>
    ⟨.info, place, "uploaded authorization model", [("model_id", .shown id), ("path", .shown path)]⟩
  | connected storeId modelId =>
    ⟨.info, place, "connected to OpenFGA",
      [("store_id", .shown storeId), ("model_id", .shown modelId)]⟩
  | checked t allowed =>
    ⟨.debug, place, "checked permission",
      [("tuple", .shown t.text), ("allowed", .shown (toString allowed))]⟩
  | deleted count => ⟨.debug, place, "deleted tuples", [("deleted", .number count)]⟩
  | malformedTuple k =>
    ⟨.warn, place, "skipping malformed tuple", [("user", .shown k.user), ("object", .shown k.object)]⟩

end RemoteNotice

/-- A client of a tuple server. -/
structure RemoteStore where
  storeId : String
  modelId : String
  pageSize : Nat
  /-- How many tuples one request changes. -/
  chunk : Nat
  chunk_pos : 0 < chunk
  authorization : Option String
  wire : Wire
  log : List RemoteNotice

/-- The list in pieces of `n`, the last one possibly shorter. -/
def chunksOf {α : Type} (n : Nat) (h : 0 < n) (xs : List α) : List (List α) :=
  match xs with
  | [] => []
  | x :: rest => (x :: rest).take n :: chunksOf n h ((x :: rest).drop n)
termination_by xs.length
decreasing_by simp; omega

theorem flatten_chunksOf {α : Type} (n : Nat) (h : 0 < n) (xs : List α) :
    (chunksOf n h xs).flatten = xs := by
  fun_induction chunksOf n h xs with
  | case1 => rfl
  | case2 x rest ih => rw [List.flatten_cons, ih, List.take_append_drop]

namespace RemoteStore

/-- A step of the conversation. -/
def talk {α : Type} (f : Wire → Except StoreError α × Wire) : StoreM RemoteStore α :=
  ExceptT.mk fun s =>
    let (r, wire) := f s.wire
    (r, { s with wire })

/-- Follows a listing as far as it goes. -/
def list {α : Type} (reader : Json.Reader (Page α)) (request : String → Request)
    (enough : List α → Bool) : StoreM RemoteStore (Listing α) :=
  talk fun w =>
    let (l, w) := w.list reader request enough
    (.ok l, w)

def note (n : RemoteNotice) : StoreM RemoteStore Unit := modify fun s => { s with log := s.log ++ [n] }

/-- A request about the store. -/
def request (s : RemoteStore) (what : String) (body : Json) : Request :=
  ⟨.post, ["stores", s.storeId, what], [], s.authorization, some body⟩

/-- Sends a request about the store. -/
def post {α : Type} (reader : Json.Reader α) (what : String) (body : RemoteStore → Json) :
    StoreM RemoteStore α := do
  let s ← get
  talk (Wire.ask reader (s.request what (body s)))

/-- Sends one chunk of changes. -/
def change (c : Change) (keys : List TupleKey) : StoreM RemoteStore Unit := do
  let _ ← post Json.Reader.json "write" fun s => changeBody s.modelId c keys

/-- Sends changes chunk by chunk, up to the first failure. -/
def changeAll (c : Change) (keys : List TupleKey) : StoreM RemoteStore Unit := do
  let s ← get
  (chunksOf s.chunk s.chunk_pos keys).forM (change c)

/-- The tuple of a listed key; a key that names none is reported and passed over. -/
def tupleOf (k : TupleKey) : StoreM RemoteStore (Option Tuple) := do
  match k.tuple? with
  | some t => return some t
  | none =>
    note (.malformedTuple k)
    return none

/-- Lists all tuples that the pattern matches, in the order of the pages. What cannot be a tuple is
reported whether or not the last page is reached. -/
def matching (pattern : Tuple) : StoreM RemoteStore (List Tuple) := do
  let s ← get
  let narrowing := Narrowing.of? pattern
  let request (token : String) := s.request "read" (readBody narrowing s.pageSize token)
  let listing ← list tuplesCodec.read request fun _ => false
  let ts ← listing.items.filterMapM tupleOf
  let _ ← listing.complete
  return ts.filter fun t => pattern.Matches t

/-- The tuples that any of the patterns matches. -/
def matchingAny : List Tuple → StoreM RemoteStore (List Tuple)
  | [] => return []
  | p :: rest => do
    if p = Tuple.any then throw .openPattern
    let first ← matching p
    let more ← matchingAny rest
    return first ++ more

/-- Deletes tuples by their keys. -/
def deleteAll (ts : List Tuple) : StoreM RemoteStore Unit := do
  changeAll .delete (ts.map Tuple.key)
  note (.deleted ts.length)

/-- Only complete tuples are written. -/
def requireComplete (t : Tuple) : StoreM RemoteStore Unit :=
  if t.IsComplete then pure () else throw (.incompleteTuple t)

/-- Deletes what any of the patterns matches, each tuple once and in order. -/
def removeBulk (patterns : List Tuple) : StoreM RemoteStore Unit := do
  let doomed ← matchingAny patterns
  deleteAll (Tuple.sort doomed.eraseDups)

instance : TupleStore RemoteStore where
  check t := do
    requireComplete t
    let allowed ← post allowedCodec.read "check" fun s => checkBody s.modelId t.key
    note (.checked t allowed)
    return allowed
  add t := do
    requireComplete t
    change .write [t.key]
  addBulk ts := do
    ts.forM requireComplete
    changeAll .write (ts.map Tuple.key)
  remove t := do
    if t.IsComplete then change .delete [t.key] else removeBulk [t]
  removeBulk := removeBulk
  removeAll := do deleteAll (← matching Tuple.any)
  list := matching
  accessible t := do
    if t.userType = "" ∨ t.userId = "" ∨ t.relation = "" ∨ t.objectType = "" then
      throw (.openListing t)
    let objects ← post objectsCodec.read "list-objects" fun s => listObjectsBody s.modelId t
    return (objects.filterMap Ref.parse?).map fun r => ⟨r.kind, r.id⟩

end RemoteStore

end TupleSync
