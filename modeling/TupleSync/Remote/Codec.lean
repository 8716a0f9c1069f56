import TupleSync.Remote.Wire
import TupleSync.Tuple.Codec

/-!
# What server and client say to each other

The requests of a client and the replies it understands. **In replies nothing but an id or a key has to
be there**: a missing list is empty, a missing token says that there is no further page, and a missing
answer is no.
-/

set_option autoImplicit false

namespace TupleSync

open Json

/-- Yes or no. -/
def Json.Reader.bool : Reader Bool := fun _ v =>
  match v with
  | .scalar (.bool b) => .ok b
  | _ => .error v.refusal

def Json.Codec.bool : Codec Bool := ⟨Reader.bool, Json.bool⟩

/-- A list of values of one kind. -/
def Json.Codec.list {α : Type} (c : Codec α) : Codec (List α) :=
  ⟨Reader.list c.read, fun as => .array (as.map c.write)⟩

namespace Remote

/-! ## Replies -/

/-- A store that the server keeps. -/
structure StoreEntry where
  id : String
  name : String
  deriving Repr, DecidableEq

def StoreEntry.codec : Codec StoreEntry :=
  .record [.required "id" .text, .required "name" .text] (fun s => (s.id, s.name, ()))
    (fun (id, name, ()) => ⟨id, name⟩)

/-- A page of a listing whose items stand under the name. -/
def Page.codec {α : Type} (name : String) (items : Codec α) : Codec (Page α) :=
  .record [.optional name [] items.list [], .optional "continuation_token" [] .text ""]
    (fun p => (p.items, p.next, ())) (fun (items, next, ()) => ⟨items, next⟩)

/-- A record of one text. -/
def single (name : String) : Codec String :=
  .record [.required name .text] (fun s => (s, ())) Prod.fst

def storesCodec : Codec (Page StoreEntry) := Page.codec "stores" StoreEntry.codec

/-- The ids of the models, the latest one first. -/
def modelsCodec : Codec (List String) :=
  .record [.optional "authorization_models" [] (single "id").list []] (fun ids => (ids, ()))
    Prod.fst

def writtenModelCodec : Codec String := single "authorization_model_id"

def allowedCodec : Codec Bool :=
  .record [.optional "allowed" [] .bool false] (fun b => (b, ())) Prod.fst

/-- A stored tuple by its key. -/
def storedCodec : Codec TupleKey :=
  .record [.required "key" TupleKey.codec] (fun k => (k, ())) Prod.fst

def tuplesCodec : Codec (Page TupleKey) := Page.codec "tuples" storedCodec

def objectsCodec : Codec (List String) :=
  .record [.optional "objects" [] Codec.text.list []] (fun os => (os, ())) Prod.fst

/-! ## Request bodies -/

/-- What a listing of tuples is narrowed to on the server. -/
structure Narrowing where
  relation : Option String
  object : String
  deriving Repr, DecidableEq

/-- The narrowing for a pattern. Only object and relation are narrowed: a server compares subjects as
they are written, and would hide usersets that the pattern matches. Without an object id all tuples are
listed. -/
def Narrowing.of? (pattern : Tuple) : Option Narrowing :=
  if pattern.objectType = "" ∨ pattern.objectId = "" then none
  else some
    ⟨if pattern.relation = "" then none else some pattern.relation,
      pattern.objectType ++ ":" ++ pattern.objectId⟩

def Narrowing.body (n : Narrowing) : Json :=
  .object ((n.relation.toList.map fun r => ("relation", .text r)) ++ [("object", .text n.object)])

/-- The body of a request for a page of tuples. -/
def readBody (narrowing : Option Narrowing) (pageSize : Nat) (token : String) : Json :=
  .object ((narrowing.toList.map fun n => ("tuple_key", n.body)) ++
    [("page_size", .whole pageSize)] ++
    (if token = "" then [] else [("continuation_token", .text token)]))

/-- What a request for changes does with its keys. -/
inductive Change where
  | write
  | delete
  deriving Repr, DecidableEq

/-- The body of a request for changes. A key that is there already, or is missing, is passed over. -/
def changeBody (modelId : String) (c : Change) (keys : List TupleKey) : Json :=
  let listed := ("tuple_keys", Json.array (keys.map TupleKey.codec.write))
  .object
    [match c with
      | .write => ("writes", .object [listed, ("on_duplicate", .text "ignore")])
      | .delete => ("deletes", .object [listed, ("on_missing", .text "ignore")]),
     ("authorization_model_id", .text modelId)]

def checkBody (modelId : String) (key : TupleKey) : Json :=
  .object [("tuple_key", TupleKey.codec.write key), ("authorization_model_id", .text modelId)]

def listObjectsBody (modelId : String) (t : Tuple) : Json :=
  .object
    [("authorization_model_id", .text modelId), ("type", .text t.objectType),
     ("relation", .text t.relation), ("user", .text (t.userType ++ ":" ++ t.userId))]

end Remote

end TupleSync
