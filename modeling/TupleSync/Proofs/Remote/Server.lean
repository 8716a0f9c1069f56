import Mathlib.Data.Set.Image
import TupleSync.Proofs.Remote.Replies
import TupleSync.Proofs.Remote.Requests

/-!
# An ideal server

**A server that keeps a set of keys and does what it is asked.** It is a relation and not a program: it
says which replies are right, and leaves open whatever a server may choose. A change is made to all its
keys or not at all, and keys that are there already, or are missing, are no fault. A listing goes through
the keys it is narrowed to, each of them once, in any order and on pages of any length, empty ones
included; the token of a page stands for what is still to come.

A request is understood by the members of its body (`Asks`), and it says at most one thing
(`Asks.unique`); a page says what stands in it. So a client that asked for something else than it meant
would get something else.
-/

set_option autoImplicit false

namespace TupleSync.Remote

/-- The state of a server. -/
structure Server where
  keys : Set TupleKey
  /-- What is still to come of a listing after the page with the token. -/
  cursors : String → Option (List TupleKey)

/-- What a server can be asked. -/
inductive Demand where
  | change (c : Change) (keys : List TupleKey)
  /-- The page with the token of a listing; the first page has an empty token. -/
  | page (narrowing : Option Narrowing) (token : String)

/-! ## Requests -/

/-- The request asks the server for this, about its store. -/
def Asks (storeId : String) (r : Request) : Demand → Prop
  | .change c keys =>
    r.method = .post ∧ r.path = ["stores", storeId, "write"] ∧ r.Changes c keys
  | .page narrowing token =>
    r.method = .post ∧ r.path = ["stores", storeId, "read"] ∧ r.NarrowsTo narrowing ∧
      r.ContinuesFrom token

/-- **A request asks for one thing at most.** -/
theorem Asks.unique {storeId : String} {r : Request} {d d' : Demand} (h : Asks storeId r d)
    (h' : Asks storeId r d') : d = d' := by
  cases d with
  | change c keys =>
    obtain ⟨-, hpath, hchanges⟩ := h
    cases d' with
    | change c' keys' =>
      obtain ⟨-, -, hchanges'⟩ := h'
      obtain ⟨rfl, rfl⟩ := hchanges.unique hchanges'
      rfl
    | page narrowing token =>
      obtain ⟨-, hpath', -⟩ := h'
      simp [hpath] at hpath'
  | page narrowing token =>
    obtain ⟨-, hpath, hnarrows, hcontinues⟩ := h
    cases d' with
    | change c keys =>
      obtain ⟨-, hpath', -⟩ := h'
      simp [hpath] at hpath'
    | page narrowing' token' =>
      obtain ⟨-, -, hnarrows', hcontinues'⟩ := h'
      rw [hnarrows.unique hnarrows', hcontinues.unique hcontinues']

/-! ## Replies -/

/-- The keys after a change. -/
def Change.apply (c : Change) (stored : Set TupleKey) (keys : List TupleKey) : Set TupleKey :=
  match c with
  | .write => stored ∪ {k | k ∈ keys}
  | .delete => stored \ {k | k ∈ keys}

/-- The key is one that the listing is narrowed to. -/
def Selects (narrowing : Option Narrowing) (k : TupleKey) : Prop :=
  ∀ n ∈ narrowing, k.object = n.object ∧ ∀ r ∈ n.relation, k.relation = r

namespace Server

/-- The keys are what is to come of a listing from the page with the token on. -/
def Pending (srv : Server) (narrowing : Option Narrowing) (token : String) (ks : List TupleKey) :
    Prop :=
  if token = "" then ks.Nodup ∧ ∀ k, k ∈ ks ↔ k ∈ srv.keys ∧ Selects narrowing k
  else srv.cursors token = some ks

/-- The server with a token for what is still to come. -/
def remember (srv : Server) (token : String) (ks : List TupleKey) : Server :=
  { srv with cursors := fun token' => if token' = token then some ks else srv.cursors token' }

end Server

/-- The reply does what is asked, and leads to the next state. -/
inductive Grants (srv : Server) : Demand → Reply → Server → Prop where
  | change {c : Change} {keys : List TupleKey} {reply : Reply} (hconfirms : reply.Confirms) :
    Grants srv (.change c keys) reply { srv with keys := c.apply srv.keys keys }
  /-- The page holds the first of the keys to come; without a token it holds them all. -/
  | page {narrowing : Option Narrowing} {token : String} {reply : Reply} {p : Page TupleKey}
      {rest : List TupleKey} (hshown : reply.tuples? = some p)
      (hpending : srv.Pending narrowing token (p.items ++ rest)) (hend : p.next = "" → rest = []) :
    Grants srv (.page narrowing token) reply (srv.remember p.next rest)
  /-- There is no page for a token that the server never gave. -/
  | lost {narrowing : Option Narrowing} {token : String} {f : Failure} (htoken : token ≠ "")
      (hlost : srv.cursors token = none) :
    Grants srv (.page narrowing token) (.failed f) srv

/-- The server gives the reply to the request: it grants what it is asked, and refuses what it does not
understand. -/
inductive Answers (storeId : String) (srv : Server) (r : Request) : Reply → Server → Prop where
  | granted {d : Demand} {reply : Reply} {srv' : Server} (hasks : Asks storeId r d)
      (hgrants : Grants srv d reply srv') : Answers storeId srv r reply srv'
  | refused {f : Failure} (hasks : ∀ d, ¬Asks storeId r d) : Answers storeId srv r (.failed f) srv

/-- The server gives the replies of a conversation, one after the other. -/
def Serves (storeId : String) : Server → List (Request × Reply) → Server → Prop
  | srv, [], srv' => srv' = srv
  | srv, (r, reply) :: rest, srv' =>
    ∃ between, Answers storeId srv r reply between ∧ Serves storeId between rest srv'

theorem Answers.grants {storeId : String} {srv srv' : Server} {r : Request} {reply : Reply}
    {d : Demand} (h : Answers storeId srv r reply srv') (hasks : Asks storeId r d) :
    Grants srv d reply srv' := by
  cases h with
  | granted hasks' hgrants =>
    rw [hasks.unique hasks']
    exact hgrants
  | refused hnone => exact absurd hasks (hnone d)

/-- **A page that the server knows of is given**: the first of a listing, or one that it gave a token
for. -/
theorem Answers.page {storeId : String} {srv srv' : Server} {r : Request} {reply : Reply}
    {narrowing : Option Narrowing} {token : String} (h : Answers storeId srv r reply srv')
    (hasks : Asks storeId r (.page narrowing token))
    (hknown : token = "" ∨ srv.cursors token ≠ none) :
    ∃ p rest, reply.tuples? = some p ∧
      srv.Pending narrowing token (p.items ++ rest) ∧ (p.next = "" → rest = []) ∧
        srv' = srv.remember p.next rest := by
  cases h.grants hasks with
  | page hshown hpending hend => exact ⟨_, _, hshown, hpending, hend, rfl⟩
  | lost htoken hlost => exact absurd hlost (hknown.resolve_left htoken)

theorem serves_append {storeId : String} {srv srv' : Server} {xs ys : List (Request × Reply)} :
    Serves storeId srv (xs ++ ys) srv' ↔
      ∃ between, Serves storeId srv xs between ∧ Serves storeId between ys srv' := by
  induction xs generalizing srv with
  | nil =>
    constructor
    · intro h
      exact ⟨srv, rfl, h⟩
    · intro hboth
      obtain ⟨between, rfl, h⟩ := hboth
      exact h
  | cons x rest ih =>
    obtain ⟨r, reply⟩ := x
    constructor
    · intro hboth
      obtain ⟨mid, hfirst, hrest⟩ := hboth
      obtain ⟨between, hxs, hys⟩ := ih.1 hrest
      exact ⟨between, ⟨mid, hfirst, hxs⟩, hys⟩
    · intro hboth
      obtain ⟨between, ⟨mid, hfirst, hxs⟩, hys⟩ := hboth
      exact ⟨mid, hfirst, ih.2 ⟨between, hxs, hys⟩⟩

end TupleSync.Remote
