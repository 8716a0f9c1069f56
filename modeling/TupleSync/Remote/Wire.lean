import TupleSync.Json.Printer
import TupleSync.Json.Record
import TupleSync.Store.Basic
import TupleSync.Text.Lossy

/-!
# The wire to a tuple server

**A conversation is a list of requests and the replies to them, and the server is whatever gives the
replies.** A wire holds the replies that are still to come and the way every later request fails, so
whatever a client asks, and however long it goes on asking, each request has one reply, and a client that
asks once more per reply comes to an end.

A request that never arrived is not one that the server has seen.
-/

set_option autoImplicit false

namespace TupleSync.Remote

inductive Method where
  | get
  | post
  deriving Repr, DecidableEq

def Method.text : Method → String
  | .get => "GET"
  | .post => "POST"

structure Request where
  method : Method
  path : List String
  query : List (String × String)
  /-- What the client shows to be let in. -/
  authorization : Option String
  body : Option Json

/-- The path as it is written. -/
def Request.pathText (r : Request) : String := String.join (r.path.map ("/" ++ ·))

/-- Why a request has no usable reply. -/
inductive Failure where
  /-- The request did not arrive. -/
  | unreachable
  /-- The connection was closed before a reply came. -/
  | closed
  /-- The server refused. -/
  | refused (status : Nat) (body : List UInt8)
  deriving Repr, DecidableEq

inductive Reply where
  | ok (body : List UInt8)
  | failed (f : Failure)
  deriving Repr, DecidableEq

/-- A reply with a status: those from 200 to 299 are good. -/
def Reply.ofStatus (status : Nat) (body : List UInt8) : Reply :=
  if 200 ≤ status ∧ status < 300 then .ok body else .failed (.refused status body)

/-- The error that a failed request ends with. -/
def Failure.error : Failure → StoreError
  | .unreachable => .transport
  | .closed => .transport
  | .refused status body => .backend status (Text.ofBytesLossy body)

/-- The server as a client meets it. -/
structure Wire where
  /-- The replies that are to come. -/
  replies : List Reply
  /-- How every request after them fails. -/
  after : Failure
  /-- The requests so far, each with its reply. -/
  exchanges : List (Request × Reply)

namespace Wire

/-- A server that no request reaches. -/
def unreachable : Wire := ⟨[], .unreachable, []⟩

/-- The requests that arrived. -/
def seen (w : Wire) : List Request :=
  (w.exchanges.filter fun (_, reply) => reply ≠ .failed .unreachable).map Prod.fst

/-- The wire after a request with this reply, so many replies being left. -/
def record (w : Wire) (r : Request) (reply : Reply) (rest : List Reply) : Wire :=
  { w with replies := rest, exchanges := w.exchanges ++ [(r, reply)] }

/-- What a reply says to one who wants a value of the kind; a reply that says something else is as good
as none. -/
def read {α : Type} (reader : Json.Reader α) : Reply → Except StoreError α
  | .failed f => .error f.error
  | .ok body =>
    match Json.decode reader body with
    | .ok a => .ok a
    | .error _ => .error .transport

/-- Sends a request and reads the reply. -/
def ask {α : Type} (reader : Json.Reader α) (r : Request) (w : Wire) : Except StoreError α × Wire :=
  match w.replies with
  | [] => (.error w.after.error, w.record r (.failed w.after) [])
  | reply :: rest => (read reader reply, w.record r reply rest)

end Wire

/-! ## Listings -/

/-- One page of a listing, and the token by which the next one is asked for. -/
structure Page (α : Type) where
  items : List α
  next : String

/-- How far a listing was followed. -/
structure Listing (α : Type) where
  /-- The items of all pages that were read, in order. -/
  items : List α
  /-- Why the next page could not be read; there is nothing here if there was no next page to read. -/
  failure : Option StoreError
  deriving Repr, DecidableEq

/-- All items of a listing, if it was followed to its end. -/
def Listing.complete {α : Type} (l : Listing α) : Except StoreError (List α) :=
  match l.failure with
  | some e => .error e
  | none => .ok l.items

/-- Follows a listing page by page, each request with the token of the page before it, until a page has
no token or holds enough. -/
def follow {α : Type} (reader : Json.Reader (Page α)) (request : String → Request)
    (enough : List α → Bool) (token : String) : List Reply → Wire → Listing α × Wire
  | [], w => (⟨[], some w.after.error⟩, w.record (request token) (.failed w.after) [])
  | reply :: rest, w =>
    let w := w.record (request token) reply rest
    match Wire.read reader reply with
    | .error e => (⟨[], some e⟩, w)
    | .ok page =>
      if page.next = "" ∨ enough page.items then (⟨page.items, none⟩, w)
      else
        let (l, w) := follow reader request enough page.next rest w
        ({ l with items := page.items ++ l.items }, w)

/-- Lists from the first page on. -/
def Wire.list {α : Type} (reader : Json.Reader (Page α)) (request : String → Request)
    (enough : List α → Bool) (w : Wire) : Listing α × Wire :=
  follow reader request enough "" w.replies w

end TupleSync.Remote
