import TupleSync.Remote.Store

/-!
# One request after another

**Every request has one reply, the next that the wire holds, and once there is none left it fails as the
wire says.** Asking and listing both come down to that; what was said over a wire is then a list of
requests, each with the reply that stood at its place.
-/

set_option autoImplicit false

namespace TupleSync.Remote
namespace Wire

variable {α : Type} {w w' : Wire} {xs : List (Request × Reply)} {r : Request}

/-- The reply to the next request. -/
def next (w : Wire) : Reply := w.replies.headD (.failed w.after)

/-- The reply to the request that has so many others before it. -/
def reply (w : Wire) (i : Nat) : Reply := w.replies.getD i (.failed w.after)

/-- The wire after the next request. -/
def hear (w : Wire) (r : Request) : Wire := w.record r w.next w.replies.tail

theorem ask_eq (reader : Json.Reader α) (r : Request) (w : Wire) :
    ask reader r w = (read reader w.next, w.hear r) := by
  unfold ask hear next
  split
  · next h => rw [h]; rfl
  · next h => rw [h]; rfl

/-- A listing reads the next reply and then, if there has to be more, goes on. -/
theorem follow_eq (reader : Json.Reader (Page α)) (request : String → Request)
    (enough : List α → Bool) (token : String) (w : Wire) :
    follow reader request enough token w.replies w =
      match read reader w.next with
      | .error e => (⟨[], some e⟩, w.hear (request token))
      | .ok page =>
        if page.next = "" ∨ enough page.items then (⟨page.items, none⟩, w.hear (request token))
        else
          let w := w.hear (request token)
          let (l, w) := follow reader request enough page.next w.replies w
          ({ l with items := page.items ++ l.items }, w) := by
  unfold hear next
  cases h : w.replies with
  | nil => rfl
  | cons reply rest => rfl

/-- What was said over the wire from one moment to another. -/
structure Heard (w w' : Wire) (xs : List (Request × Reply)) : Prop where
  exchanges : w'.exchanges = w.exchanges ++ xs
  replies : w'.replies = w.replies.drop xs.length
  after : w'.after = w.after
  /-- Each reply is the one that the wire held at the place of its request. -/
  inOrder : ∀ i (h : i < xs.length), xs[i].2 = w.replies.getD i (.failed w.after)

theorem Heard.nil (w : Wire) : w.Heard w [] where
  exchanges := (List.append_nil _).symm
  replies := rfl
  after := rfl
  inOrder _ h := absurd h (Nat.not_lt_zero _)

theorem Heard.next_eq (h : w.Heard w' xs) :
    w'.next = w.replies.getD xs.length (.failed w.after) := by
  rw [next, h.replies, h.after, List.headD_eq_head?_getD, List.head?_drop, List.getD_eq_getElem?_getD]

theorem Heard.hear (h : w.Heard w' xs) (r : Request) :
    w.Heard (w'.hear r) (xs ++ [(r, w'.next)]) where
  exchanges := by
    show w'.exchanges ++ _ = _
    rw [h.exchanges, List.append_assoc]
  replies := by
    show w'.replies.tail = _
    rw [h.replies, List.tail_drop, List.length_append, List.length_singleton]
  after := h.after
  inOrder i hi := by
    rw [List.length_append, List.length_singleton] at hi
    rcases Nat.lt_succ_iff_lt_or_eq.1 hi with hlt | rfl
    · rw [List.getElem_append_left hlt]
      exact h.inOrder i hlt
    · rw [List.getElem_concat_length rfl]
      exact h.next_eq

/-- What is said later is said of the replies that are left. -/
theorem Heard.append {w'' : Wire} {ys : List (Request × Reply)} (h : w.Heard w' xs)
    (h' : w'.Heard w'' ys) : w.Heard w'' (xs ++ ys) where
  exchanges := by rw [h'.exchanges, h.exchanges, List.append_assoc]
  replies := by rw [h'.replies, h.replies, List.drop_drop, List.length_append]
  after := h'.after.trans h.after
  inOrder i hi := by
    by_cases hlt : i < xs.length
    · rw [List.getElem_append_left hlt]
      exact h.inOrder i hlt
    · have hle : xs.length ≤ i := Nat.not_lt.1 hlt
      have hlater := h'.inOrder (i - xs.length) (by rw [List.length_append] at hi; omega)
      rw [h.replies, h.after, List.getD_eq_getElem?_getD, List.getElem?_drop,
        Nat.add_sub_cancel' hle, ← List.getD_eq_getElem?_getD] at hlater
      rw [List.getElem_append_right hle]
      exact hlater

end Wire
end TupleSync.Remote

open TupleSync.Remote in
/-- A client that asks gets what the next reply says. -/
theorem TupleSync.RemoteStore.run_talk_ask {α : Type} (reader : Json.Reader α) (r : Request)
    (s : RemoteStore) :
    (talk (Wire.ask reader r)).run s =
      (Wire.read reader s.wire.next, { s with wire := s.wire.hear r }) := by
  show ((Wire.ask reader r s.wire).1, { s with wire := (Wire.ask reader r s.wire).2 }) = _
  rw [Wire.ask_eq]
