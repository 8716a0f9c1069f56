import Mathlib.Data.List.Forall2
import TupleSync.Remote.Store

/-!
# What a request says

**A request is understood by the members of its body, and not by the function that wrote it.** A body with
keys under `writes` and nothing under `deletes` asks for them to be written, and one the other way round
for them to be deleted; the key of a page says what a listing is narrowed to, and the token where it goes
on. What is asked is determined by the body (`Changes.unique`, `NarrowsTo.unique`), and the client's own
bodies say what it means (`changes_changeBody`, `narrowsTo_readBody`).
-/

set_option autoImplicit false

namespace TupleSync

open Remote

namespace Remote

/-- The members of the value are the parts of the key. -/
structure TellsKey (v : Json) (k : TupleKey) : Prop where
  user : v.member? "user" = some (.text k.user)
  relation : v.member? "relation" = some (.text k.relation)
  object : v.member? "object" = some (.text k.object)

theorem TellsKey.unique {v : Json} {k k' : TupleKey} (h : TellsKey v k) (h' : TellsKey v k') : k = k' := by
  obtain ⟨user, relation, object⟩ := k
  obtain ⟨user', relation', object'⟩ := k'
  have huser := h.user.symm.trans h'.user
  have hrelation := h.relation.symm.trans h'.relation
  have hobject := h.object.symm.trans h'.object
  simp only [Option.some.injEq, Json.text.injEq] at huser hrelation hobject
  rw [huser, hrelation, hobject]

theorem tellsKey_write (k : TupleKey) : TellsKey (TupleKey.codec.write k) k := ⟨rfl, rfl, rfl⟩

/-! ## Changes -/

namespace Change

/-- The name that what is changed so stands under. -/
def place : Change → String
  | .write => "writes"
  | .delete => "deletes"

def opposite : Change → Change
  | .write => .delete
  | .delete => .write

/-- The name under which it is said that a key needs no change. -/
def leniency : Change → String
  | .write => "on_duplicate"
  | .delete => "on_missing"

end Change

namespace Request

/-- What the body of a request says under the name. -/
def said? (r : Request) (name : String) : Option Json := r.body.bind (Json.member? name)

/-- The request asks for these keys to be changed so, in this order, and for nothing to be changed in the
other way. Keys that need no change are no fault. -/
structure Changes (r : Request) (c : Change) (keys : List TupleKey) : Prop where
  listed : ∃ v items, r.said? c.place = some v ∧ v.member? "tuple_keys" = some (.array items) ∧
    v.member? c.leniency = some (.text "ignore") ∧ List.Forall₂ TellsKey items keys
  alone : r.said? c.opposite.place = none

/-- The request is about what the narrowing leaves, without a word of subjects. -/
def NarrowsTo (r : Request) : Option Narrowing → Prop
  | none => r.said? "tuple_key" = none
  | some n => ∃ v, r.said? "tuple_key" = some v ∧ v.member? "user" = none ∧
      v.member? "relation" = n.relation.map .text ∧ v.member? "object" = some (.text n.object)

/-- The request asks for the page with the token; the first page has none. -/
def ContinuesFrom (r : Request) (token : String) : Prop :=
  r.said? "continuation_token" = if token = "" then none else some (.text token)

variable {r : Request}

/-- **A request changes keys in one way, and one list of them.** -/
theorem Changes.unique {c c' : Change} {keys keys' : List TupleKey} (h : r.Changes c keys)
    (h' : r.Changes c' keys') : c = c' ∧ keys = keys' := by
  obtain ⟨v, items, hv, hitems, -, hkeys⟩ := h.listed
  obtain ⟨v', items', hv', hitems', -, hkeys'⟩ := h'.listed
  by_cases hc : c = c'
  · subst hc
    cases Option.some.inj (hv.symm.trans hv')
    cases Option.some.inj (hitems.symm.trans hitems')
    have hunique : Relator.RightUnique TellsKey := fun _ _ _ hk hk' => hk.unique hk'
    exact ⟨rfl, hunique.forall₂ hkeys hkeys'⟩
  · -- the keys of the one change would stand where the other says nothing
    have hplace : c'.opposite = c := by
      cases c <;> cases c' <;> first | rfl | exact absurd rfl hc
    have hnone := h'.alone
    rw [hplace, hv] at hnone
    cases hnone

theorem NarrowsTo.unique {n n' : Option Narrowing} (h : r.NarrowsTo n) (h' : r.NarrowsTo n') :
    n = n' := by
  rcases n with _ | ⟨relation, object⟩ <;> rcases n' with _ | ⟨relation', object'⟩
  · rfl
  · obtain ⟨v, hv, -⟩ := h'
    cases h.symm.trans hv
  · obtain ⟨v, hv, -⟩ := h
    cases h'.symm.trans hv
  · obtain ⟨v, hv, -, hrelation, hobject⟩ := h
    obtain ⟨v', hv', -, hrelation', hobject'⟩ := h'
    cases Option.some.inj (hv.symm.trans hv')
    have hsame : relation = relation' :=
      Option.map_injective (fun _ _ => Json.text.inj) (hrelation.symm.trans hrelation')
    have hsame' : object = object' := Json.text.inj (Option.some.inj (hobject.symm.trans hobject'))
    rw [hsame, hsame']

theorem ContinuesFrom.unique {token token' : String} (h : r.ContinuesFrom token)
    (h' : r.ContinuesFrom token') : token = token' := by
  have hsame := h.symm.trans h'
  by_cases ht : token = ""
  · by_cases ht' : token' = ""
    · rw [ht, ht']
    · simp [ht, ht'] at hsame
  · by_cases ht' : token' = ""
    · simp [ht, ht'] at hsame
    · simpa [ht, ht'] using hsame

end Request

end Remote

open Remote

/-! ## The client's requests -/

namespace RemoteStore

/-- The request for one page of what the pattern is looked up in. -/
def pageRequest (s : RemoteStore) (p : Tuple) (token : String) : Request :=
  s.request "read" (readBody (Narrowing.of? p) s.pageSize token)

def changeRequest (s : RemoteStore) (ch : Change) (keys : List TupleKey) : Request :=
  s.request "write" (changeBody s.modelId ch keys)

variable (s : RemoteStore)

/-- **A body for changes says which keys are changed, and how.** -/
theorem changes_changeBody (what modelId : String) (c : Change) (keys : List TupleKey) :
    (s.request what (changeBody modelId c keys)).Changes c keys := by
  have hkeys : List.Forall₂ TellsKey (keys.map TupleKey.codec.write) keys := by
    rw [List.forall₂_map_left_iff, List.forall₂_same]
    exact fun k _ => tellsKey_write k
  cases c with
  | write => exact ⟨⟨_, _, rfl, rfl, rfl, hkeys⟩, rfl⟩
  | delete => exact ⟨⟨_, _, rfl, rfl, rfl, hkeys⟩, rfl⟩

theorem narrowsTo_readBody (what : String) (narrowing : Option Narrowing) (size : Nat) (token : String) :
    (s.request what (readBody narrowing size token)).NarrowsTo narrowing := by
  cases narrowing with
  | none => by_cases h : token = "" <;>
      simp [Request.NarrowsTo, Request.said?, request, readBody, Json.member?, h, List.lookup_cons]
  | some n =>
    obtain ⟨_ | relation, object⟩ := n
    · exact ⟨_, rfl, rfl, rfl, rfl⟩
    · exact ⟨_, rfl, rfl, rfl, rfl⟩

theorem continuesFrom_readBody (what : String) (narrowing : Option Narrowing) (size : Nat)
    (token : String) : (s.request what (readBody narrowing size token)).ContinuesFrom token := by
  cases narrowing <;> by_cases h : token = "" <;>
    simp [Request.ContinuesFrom, Request.said?, request, readBody, Json.member?, h, List.lookup_cons]

end RemoteStore

end TupleSync
