import TupleSync.Tuple.Basic

/-!
# Tuple keys

**A key names a tuple in three texts: subject, relation, object.** The two references are joined at a
colon and cut again at the first one, so a key always finds its way back, and a tuple does unless one of
its types has a colon of its own.
-/

set_option autoImplicit false

namespace TupleSync

/-- A tuple as a store on the network names it. -/
structure TupleKey where
  user : String
  relation : String
  object : String
  deriving Repr, DecidableEq

/-- The key of a tuple. -/
def Tuple.key (t : Tuple) : TupleKey :=
  ⟨t.userType ++ ":" ++ t.userId, t.relation, t.objectType ++ ":" ++ t.objectId⟩

/-- The tuple of a key; there is none unless both ends have a colon. -/
def TupleKey.tuple? (k : TupleKey) : Option Tuple := do
  let (userType, userId) ← Text.cutAt ':' k.user
  let (objectType, objectId) ← Text.cutAt ':' k.object
  return ⟨userType, userId, k.relation, objectType, objectId⟩

/-- An object that a subject reaches. -/
structure Resource where
  objectType : String
  objectId : String
  deriving Repr, DecidableEq

end TupleSync
