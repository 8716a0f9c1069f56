import TupleSync.Json.Record
import TupleSync.Tuple.Key

/-!
# How tuples, keys and resources are written

Plain records with their fields as columns; all of them have to be there.
-/

set_option autoImplicit false

namespace TupleSync

open Json

/-- A text column that has to be there. -/
abbrev textField (name : String) : Column := .required name .text

def Tuple.codec : Codec Tuple :=
  .record
    [textField "user_type", textField "user_id", textField "relation", textField "object_type",
     textField "object_id"]
    (fun t => (t.userType, t.userId, t.relation, t.objectType, t.objectId, ()))
    (fun (userType, userId, relation, objectType, objectId, ()) =>
      ⟨userType, userId, relation, objectType, objectId⟩)

def TupleKey.codec : Codec TupleKey :=
  .record [textField "user", textField "relation", textField "object"]
    (fun k => (k.user, k.relation, k.object, ()))
    (fun (user, relation, object, ()) => ⟨user, relation, object⟩)

def Resource.codec : Codec Resource :=
  .record [textField "object_type", textField "object_id"]
    (fun r => (r.objectType, r.objectId, ()))
    (fun (objectType, objectId, ()) => ⟨objectType, objectId⟩)

end TupleSync
