import TupleSync.Store.Basic

/-!
# The permissive store

**It holds nothing and allows everything**, so that the rest of the program need not know whether
permissions are enforced.
-/

set_option autoImplicit false

namespace TupleSync

/-- The store that stands in where permissions are not enforced. -/
structure PermissiveStore where

instance : TupleStore PermissiveStore where
  check _ := pure true
  add _ := pure ()
  addBulk _ := pure ()
  remove _ := pure ()
  removeBulk _ := pure ()
  removeAll := pure ()
  list _ := pure []
  accessible _ := pure []
  replace _ _ := pure .silently

end TupleSync
