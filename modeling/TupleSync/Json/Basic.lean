/-!
# JSON values, and the three ways a text can fail

A JSON text is either read to the end or it fails, and **a failure has one of three causes**: the text
is well formed but says something of the wrong shape, the text is not JSON, or the text stops inside a
value. Every reader of this folder fails with one of these and with nothing else, so two readers can be
compared by equality.

`Json` is the value of a text. Members keep their order and may repeat: what a repeated member means is
for the reader of a record to say, not for the tree.
-/

set_option autoImplicit false

namespace TupleSync

/-- Why a JSON text could not be read. -/
inductive Json.Fault where
  /-- Well-formed text that holds something other than what was asked for. -/
  | mistyped
  /-- Text that no JSON value is written as. -/
  | malformed
  /-- Text that ends inside a value. -/
  | truncated
  deriving Repr, DecidableEq

/-- A number literal: a whole number, or any other literal as it is written.

`-0` is a decimal: there is no whole number that it would be told apart from `0` by. -/
inductive Json.Number where
  | whole (n : Int)
  | decimal (literal : String)
  deriving Repr, DecidableEq

/-- A JSON value. -/
inductive Json where
  | null
  | bool (b : Bool)
  | number (n : Json.Number)
  | text (s : String)
  | array (items : List Json)
  | object (members : List (String × Json))
  deriving Repr, Inhabited

namespace Json

/-- A whole number as a value. -/
abbrev whole (n : Int) : Json := .number (.whole n)

/-- The value of the first member of that name. -/
def member? (name : String) : Json → Option Json
  | .object members => members.lookup name
  | _ => none

end Json

end TupleSync
