import TupleSync.Text.Blank
import TupleSync.Text.Digits

/-!
# The environment

**A variable is a text or it is not there**: bytes that are no text count as not set. Some variables also
count as not set when they hold nothing but blanks; then the value is still taken with the blanks that
surround it.
-/

set_option autoImplicit false

namespace TupleSync

/-- The variables that are set, with the bytes of their values. -/
structure Environment where
  settings : List (String × List UInt8)

namespace Environment

/-- The bytes of a variable. -/
def bytes? (env : Environment) (name : String) : Option (List UInt8) := env.settings.lookup name

/-- The text of a variable. -/
def text? (env : Environment) (name : String) : Option String := do
  String.fromUTF8? ⟨(← env.bytes? name).toArray⟩

/-- The text of a variable that holds more than blanks. -/
def nonBlank? (env : Environment) (name : String) : Option String :=
  (env.text? name).filter fun s => Text.trim s != ""

end Environment

end TupleSync
