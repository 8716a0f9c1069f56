/-!
# Log records

**What a part of the program has to report is a value of that part's own type; a record is how such a
value is shown.** Records carry the level, the place they come from, the message and named fields. A
field keeps how its value is to be written: as it reads, in quotes, or as a number.
-/

set_option autoImplicit false

namespace TupleSync.Log

inductive Level where
  | trace
  | debug
  | info
  | warn
  | error
  deriving Repr, DecidableEq

namespace Level

def text : Level → String
  | .trace => "TRACE"
  | .debug => "DEBUG"
  | .info => "INFO"
  | .warn => "WARN"
  | .error => "ERROR"

/-- How much gets through a filter set to the level: the higher, the more. -/
def verbosity : Level → Nat
  | .error => 1
  | .warn => 2
  | .info => 3
  | .debug => 4
  | .trace => 5

end Level

/-- The value of a field. -/
inductive Value where
  /-- A text that is shown as it reads. -/
  | shown (s : String)
  /-- A text that is quoted in lines of text. -/
  | quoted (s : String)
  | number (n : Int)
  deriving Repr, DecidableEq

structure Record where
  level : Level
  /-- The part of the program that reports. -/
  target : String
  message : String
  fields : List (String × Value)
  deriving Repr, DecidableEq

end TupleSync.Log
