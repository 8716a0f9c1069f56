import TupleSync.Log.Record
import TupleSync.Json.Printer
import TupleSync.Text.Quoting
import TupleSync.Text.Digits

/-!
# Records as lines

**A record is written as one line, as text or as JSON.** The text names level, target, message and
fields; the JSON has the level and, in one object, the message and the fields.
-/

set_option autoImplicit false

namespace TupleSync.Log

/-- A value in a line of text. -/
def Value.text : Value → String
  | .shown s => s
  | .quoted s => Text.inQuotes s
  | .number n => Text.ofInt n

/-- A value in a line of JSON. -/
def Value.json : Value → Json
  | .shown s => .text s
  | .quoted s => .text s
  | .number n => .whole n

/-- How records are written. -/
inductive Style where
  | text
  | json
  deriving Repr, DecidableEq

namespace Record

/-- The record as a line of text. -/
def line (r : Record) : String :=
  r.level.text ++ " " ++ r.target ++ ": " ++ r.message ++
    String.join (r.fields.map fun (name, value) => " " ++ name ++ "=" ++ value.text)

/-- The record as an object. -/
def json (r : Record) : Json :=
  .object
    [("level", .text r.level.text),
     ("fields", .object (("message", .text r.message) ::
       r.fields.map fun (name, value) => (name, value.json)))]

end Record

end TupleSync.Log
