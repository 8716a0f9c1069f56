import TupleSync.Json.Reader

/-!
# Records

**A record is a table of columns, and the table is all there is to reading it.** A column has its names,
the reader of its value and, if it may be missing, the value it then has. Members come in any order;
one that names a column a second time is refused as soon as its key is read; a missing column is noticed
at the closing bracket.

What happens to a member that names no column is the one choice a record has. A plain record skips it and
may also be written as an array of its columns in order. An open record reads it and hands it on, and has
to be an object.
-/

set_option autoImplicit false

namespace TupleSync.Json

/-- How values of one kind are read and written. -/
structure Codec (α : Type) where
  read : Reader α
  write : α → Json

namespace Codec

def text : Codec String := ⟨Reader.text, Json.text⟩

def int64 : Codec Int64 := ⟨Reader.int64, fun n => Json.whole n.toInt⟩

def int16 : Codec Int16 := ⟨Reader.int16, fun n => Json.whole n.toInt⟩

end Codec

/-- One column of a record. -/
structure Column where
  name : String
  /-- Other names that the column is read under. -/
  aliases : List String
  Value : Type
  codec : Codec Value
  /-- The value of the column where it is missing. -/
  absent : Option Value

/-- A column that has to be there. -/
abbrev Column.required {α : Type} (name : String) (codec : Codec α) : Column :=
  ⟨name, [], α, codec, none⟩

/-- A column that may be missing. -/
abbrev Column.optional {α : Type} (name : String) (aliases : List String) (codec : Codec α)
    (absent : α) : Column :=
  ⟨name, aliases, α, codec, some absent⟩

/-- All names of a column. -/
def Column.names (c : Column) : List String := c.name :: c.aliases

/-- The values of a record, one per column. -/
@[reducible] def Row : List Column → Type
  | [] => Unit
  | c :: cs => c.Value × Row cs

/-- The values of a record read so far. -/
@[reducible] def Draft : List Column → Type
  | [] => Unit
  | c :: cs => Option c.Value × Draft cs

namespace Draft

/-- Nothing is read yet. -/
def empty : (cols : List Column) → Draft cols
  | [] => ()
  | _ :: cs => (none, empty cs)

/-- Fills the column that has the name; `none` if no column has it. A filled column takes no second
value, whatever the value is. -/
def offer (key : String) (depth : Nat) (v : Outline) :
    (cols : List Column) → Draft cols → Option (Except Fault (Draft cols))
  | [], _ => none
  | c :: cs, (slot, rest) =>
    if key ∈ c.names then
      match slot with
      | some _ => some (.error .mistyped)
      | none => some ((fun a => (some a, rest)) <$> c.codec.read depth v)
    else (offer key depth v cs rest).map ((fun d => (slot, d)) <$> ·)

/-- The values of the record, missing ones filled in. -/
def finish : (cols : List Column) → Draft cols → Except Fault (Row cols)
  | [], _ => .ok ()
  | c :: cs, (slot, rest) =>
    match slot <|> c.absent with
    | none => .error .mistyped
    | some a => (fun r => (a, r)) <$> finish cs rest

end Draft

/-- A member of an object as a reader meets it. -/
abbrev Member := Except Fault String × Outline

/-- What a record does with a member that names no column. -/
inductive Spare where
  | skipped
  | kept
  deriving Repr, DecidableEq

/-- The members handed on for one that names no column. One that is handed on is read to its end first,
so that later readers meet no fault in it but that it is of the wrong kind. -/
def Spare.read (spare : Spare) (key : String) (depth : Nat) (v : Outline) :
    Except Fault (List Member) :=
  match spare with
  | .skipped => do
    v.skip
    .ok []
  | .kept => do
    let _ ← v.toJson depth
    .ok [(.ok key, v)]

namespace Row

/-- The members of a record in the order of its columns. -/
def members : (cols : List Column) → Row cols → List (String × Json)
  | [], _ => []
  | c :: cs, (a, rest) => (c.name, c.codec.write a) :: members cs rest

/-- Reads members into the draft; what is handed on keeps its order. -/
def ofMembers (spare : Spare) (cols : List Column) (depth : Nat) :
    Draft cols → List Member → Except Fault (Draft cols × List Member)
  | d, [] => .ok (d, [])
  | d, (key, v) :: rest => do
    let key ← key
    match d.offer key depth v cols with
    | some filled =>
      let d ← filled
      ofMembers spare cols depth d rest
    | none =>
      let kept ← spare.read key depth v
      let (d, more) ← ofMembers spare cols depth d rest
      .ok (d, kept ++ more)

/-- Reads the members of an object that ends with `stop`. -/
def ofObject (spare : Spare) (cols : List Column) (depth : Nat) (members : List Member)
    (stop : Option Stop) : Except Fault (Row cols × List Member) := do
  let (d, more) ← ofMembers spare cols depth (Draft.empty cols) members
  match stop with
  | some s => .error s.read
  | none =>
    let row ← d.finish cols
    .ok (row, more)

/-- Reads the items of an array as the columns in order. -/
def ofItems (depth : Nat) :
    (cols : List Column) → List Outline → Option Stop → Except Fault (Row cols)
  | [], [], none => .ok ()
  | [], [], some s => .error s.read
  | [], _ :: _, _ => .error .malformed
  | c :: cs, [], none =>
    match c.absent with
    | some a => (fun r => (a, r)) <$> ofItems depth cs [] none
    | none => .error .mistyped
  | _ :: _, [], some s => .error s.read
  | c :: cs, v :: rest, stop => do
    let a ← c.codec.read depth v
    let r ← ofItems depth cs rest stop
    .ok (a, r)

end Row

namespace Reader

/-- A record that skips what it does not know. -/
def plain (cols : List Column) : Reader (Row cols)
  | 0, .object _ _ => .error .malformed
  | 0, .array _ _ => .error .malformed
  | depth + 1, .object members stop =>
    Prod.fst <$> Row.ofObject .skipped cols depth members stop
  | depth + 1, .array items stop => Row.ofItems depth cols items stop
  | _, v => .error v.refusal

/-- A record whose unknown members are read as a second record, once the object is closed. -/
def flattened (cols inner : List Column) : Reader (Row cols × Row inner)
  | 0, .object _ _ => .error .malformed
  | depth + 1, .object members stop => do
    let (row, more) ← Row.ofObject .kept cols depth members stop
    let (row', _) ← Row.ofObject .skipped inner depth more none
    .ok (row, row')
  | _, v => .error v.refusal

end Reader

namespace Codec

/-- A record whose columns stand for the fields of a structure. -/
def record {α : Type} (cols : List Column) (toRow : α → Row cols) (ofRow : Row cols → α) :
    Codec α where
  read depth v := ofRow <$> Reader.plain cols depth v
  write a := .object (Row.members cols (toRow a))

end Codec

end TupleSync.Json
