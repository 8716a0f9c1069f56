import TupleSync.Json.Token

/-!
# Outlines

**An outline is what a text holds as far as it is JSON.** It is a tree with the text's own shape, and
where the text stops being JSON the tree has a marked end. Reading a typed value from left to right and
stopping at the first problem is then a walk over the tree: a value of the wrong shape that stands before
the marked end is found first, and one that stands after it is never reached.

The builder keeps the open containers on a stack and takes one token at a time, so nesting costs it
nothing; how deep a reader is willing to go is the reader's business.
-/

set_option autoImplicit false

namespace TupleSync.Json

/-- Where a text stops being JSON: the fault that a reader of the place meets, and that of a skipper. -/
structure Stop where
  read : Fault
  skipped : Fault
  deriving Repr, DecidableEq

namespace Stop

/-- A place where readers and skippers agree. -/
def both (f : Fault) : Stop := ⟨f, f⟩

end Stop

/-- What a text holds as far as it is JSON. A container without a closing bracket has a stop. -/
inductive Outline where
  | scalar (s : Scalar)
  | text (t : Except Fault String)
  | array (items : List Outline) (stop : Option Stop)
  | object (members : List (Except Fault String × Outline)) (stop : Option Stop)
  | broken (stop : Stop)

/-- The outline of a text, and whether anything follows it. -/
structure Document where
  root : Outline
  trailing : Bool

namespace Outline

/-- An open container; what it holds so far stands last first. -/
inductive Frame where
  | items (done : List Outline)
  | members (done : List (Except Fault String × Outline))
  /-- A key whose value is to come. -/
  | member (done : List (Except Fault String × Outline)) (key : Except Fault String)

/-- What the next token may be. -/
inductive Want where
  | value
  | valueOrClose
  | key
  | keyOrClose
  | colon
  | commaOrClose
  deriving Repr, DecidableEq

namespace Frame

/-- The container after one more value. A value is never given to an object that has no key for it. -/
def push (v : Outline) : Frame → Frame
  | .items done => .items (v :: done)
  | .member done key => .members ((key, v) :: done)
  | .members done => .members done

/-- The container as it stands when it ends with `stop`. -/
def close (stop : Option Stop) : Frame → Outline
  | .items done => .array done.reverse stop
  | .members done => .object done.reverse stop
  | .member done key => .object (((key, .broken (stop.getD (.both .malformed))) :: done).reverse) stop

end Frame

/-- The outline of a text that stops inside these containers. -/
def unwind (stop : Stop) : List Frame → Outline → Outline
  | [], v => v
  | frame :: outer, v => unwind stop outer ((frame.push v).close (some stop))

/-- The outline of a text that stops where a value should be. -/
def stopAtValue (stop : Stop) (stack : List Frame) : Outline :=
  unwind stop stack (.broken stop)

/-- The outline of a text that stops between the values of its innermost container. -/
def stopBetween (stop : Stop) : List Frame → Outline
  | [] => .broken stop
  | frame :: outer => unwind stop outer (frame.close (some stop))

/-- The outline of a text that stops where `want` says. -/
def stopAt (stop : Stop) (stack : List Frame) : Want → Outline
  | .value => stopAtValue stop stack
  | _ => stopBetween stop stack

/-- What one token does to the text read so far. -/
inductive Step where
  /-- The token ends a value inside these containers. -/
  | give (v : Outline) (stack : List Frame)
  | go (stack : List Frame) (want : Want)
  /-- Nothing can be read past the token. -/
  | halt (whole : Outline)

/-- A token where a value should start. -/
def startValue (stack : List Frame) : Token → Step
  | .scalar s => .give (.scalar s) stack
  | .text t => .give (.text t) stack
  | .openArray => .go (.items [] :: stack) .valueOrClose
  | .openObject => .go (.members [] :: stack) .keyOrClose
  | .brokenText r s => .halt (stopAtValue ⟨r, s⟩ stack)
  | .brokenScalar r s => .halt (stopAtValue ⟨r, s⟩ stack)
  | _ => .halt (stopAtValue (.both .malformed) stack)

/-- What a token does. -/
def step (stack : List Frame) (want : Want) (t : Token) : Step :=
  match want, stack, t with
  | .value, _, _ => startValue stack t
  | .valueOrClose, .items done :: outer, .closeArray => .give (.array done.reverse none) outer
  | .valueOrClose, _, _ => startValue stack t
  | .key, .members done :: outer, .text key => .go (.member done key :: outer) .colon
  | .keyOrClose, .members done :: outer, .text key => .go (.member done key :: outer) .colon
  | .keyOrClose, .members done :: outer, .closeObject => .give (.object done.reverse none) outer
  | .key, _, .brokenText r s => .halt (stopBetween ⟨r, s⟩ stack)
  | .keyOrClose, _, .brokenText r s => .halt (stopBetween ⟨r, s⟩ stack)
  | .colon, _, .colon => .go stack .value
  | .commaOrClose, .items _ :: _, .comma => .go stack .value
  | .commaOrClose, .items done :: outer, .closeArray => .give (.array done.reverse none) outer
  | .commaOrClose, .members _ :: _, .comma => .go stack .key
  | .commaOrClose, .members done :: outer, .closeObject => .give (.object done.reverse none) outer
  | _, _, _ => .halt (stopBetween (.both .malformed) stack)

/-- Builds the outline of the tokens, inside the containers of the stack. -/
def build : List Token → List Frame → Want → Document
  | [], stack, want => ⟨stopAt (.both .truncated) stack want, false⟩
  | t :: ts, stack, want =>
    match step stack want t with
    | .give v [] => ⟨v, !ts.isEmpty⟩
    | .give v (frame :: outer) => build ts (frame.push v :: outer) .commaOrClose
    | .go stack want => build ts stack want
    | .halt whole => ⟨whole, false⟩

end Outline

namespace Document

/-- The outline of a text. -/
def ofBytes (bytes : List UInt8) : Document :=
  Outline.build (Token.ofBytes bytes) [] .value

end Document

end TupleSync.Json
