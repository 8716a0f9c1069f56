import TupleSync.Bus.Local
import TupleSync.Bus.Signal

/-!
# Rehearsals

**A rehearsal runs a local bus on a clock that moves only when everybody waits.** Its handlers follow
scripts: they report, and then do nothing, sleep, raise the signal, publish an event themselves, or fail.
Whoever can take a step takes it before time passes, so a rehearsal has one outcome, and that outcome is
one of the bus's interleavings: every change of the bus is a `Local.Move`.

A publisher waits for room for a millisecond and then gives up. A handler that publishes waits as long as
it takes; on a full queue that is for ever, since the worker that could make room is the one that waits.
-/

set_option autoImplicit false

namespace TupleSync.Bus

/-- What a handler does after it has reported. -/
inductive Reaction where
  | record
  /-- It sleeps so many milliseconds and reports again. -/
  | sleep (ms : Nat)
  /-- It raises the signal through its own token. -/
  | cancel (token : Nat)
  | publish (e : Event)
  | fail

/-- A handler with a tag to report by. -/
structure Script where
  tag : String
  reaction : Reaction

/-- What a handler reports. -/
inductive Sighting where
  | began (tag : String) (e : Event)
  | ended (tag : String) (e : Event)

/-- When the handler that runs goes on. -/
inductive Rest where
  | at (time : Nat) (tag : String) (e : Event)
  | never

structure Rehearsal where
  bus : Local Script
  signal : Signal
  /-- The time in milliseconds. -/
  clock : Nat
  /-- The handler that runs waits for something. -/
  rest : Option Rest
  seen : List Sighting
  log : List Log.Record

namespace Rehearsal

/-- A rehearsal of a new bus; the first token of the signal is the caller's. -/
def new (capacity : Nat) : Rehearsal := ⟨.new capacity, .new, 0, none, [], []⟩

def report (r : Rehearsal) (s : Sighting) : Rehearsal := { r with seen := r.seen ++ [s] }

/-- Writes down what happened. -/
def note (r : Rehearsal) (hs : List (Happening Script)) : Rehearsal :=
  { r with log := r.log ++ Happening.records hs }

/-- Takes a step of the bus, if it can be taken. -/
def move? (r : Rehearsal) (m : Local.Move Script) : Option Rehearsal :=
  (r.bus.move? m).map fun (hs, bus) => { r with bus }.note hs

/-- Does something with the signal; the bus learns of it when the signal fires. -/
def signalled (r : Rehearsal) (a : Signal.Action) : Rehearsal :=
  let signal := (r.signal.act a).2
  let r := { r with signal }
  if signal.IsReleased then (r.move? .signal).getD r else r

/-- Does what the script says. -/
def react (r : Rehearsal) (s : Script) (e : Event) : Rehearsal :=
  let r := r.report (.began s.tag e)
  match s.reaction with
  | .record => (r.move? .finish).getD r
  | .sleep ms => { r with rest := some (.at (r.clock + ms) s.tag e) }
  | .cancel token =>
    let r := r.signalled (.cancel token)
    (r.move? .finish).getD r
  | .publish e' =>
    match r.move? (.push e') with
    | some r => (r.move? .finish).getD r
    | none => { r with rest := some .never }
  | .fail => (r.move? .fail).getD r

/-- One step of the worker that takes no time. -/
def advance? (r : Rehearsal) : Option Rehearsal := do
  if r.rest.isSome then none
  let (hs, bus) ← r.bus.move? .advance
  let r := { r with bus }.note hs
  match hs with
  | [.delivered (.invoked s e)] => return r.react s e
  | [.delivered _] => return (r.move? .finish).getD r
  | _ => return r

/-- How many steps a bus may take before a rehearsal that does not come to rest is broken off. -/
def patience : Nat := 1000000

/-- Takes steps until everybody waits. -/
def settle : Nat → Rehearsal → Rehearsal
  | 0, r => r
  | fuel + 1, r =>
    match r.advance? with
    | some r => settle fuel r
    | none => r

/-- The sleeping handler, if there is one and it wakes by the time. -/
def wakesBy (r : Rehearsal) (time : Nat) : Option Rehearsal :=
  match r.rest with
  | some (.at t tag e) =>
    if t ≤ time then
      let r := { r with clock := t, rest := none }.report (.ended tag e)
      some ((r.move? .finish).getD r)
    else none
  | _ => none

/-- Lets time pass up to the moment. -/
def passUntil (time : Nat) : Nat → Rehearsal → Rehearsal
  | 0, r => r
  | fuel + 1, r =>
    let r := settle patience r
    match r.wakesBy time with
    | some r => passUntil time fuel r
    | none => { r with clock := time }

/-- Lets so many milliseconds pass. -/
def pass (ms : Nat) (r : Rehearsal) : Rehearsal := passUntil (r.clock + ms) patience r

/-- How an act of the caller ended. -/
inductive Outcome where
  | done
  | sent
  | blocked
  | refused (e : BusError)
  /-- It did not end within the time that one waits for it. -/
  | hung

/-- Publishes, and waits a millisecond for room. -/
def publish (r : Rehearsal) (e : Event) : Outcome × Rehearsal :=
  match r.move? (.push e) with
  | some r => (.sent, r)
  | none =>
    let r := r.pass 1
    match r.move? (.push e) with
    | some r => (.sent, r)
    | none => (.blocked, r)

/-- Waits for the shutdown to return, up to the moment, and then gives up. -/
def awaitJoin (time : Nat) : Nat → Rehearsal → Outcome × Rehearsal
  | 0, r => (.hung, r)
  | fuel + 1, r =>
    let r := settle patience r
    match r.move? .join with
    | some r => (.done, r)
    | none =>
      match r.wakesBy time with
      | some r => awaitJoin time fuel r
      | none =>
        let r := { r with clock := time }
        (.hung, (r.move? .giveUp).getD r)

/-- How long one waits for a shutdown: an hour. -/
def shutdownPatience : Nat := 3600000

/-- Something that the caller does. -/
inductive Act where
  | register (h : Handler Script)
  /-- Registers a handler with a token of its own, by which it raises the signal. -/
  | registerCanceller (tag : String) (name : EventName)
  | publish (e : Event)
  | run
  | shutdown
  | cancel
  | dropToken
  | wait (ms : Nat)
  | nothing

/-- Registers a handler. -/
def register (r : Rehearsal) (h : Handler Script) : Outcome × Rehearsal :=
  match r.bus.register h with
  | .ok _ => (.done, (r.move? (.register h)).getD r)
  | .error e => (.refused e, r)

/-- Does something. -/
def act (r : Rehearsal) : Act → Outcome × Rehearsal
  | .register h => r.register h
  | .registerCanceller tag name =>
    let token := r.signal.channel.senders.length
    match r.register (.of name ⟨tag, .cancel token⟩) with
    | (.done, r) => (.done, r.signalled (.cloneToken 0))
    | refused => refused
  | .publish e => r.publish e
  | .run =>
    match r.bus.run with
    | .ok _ => (.done, (r.move? .run).getD r)
    | .error e => (.refused e, r)
  | .shutdown =>
    let r := (r.move? .shutdown).getD r
    awaitJoin (r.clock + shutdownPatience) patience r
  | .cancel => (.done, r.signalled (.cancel 0))
  | .dropToken => (.done, r.signalled (.dropToken 0))
  | .wait ms => (.done, r.pass ms)
  | .nothing => (.done, r)

/-- Does something and lets the bus come to rest. What was seen and reported starts anew. -/
def step (r : Rehearsal) (a : Act) : Outcome × Rehearsal :=
  let (outcome, r) := { r with seen := [], log := [] }.act a
  (outcome, r.pass 2)

end Rehearsal

end TupleSync.Bus
