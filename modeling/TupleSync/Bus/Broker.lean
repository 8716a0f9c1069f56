import TupleSync.Bus.Local
import TupleSync.Config.Broker

/-!
# The broker bus

**Every event name is a subject, and a bus has one subscription for each subject it has handlers for.**
All buses of a group share the messages of a subject; this is one of them. The first handler of a name
opens the subscription, if the broker grants it, and the later ones join it. A subscription has a consumer
of its own. It takes the messages in the order they arrive and gives each to the handlers that are there
at that moment, one after the other; each handler reads the bytes for itself. A consumer looks at the stop
before it takes a message and not while it serves one. It is over when the stop has fired, when the
connection is lost, or when a handler fails.

Delivery starts with the subscription. To run the bus only ties the consumers to the caller's signal: a
forwarder waits for it and passes it on to the stop that the consumers watch. Whoever shuts the bus down
fires the stop and waits for the consumers one by one, and the bus cannot be used in the meantime. If the
wait is given up the bus knows its consumers no longer, and those that serve a message go on alone.

Like the local bus this is a step system; an interleaving is a list of moves.
-/

set_option autoImplicit false

namespace TupleSync.Bus

/-- What the consumer of a subscription is doing. -/
inductive Consumer (β : Type) where
  /-- It waits for a message or the stop. -/
  | waiting
  /-- It serves a message: the handler that has it, and those that are still to get it. -/
  | serving (payload : List UInt8) (current : Handler β) (rest : List (Handler β))
  /-- It is over, in good order or because a handler failed. -/
  | gone (failed : Bool)

/-- A subject that a bus listens to. -/
structure Subscription (β : Type) where
  name : EventName
  handlers : List (Handler β)
  /-- The messages that arrived and are not yet taken, the oldest first. -/
  pending : List (List UInt8)
  consumer : Consumer β

/-- How far a shutdown has come. -/
inductive Closing where
  /-- Nobody shuts the bus down. -/
  | none
  /-- The stop has fired, and the shutdown waits for the consumers. -/
  | draining
  /-- The connection is given up, and the shutdown waits for what is still on its way to the broker. -/
  | flushing
  deriving DecidableEq

/-- A bus that is, or was, connected to a broker. -/
structure Broker (β : Type) where
  config : BrokerConfig
  connected : Bool
  /-- The subscriptions in the order of their opening. -/
  subscriptions : List (Subscription β)
  /-- The subscriptions that a shutdown left behind when it was given up. -/
  abandoned : List (Subscription β)
  /-- The stop that the consumers watch has fired. -/
  stopped : Bool
  /-- A forwarder waits for the caller's signal. -/
  forwarding : Bool
  /-- The caller's signal has fired. -/
  signalled : Bool
  closing : Closing

/-- Something that happens on a broker bus. -/
inductive BrokerHappening (β : Type) where
  | connecting (config : BrokerConfig)
  | connected
  /-- A subscription is opened in the group. -/
  | subscribed (name : EventName) (group : String)
  /-- A subscription was asked for, and the broker did not open it. -/
  | refused (name : EventName) (group : String)
  | joined (name : EventName)
  | published (name : EventName) (payload : List UInt8)
  /-- The connection is closed, and the event is lost. -/
  | dropped (e : Event)
  /-- A message that no consumer will take. -/
  | missed (name : EventName)
  | delivered (d : Delivery β)
  | running (subjects : Nat)
  /-- A handler failed and took the consumer of its subject with it. -/
  | failed (name : EventName)
  | unsubscribed (name : EventName)
  /-- The end of a consumer that failed is noticed. -/
  | failureSeen (name : EventName)
  | shutDown

/-! ## What a consumer does -/

/-- Something that the consumer of a subscription does. -/
inductive Act where
  /-- It takes the oldest message, and the first handler gets it. -/
  | take
  /-- The handler returns, and the next one gets the message, if there is another. -/
  | next
  /-- The handler fails. -/
  | fail
  /-- The connection is lost, and no more messages will come. -/
  | cutOff
  /-- It leaves, since the stop has fired. -/
  | leave
  deriving DecidableEq

namespace Consumer

variable {β : Type}

def isGone : Consumer β → Bool
  | .gone _ => true
  | _ => false

/-- A message in the hands of the first of these handlers. -/
def give (payload : List UInt8) : List (Handler β) → List (BrokerHappening β) × Consumer β
  | [] => ([], waiting)
  | h :: rest => ([.delivered (h.givePayload payload)], serving payload h rest)

end Consumer

namespace Subscription

variable {β : Type}

/-- The subscription that the first handler of a name opens. -/
def opened (h : Handler β) : Subscription β := ⟨h.name, [h], [], .waiting⟩

/-- Another handler joins. -/
def join (s : Subscription β) (h : Handler β) : Subscription β :=
  { s with handlers := s.handlers ++ [h] }

/-- A message arrives, and waits behind the others. -/
def receive (s : Subscription β) (payload : List UInt8) : Subscription β :=
  { s with pending := s.pending ++ [payload] }

/-- What a consumer that waits can do; it looks at the stop before anything else. -/
def waiting? (s : Subscription β) (stopped : Bool) (a : Act) :
    Option (List (BrokerHappening β) × Subscription β) :=
  match a with
  | .take =>
    match s.pending with
    | [] => none
    | payload :: rest =>
      let given := Consumer.give payload s.handlers
      if stopped then none else some (given.1, { s with pending := rest, consumer := given.2 })
  | .cutOff =>
    if !stopped && s.pending.isEmpty then
      some ([.unsubscribed s.name], { s with consumer := .gone false })
    else none
  | .leave =>
    if stopped then some ([.unsubscribed s.name], { s with pending := [], consumer := .gone false })
    else none
  | _ => none

/-- What a consumer that serves a message can do. A handler that cannot read the message is not run, and
cannot fail. -/
def serving? (s : Subscription β) (payload : List UInt8) (current : Handler β)
    (rest : List (Handler β)) (a : Act) : Option (List (BrokerHappening β) × Subscription β) :=
  match a with
  | .next =>
    let given := Consumer.give payload rest
    some (given.1, { s with consumer := given.2 })
  | .fail =>
    match current.givePayload payload with
    | .invoked _ _ => some ([.failed s.name], { s with pending := [], consumer := .gone true })
    | _ => none
  | _ => none

/-- What the consumer does, if it can. -/
def act? (s : Subscription β) (stopped : Bool) (a : Act) :
    Option (List (BrokerHappening β) × Subscription β) :=
  match s.consumer with
  | .waiting => s.waiting? stopped a
  | .serving payload current rest => s.serving? payload current rest a
  | .gone _ => none

/-- Puts a subscription in the place of the one of its name. -/
def replaceIn (s : Subscription β) : List (Subscription β) → List (Subscription β)
  | [] => []
  | x :: xs => if x.name = s.name then s :: xs else x :: s.replaceIn xs

end Subscription

namespace Broker

variable {β : Type}

/-- Connects to the broker, if it can be reached. -/
def connect (reachable : Bool) (config : BrokerConfig) : Except BusError (Broker β) :=
  if reachable then .ok ⟨config, true, [], [], false, false, false, .none⟩
  else .error .brokerUnreachable

/-- The subscription of a subject. -/
def subscription? (b : Broker β) (name : EventName) : Option (Subscription β) :=
  b.subscriptions.find? fun s => s.name = name

/-- Changes the subscription of a subject. -/
def put (b : Broker β) (s : Subscription β) : Broker β :=
  { b with subscriptions := s.replaceIn b.subscriptions }

/-! ## What callers do -/

/-- Registers a handler: it joins the subscription of its name, or opens it if the broker grants that. -/
def registerIf (b : Broker β) (granted : Bool) (h : Handler β) :
    Except BusError (BrokerHappening β × Broker β) :=
  match b.subscription? h.name with
  | some s => .ok (.joined h.name, b.put (s.join h))
  | none =>
    if b.connected then
      if granted then
        .ok (.subscribed h.name b.config.queueGroup,
          { b with subscriptions := b.subscriptions ++ [.opened h] })
      else .error (.subscriptionRefused h.name)
    else .error .connectionClosed

/-- Registers a handler with a broker that opens every subscription. -/
def register (b : Broker β) (h : Handler β) : Except BusError (BrokerHappening β × Broker β) :=
  b.registerIf true h

/-- Publishes an event as a message on the subject of its name. -/
def push (b : Broker β) (e : Event) : BrokerHappening β :=
  if b.connected then .published e.name e.payloadBytes else .dropped e

/-- Ties the consumers to the caller's signal, once. -/
def run (b : Broker β) : Except BusError (Broker β) :=
  if b.forwarding then .error .alreadyRunning else .ok { b with forwarding := true }

/-- Stops the consumers; who does so waits for them. -/
def requestShutdown (b : Broker β) : Broker β := { b with stopped := true, closing := .draining }

/-! ## What becomes of messages and consumers -/

/-- A message arrives; it waits for the consumer if there is one. -/
def arrive (b : Broker β) (name : EventName) (payload : List UInt8) :
    List (BrokerHappening β) × Broker β :=
  match b.subscription? name with
  | some s =>
    if s.consumer.isGone then ([.missed name], b)
    else ([], b.put (s.receive payload))
  | none => ([.missed name], b)

/-- The consumer of a subject does something. -/
def act? (b : Broker β) (name : EventName) (a : Act) : Option (List (BrokerHappening β) × Broker β) := do
  let s ← b.subscription? name
  let (what, s) ← s.act? b.stopped a
  return (what, b.put s)

/-- A consumer that was left behind does something; for it the stop has fired. -/
def straggle? (b : Broker β) (i : Nat) (a : Act) : Option (List (BrokerHappening β) × Broker β) := do
  let s ← b.abandoned[i]?
  let (what, s) ← s.act? true a
  return (what, { b with abandoned := b.abandoned.set i s })

/-- The forwarder passes the caller's signal on. -/
def forward? (b : Broker β) : Option (Broker β) :=
  if b.forwarding && b.signalled then some { b with stopped := true } else none

/-! ## How a shutdown ends -/

/-- The shutdown sees that the consumer of a subject is over. -/
def collect? (b : Broker β) (name : EventName) : Option (List (BrokerHappening β) × Broker β) := do
  let s ← b.subscription? name
  match s.consumer with
  | .gone failed =>
    if b.closing = .draining then
      some (if failed then [.failureSeen name] else [],
        { b with subscriptions := b.subscriptions.eraseP fun s => s.name = name })
    else none
  | _ => none

/-- With no consumer left to wait for, the forwarder and the connection are given up. -/
def disconnect? (b : Broker β) : Option (Broker β) :=
  if b.closing = .draining && b.subscriptions.isEmpty then
    some { b with forwarding := false, connected := false, closing := .flushing }
  else none

/-- Shutting down returns. -/
def join? (b : Broker β) : Option (List (BrokerHappening β) × Broker β) :=
  if b.closing = .flushing then some ([.shutDown], { b with closing := .none }) else none

/-- Whoever waits for a shutdown can stop waiting; the consumers that it waits for are left behind. -/
def giveUp? (b : Broker β) : Option (Broker β) :=
  if b.closing = .flushing || b.closing = .draining && !b.subscriptions.isEmpty then
    some { b with subscriptions := [], abandoned := b.subscriptions ++ b.abandoned, closing := .none }
  else none

/-! ## Moves -/

/-- One step of anyone. -/
inductive Move (β : Type) where
  | register (h : Handler β)
  /-- A handler is registered whose subscription the broker does not open. -/
  | refuse (h : Handler β)
  | push (e : Event)
  | run
  /-- The caller's token is cancelled. -/
  | signal
  | forward
  | arrive (name : EventName) (payload : List UInt8)
  | act (name : EventName) (a : Act)
  | straggle (i : Nat) (a : Act)
  /-- Somebody asks for a shutdown. -/
  | shutdown
  | collect (name : EventName)
  | disconnect
  /-- A shutdown returns. -/
  | join
  /-- A shutdown is given up. -/
  | giveUp

/-- A call of the bus is made when it is not being shut down. -/
def call {α : Type} (b : Broker β) (result : Option α) : Option α :=
  if b.closing = .none then result else none

/-- Takes a step, if it can be taken now. A refused call is a step that changes nothing. -/
def move? (b : Broker β) : Move β → Option (List (BrokerHappening β) × Broker β)
  | .register h => b.call <|
    match b.register h with
    | .ok (what, b) => some ([what], b)
    | .error _ => some ([], b)
  | .refuse h => b.call <|
    match b.registerIf false h with
    | .error (.subscriptionRefused name) => some ([.refused name b.config.queueGroup], b)
    | _ => none
  | .push e => b.call (some ([b.push e], b))
  | .run => b.call <|
    match b.run with
    | .ok b => some ([.running b.subscriptions.length], b)
    | .error _ => some ([], b)
  | .signal => some ([], { b with signalled := true })
  | .forward => b.forward?.map fun b => ([], b)
  | .arrive name payload => some (b.arrive name payload)
  | .act name a => b.act? name a
  | .straggle i a => b.straggle? i a
  | .shutdown => b.call (some ([], b.requestShutdown))
  | .collect name => b.collect? name
  | .disconnect => b.disconnect?.map fun b => ([], b)
  | .join => b.join?
  | .giveUp => b.giveUp?.map fun b => ([], b)

/-- Takes steps in order; there is no result if one of them cannot be taken. -/
def moves? (b : Broker β) : List (Move β) → Option (List (BrokerHappening β) × Broker β)
  | [] => some ([], b)
  | m :: rest => do
    let (first, b) ← b.move? m
    let (more, b) ← b.moves? rest
    return (first ++ more, b)

/-- A shutdown of a bus whose consumers all wait: each leaves, and is seen to be over. -/
def shutdownMoves (b : Broker β) : List (Move β) :=
  .shutdown :: (b.subscriptions.flatMap fun s => [.act s.name .leave, .collect s.name]) ++
    [.disconnect, .join]

end Broker

namespace BrokerHappening

open Log

def place : String := "events_bus::nats"

/-- The record of what happens on a broker bus, where it leaves one. -/
def record? {β : Type} : BrokerHappening β → Option Record
  | connecting config =>
    some ⟨.info, place, "connecting to NATS",
      [("server", .shown config.serverUrl), ("queue_group", .shown config.queueGroup)]⟩
  | connected => some ⟨.info, place, "connected to NATS", []⟩
  | subscribed name group | refused name group =>
    some ⟨.info, place, "registering handler",
      [("subject", .shown name.text), ("queue_group", .shown group)]⟩
  | joined name =>
    some ⟨.debug, place, "adding handler to existing subscription", [("subject", .shown name.text)]⟩
  | published name payload =>
    some ⟨.debug, place, "pushing event",
      [("event", .shown name.text), ("bytes", .number payload.length)]⟩
  | dropped e =>
    some ⟨.warn, place, "NATS connection closed; dropping event", [("event", .shown e.name.text)]⟩
  | missed _ => none
  | delivered d => (Happening.delivered d).record?
  | running subjects =>
    some ⟨.info, place, "NATS event bus running", [("subjects", .number subjects)]⟩
  | failed _ => none
  | unsubscribed name => some ⟨.debug, place, "unsubscribed", [("subject", .shown name.text)]⟩
  | failureSeen name =>
    some ⟨.error, place, "subscription task terminated abnormally", [("subject", .shown name.text)]⟩
  | shutDown => some ⟨.info, place, "NATS event bus shut down", []⟩

end BrokerHappening

end TupleSync.Bus
