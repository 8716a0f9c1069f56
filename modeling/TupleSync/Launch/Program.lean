import TupleSync.Bus.Broker
import TupleSync.Launch.CommandLine
import TupleSync.Log.Filter
import TupleSync.Log.Line
import TupleSync.Remote.Connect
import TupleSync.Sync.Runtime

/-!
# The program

**Starting goes through four gates, and the first that is closed ends the program**: the command line, the
configuration, the store, the bus. Then the program waits for a signal, and stopping always succeeds.

What the program finds outside of itself is a `World`. All else is computed: the records it writes, the
reasons it gives, and its exit code.
-/

set_option autoImplicit false

namespace TupleSync.Launch

open Log

/-- What the program finds. -/
structure World where
  env : Environment
  /-- The server that the configuration speaks of. -/
  wire : Remote.Wire
  /-- What a file holds, if it can be read. -/
  file : String → Option (List UInt8)
  brokerReachable : Bool

/-- Why a start failed. -/
inductive Failure where
  | usage (e : UsageError)
  | configuration (e : ConfigError)
  | store (e : StoreError)
  | broker (config : BrokerConfig)
  | bus (e : Bus.BusError)

namespace Failure

/-- What was being done, and why it failed as far as this library has words for it. -/
def chain : Failure → List String
  | usage _ => []
  | configuration e => ["invalid authorization configuration", (StoreError.configuration e).message]
  | store (.configuration e) =>
    ["failed to initialize the authorization store", (StoreError.configuration e).message]
  | store _ => ["failed to initialize the authorization store"]
  | broker config => ["failed to connect to NATS at " ++ config.serverUrl]
  | bus _ => ["failed to start the authorization synchronizer"]

/-- A command line that only asks for help is no failure of the program. -/
def exitCode : Failure → Nat
  | usage .helpWanted => 0
  | usage _ => 2
  | _ => 1

end Failure

/-- The bus of a program that has started, with the store its handlers work on. -/
inductive Running where
  | inProcess (r : Sync.Runtime ChosenStore)
  | broker (b : Bus.Broker Unit)

/-- How records are written, and which. -/
structure Output where
  style : Style
  filter : Filter

/-- The records that are written. -/
def Output.written (o : Output) (rs : List Record) : List Record := rs.filter o.filter.passes

/-- The filter of a variable, if it has one that can be read, or the program's own. -/
def outputOf (o : Options) (env : Environment) : Output where
  style := if o.jsonOutput env then .json else .text
  filter := ((env.text? "RUST_LOG").bind Filter.parse?).getD (Filter.own o.verbose)

/-- A record of the program itself. -/
def say (message : String) (fields : List (String × Value)) : Record :=
  ⟨.info, "event_handler", message, fields⟩

def version : String := "0.1.0"

/-- Opens the synchronizer on the local bus. -/
def startInProcess (o : Options) (store : ChosenStore) : List Record × Except Failure Running :=
  let first := say "using in-process event bus" [("capacity", .number o.localCapacity)]
  match Sync.Runtime.open (.new o.localCapacity) store with
  | .error e => ([first], .error (.bus e))
  | .ok r => (first :: r.log, .ok (.inProcess { r with log := [] }))

/-- Registers the synchronizer's handlers with a broker. -/
def registerAll (b : Bus.Broker Unit) :
    Except Bus.BusError (List (Bus.BrokerHappening Unit) × Bus.Broker Unit) :=
  Sync.handlers.foldlM
    (fun (hs, b) h => do
      let (what, b) ← b.register h
      return (hs ++ [what], b))
    ([], b)

/-- Opens the synchronizer on a broker. -/
def startOnBroker (w : World) : List Record × Except Failure Running :=
  let config := BrokerConfig.ofEnvironment w.env
  let records (hs : List (Bus.BrokerHappening Unit)) : List Record :=
    hs.filterMap Bus.BrokerHappening.record?
  let opening : List (Bus.BrokerHappening Unit) := [.connecting config, .connected]
  match Bus.Broker.connect w.brokerReachable config with
  | .error _ => (records [.connecting config], .error (.broker config))
  | .ok b =>
    match (do
      let (hs, b) ← registerAll b
      let b ← b.run
      return (hs, b)) with
    | .error e => (records opening, .error (.bus e))
    | .ok (hs, b) =>
      (records (opening ++ hs) ++
        [Sync.RuntimeNotice.record (.handlersRegistered Sync.handlers.length)] ++
        records [.running b.subscriptions.length] ++ [Sync.RuntimeNotice.record .running],
        .ok (.broker b))

/-- Starts with what the command line asks for. -/
def startWith (o : Options) (w : World) : List Record × Except Failure Running :=
  let greeting := [say "Starting heureka event handler" [], say ("Version: " ++ version) []]
  match Config.ofEnvironment w.env with
  | .error e => (greeting, .error (.configuration e))
  | .ok c =>
    let greeting := greeting ++
      [say "authorization configuration loaded" [("config", .shown c.text)]]
    match ChosenStore.ofConfig c (w.file c.modelFile) w.wire with
    | (.error e, client) =>
      (greeting ++ client.log.map RemoteNotice.record, .error (.store e))
    | (.ok store, _) =>
      let (more, r) := match o.bus with
        | .inProcess => startInProcess o store
        | .broker => startOnBroker w
      (greeting ++ store.records c ++ more, r)

/-- Stops what runs. -/
def Running.stop : Running → List Record
  | .inProcess r =>
    say "shutdown signal received" [] :: r.cancel.close.log ++ [say "event handler stopped" []]
  | .broker b =>
    let hs := (b.moves? b.shutdownMoves).elim [] Prod.fst
    say "shutdown signal received" [] :: hs.filterMap Bus.BrokerHappening.record? ++
      [Sync.RuntimeNotice.record .stopped, say "event handler stopped" []]

/-- A program that was started: what it wrote, and what came of it. -/
structure Started where
  output : Output
  written : List Record
  outcome : Except Failure Running

/-- Starts the program. -/
def start (args : List String) (w : World) : Except UsageError Started := do
  let o ← CommandLine.parse args w.env
  let output := outputOf o w.env
  let (records, outcome) := startWith o w
  return ⟨output, output.written records, outcome⟩

/-- What a run of the program leaves behind. -/
structure Report where
  exitCode : Nat
  style : Style
  written : List Record
  errors : List String

/-- Runs the program; once it has started, it is told to stop. -/
def run (args : List String) (w : World) : Report :=
  match start args w with
  | .error e => ⟨(Failure.usage e).exitCode, .text, [], (Failure.usage e).chain⟩
  | .ok s =>
    match s.outcome with
    | .error f => ⟨f.exitCode, s.output.style, s.written, f.chain⟩
    | .ok r => ⟨0, s.output.style, s.written ++ s.output.written r.stop, []⟩

end TupleSync.Launch
