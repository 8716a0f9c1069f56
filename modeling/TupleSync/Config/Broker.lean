import TupleSync.Config.Environment

/-!
# The configuration of the broker

**No value of a broker's configuration is ever refused**: a text is taken as it is, blanks and all, and a
timeout that is no number is the default.
-/

set_option autoImplicit false

namespace TupleSync

/-- Where the broker is and how to join it. -/
structure BrokerConfig where
  serverUrl : String
  /-- The group among whose members each message goes to one. -/
  queueGroup : String
  clientName : String
  /-- In seconds. -/
  connectionTimeout : Nat
  deriving Repr, DecidableEq

namespace BrokerConfig

def default : BrokerConfig :=
  ⟨"nats://localhost:4222", "heureka-core", "heureka-event-handler", 10⟩

/-- Reads a configuration from the environment. -/
def ofEnvironment (env : Environment) : BrokerConfig where
  serverUrl := (env.text? "NATS_URL").getD default.serverUrl
  queueGroup := (env.text? "NATS_QUEUE_GROUP").getD default.queueGroup
  clientName := (env.text? "NATS_CLIENT_NAME").getD default.clientName
  connectionTimeout :=
    ((env.text? "NATS_CONNECTION_TIMEOUT_SECONDS").bind (Text.natBelow? UInt64.size)).getD
      default.connectionTimeout

end BrokerConfig

end TupleSync
