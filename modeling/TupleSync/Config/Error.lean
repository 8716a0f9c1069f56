/-!
# What can be wrong with a configuration

Every fault of a configuration, and the words it is reported in.
-/

set_option autoImplicit false

namespace TupleSync

inductive ConfigError where
  /-- A variable that should say yes or no. -/
  | notBoolean (name raw : String)
  /-- A variable that should hold a whole number in range. -/
  | notNumber (name raw : String)
  | zeroPageSize
  | zeroChunk
  /-- Enforcement is asked for, but there is no server to ask. -/
  | endpointMissing
  /-- The token cannot be sent. -/
  | tokenUnsendable
  deriving Repr, DecidableEq

/-- The fault in words. -/
def ConfigError.message : ConfigError → String
  | .notBoolean name raw => name ++ " must be a boolean, got " ++ raw
  | .notNumber name raw => name ++ " has an invalid value: " ++ raw
  | .zeroPageSize => "AUTHZ_PAGE_SIZE must be positive"
  | .zeroChunk => "AUTHZ_MAX_TUPLES_PER_WRITE must be positive"
  | .endpointMissing => "AUTHZ_FGA_API_URL is required when AUTHZ_ENABLED is set"
  | .tokenUnsendable => "API token is not a valid header value"

end TupleSync
