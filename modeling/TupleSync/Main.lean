import TupleSync.Launch.Program

/-!
# The command

Starts the program on the process's arguments and environment, writes its records to standard output, and
stops it at the end of standard input. There is no network in here: every server is out of reach.
-/

set_option autoImplicit false

namespace TupleSync.Main

open Launch

/-- The variables that the program looks at. -/
def variableNames : List String :=
  ["AUTHZ_ENABLED", "AUTHZ_FGA_API_URL", "AUTHZ_FGA_API_TOKEN", "AUTHZ_FGA_STORE_NAME",
   "AUTHZ_FGA_STORE_ID", "AUTHZ_FGA_MODEL_ID", "AUTHZ_MODEL_FILE_PATH",
   "AUTHZ_REQUEST_TIMEOUT_SECONDS", "AUTHZ_PAGE_SIZE", "AUTHZ_MAX_TUPLES_PER_WRITE",
   "NATS_URL", "NATS_QUEUE_GROUP", "NATS_CLIENT_NAME", "NATS_CONNECTION_TIMEOUT_SECONDS",
   "EVENT_BUS", "LOCAL_BUS_CAPACITY", "LOG_FORMAT", "RUST_LOG"]

/-- Reads the environment. -/
def environment : IO Environment := do
  let found ← variableNames.filterMapM fun name => do
    return (← IO.getEnv name).map fun value => (name, value.toUTF8.toList)
  return ⟨found⟩

/-- Writes records, one a line. -/
def write (style : Log.Style) (records : List Log.Record) : IO Unit := do
  let out ← IO.getStdout
  for r in records do
    let line := match style with
      | .text => r.line.toUTF8.toList
      | .json => r.json.bytes
    out.write ⟨(line ++ [10]).toArray⟩
  out.flush

/-- Waits for the end of standard input. -/
partial def waitForEnd (input : IO.FS.Stream) : IO Unit := do
  if (← input.getLine).isEmpty then return
  waitForEnd input

/-- Says why the program failed. -/
def complain : List String → IO Unit
  | [] => return
  | reason :: causes => do
    IO.eprintln ("Error: " ++ reason)
    unless causes.isEmpty do
      IO.eprintln "\nCaused by:"
      for c in causes do
        IO.eprintln ("    " ++ c)

/-- Runs the program and gives its exit code. -/
def run (args : List String) : IO Nat := do
  let world : World := ⟨← environment, .unreachable, fun _ => none, false⟩
  match start args world with
  | .error e => return (Failure.usage e).exitCode
  | .ok s =>
    write s.output.style s.written
    match s.outcome with
    | .error f =>
      complain f.chain
      return f.exitCode
    | .ok r =>
      waitForEnd (← IO.getStdin)
      write s.output.style (s.output.written r.stop)
      return 0

end TupleSync.Main

def main (args : List String) : IO UInt32 := do
  return (← TupleSync.Main.run args).toUInt32
