import MessageBroker.Server
import MessageBroker.Settings.Load

/-!
# The program

The program serves one client: what the client writes comes on the standard input, what it is to
read goes to the standard output, and reports go where the settings say, to the standard error
output in place of a console. It ends when the client has gone or was shut out. Exit code 2 stands
for a command line or settings that cannot be read.
-/

namespace MessageBroker.Main

/-- How the program is called. -/
def usage : String :=
  "usage: [-f|--config <file>] [--laddr <address>] [--workers <number>]"

/-- The files in which settings may stand. -/
def settingsFiles (o : Options) : List String :=
  match o.config with
  | some name => ["smq.toml", name, name ++ ".toml"]
  | none => ["smq.toml"]

/-- The settings, section by section. -/
def fields : List (String × List String) :=
  [("LISTENER", ["NAME", "ADDR", "BACKLOG", "NODELAY", "REUSEADDR", "REUSEPORT",
      "MAX_CONNECTIONS", "MAX_PACKET_SIZE", "SEND_TIMEOUT"]),
    ("BROKER", ["USERNAME", "PASSWORD", "POLL_TIMEOUT", "LOCK_TIMEOUT", "MESSAGE_EXPIRY",
      "STORE_SWEEP_INTERVAL", "SEND_ACKS"]),
    ("TASK", ["WORKERS", "IDLE_TIMEOUT"]),
    ("LOG", ["TO", "LEVEL", "DIR", "FILE"])]

/-- The variables of the environment that set something. -/
def variableNames : List String :=
  fields.flatMap fun e => e.2.map fun field => "SMQ_" ++ e.1 ++ "__" ++ field

/-- The number of the only client. -/
def client : ConnectionId := 1

/-- Something happens to the client's stream: what the broker writes to the client, whether the
client is still served, what is to be reported, and the server afterwards. -/
def attend (s : Server) (change : Net.Stream → Net.Stream) :
    Bytes × Bool × List Notice × Server :=
  let b := ((s.broker.modifyStream client change).signal client .readable).settle
  let stream := ((b.connection? client).map Connection.stream <|> b.departed.get? client).getD {}
  let b' := { b.modifyStream client (fun s => s.collect.2) with notices := [] }
  (stream.collect.1, (b.connection? client).isSome, b.notices, { s with broker := b' })

/-- The level under which a notice is logged. -/
def levelOf (n : Notice) : LogLevel :=
  match n.urgency with
  | .info => .info
  | .warning => .warning

/-- The lines to log about notices. -/
def reports (log : LogSettings) (notices : List Notice) : List String :=
  (notices.filter fun n => (levelOf n).passes log.level).map Notice.line

def readFile? (name : String) : IO (Option (String × String)) := do
  try
    return some (name, ← IO.FS.readFile name)
  catch _ => return none

def readVariable? (name : String) : IO (Option (String × String)) := do
  return (← IO.getEnv name).map fun value => (name, value)

/-- Writes lines where the log goes. -/
def writeLog (log : LogSettings) (lines : List String) : IO Unit := do
  if log.target.toConsole then
    for line in lines do IO.eprintln line
  if log.target.toFile && !lines.isEmpty then
    let file ← IO.FS.Handle.mk log.path .append
    for line in lines do file.putStrLn line

/-- Serves the client until it has gone. -/
partial def serve (s : Server) (input output : IO.FS.Stream) : IO Unit := do
  let chunk ← input.read 8192
  let change := fun (stream : Net.Stream) =>
    if chunk.isEmpty then { stream with ended := true } else stream.feed chunk.toList
  let (bytes, served, notices, s) := attend s change
  writeLog s.broker.settings.log (reports s.broker.settings.log notices)
  output.write ⟨bytes.toArray⟩
  output.flush
  if served then serve s input output

end MessageBroker.Main

open MessageBroker MessageBroker.Main in
def main (args : List String) : IO UInt32 := do
  match MessageBroker.Options.read args with
  | .error .helpRequested =>
    IO.println usage
    return 0
  | .error _ =>
    IO.eprintln usage
    return 2
  | .ok options =>
    let files ← (settingsFiles options).filterMapM readFile?
    let environment ← variableNames.filterMapM readVariable?
    match Settings.load files environment options with
    | .error _ =>
      IO.eprintln "settings init failed"
      return 2
    | .ok settings =>
      match Server.start settings (Int64.ofNat (← IO.monoMsNow)) (.ok ()) with
      | .error e =>
        IO.eprintln ("start failed: " ++ e.message)
        return 1
      | .ok server =>
        let (_, server) := server.accept {}
        serve server (← IO.getStdin) (← IO.getStdout)
        return 0
