import MessageBroker.ByteSize
import MessageBroker.Duration
import MessageBroker.Log.Level
import MessageBroker.Net.Address

/-!
# Settings

What the broker is told when it starts: where it listens, whom it lets in, how many workers it may
start, and where it logs. Everything has a default.
-/

namespace MessageBroker

/-- Where clients are accepted. -/
structure ListenerSettings where
  name : String := "external/tcp"
  address : Net.Address := .v4 [0, 0, 0, 0] 4000
  backlog : Int := 512
  noDelay : Bool := false
  reuseAddress : Bool := true
  reusePort : Bool := false
  /-- How many connections there may be at a time; zero sets no limit. -/
  maxConnections : Nat := 0
  /-- How long a block of a frame may be; zero sets no limit. -/
  maxPacketSize : ByteSize := ⟨1048576⟩
  sendTimeout : Duration := .ofSeconds 5
deriving DecidableEq

/-- How clients are treated. -/
structure BrokerSettings where
  /-- An empty user name lets everybody in. -/
  username : String := ""
  password : String := ""
  pollTimeout : Duration := ⟨100⟩
  lockTimeout : Duration := .ofSeconds 1
  /-- How long unacknowledged messages are kept; zero keeps them for good. -/
  messageExpiry : Duration := .ofSeconds 300
  sweepInterval : Duration := .ofSeconds 10
  /-- Whether requests are answered. -/
  sendAcks : Bool := true
deriving DecidableEq

/-- Whether everybody is let in. -/
def BrokerSettings.allowsAnonymous (s : BrokerSettings) : Bool := s.username.isEmpty

/-- How work is done. -/
structure WorkerSettings where
  /-- How many workers there may be; zero sets no limit. -/
  workers : Nat := 16
  idleTimeout : Duration := .ofSeconds 60
deriving DecidableEq

/-- Where the broker logs. -/
structure LogSettings where
  target : LogTarget := .console
  level : LogLevel := .info
  directory : String := "/var/log/smq"
  file : String := "smq.log"
deriving DecidableEq

/-- Without the slashes at the end, of either kind. -/
def trimSlashes (s : String) : String :=
  String.ofList (s.toList.reverse.dropWhile fun c => c = '/' || c = '\\').reverse

/-- The path of the log file, empty if no file is named. -/
def LogSettings.path (s : LogSettings) : String :=
  if s.file.isEmpty then ""
  else if s.directory.isEmpty then s.file
  else trimSlashes s.directory ++ "/" ++ s.file

/-- What the command line asks for. -/
structure Options where
  config : Option String := none
  address : Option Net.Address := none
  workers : Option Nat := none
deriving DecidableEq

/-- Everything the broker is told. -/
structure Settings where
  listener : ListenerSettings := {}
  broker : BrokerSettings := {}
  task : WorkerSettings := {}
  log : LogSettings := {}
  options : Options := {}
deriving DecidableEq

/-- The settings as they are shown: their values are for nobody to see. -/
def Settings.label (_ : Settings) : String := "Settings ..."

/-- The settings with what the command line says put over them. -/
def Settings.withOptions (s : Settings) (o : Options) : Settings :=
  { s with
    listener := { s.listener with address := o.address.getD s.listener.address }
    task := { s.task with workers := o.workers.getD s.task.workers }
    options := o }

end MessageBroker
