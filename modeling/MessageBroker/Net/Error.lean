import MessageBroker.Duration

/-!
# Failures of streams and of the multiplexer
-/

namespace MessageBroker

/-- Why a read, a write or a registration did not go through. -/
inductive IoFailure
  | interrupted | wouldBlock | reset | timedOut | refused | unreachable
  | connectionRefused | addressInUse | notRegistered
deriving DecidableEq, Repr

def IoFailure.message : IoFailure → String
  | interrupted => "operation interrupted"
  | wouldBlock => "operation would block"
  | reset => "connection reset"
  | timedOut => "timed out"
  | refused => "refused"
  | unreachable => "Network is unreachable (os error 101)"
  | connectionRefused => "Connection refused (os error 111)"
  | addressInUse => "Address already in use (os error 98)"
  | notRegistered => "I/O source not registered with `Registry`"

/-- Failures of the transport. -/
inductive NetError
  /-- The multiplexer has been stopped. -/
  | stopped
  /-- The stream could not be put under watch. -/
  | register (cause : IoFailure)
  /-- The peer did not take the bytes in time. -/
  | writeTimeout (after : Duration)
  /-- The stream was closed, here or by the peer. -/
  | closed
  | io (cause : IoFailure)
deriving DecidableEq, Repr

def NetError.message : NetError → String
  | stopped => "Event source is stopped"
  | register cause => "Register error, " ++ cause.message
  | writeTimeout after => "Write timeout after " ++ after.toText
  | closed => "Stream is closed"
  | io cause => "io error, " ++ cause.message

end MessageBroker
