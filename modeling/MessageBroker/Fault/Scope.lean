import MessageBroker.Fault.Decoding
import MessageBroker.Fault.Report

/-!
# Faults

What can go wrong in a broker, by the scope it concerns: a link, a session, a connection, or the
configuration before there is any of them.  The scope of a fault decides which of them is ended.
-/

namespace MessageBroker

/-- Why a configuration is refused. -/
inductive ConfigError where
  /-- Frames may not be limited to fewer octets than `least`. -/
  | frameSizeBelow (size least : Nat)
  /-- A session with no incoming window could receive nothing. -/
  | zeroWindow
  /-- A link without credit could receive nothing. -/
  | zeroCredit
  /-- Two queues of the configuration share a name. -/
  | duplicateQueue (name : String)
  /-- The alternate of a queue is not a queue of the configuration. -/
  | unknownAlternate (name destination : String)
  /-- A queue of this name exists. -/
  | queueExists (name : String)
  deriving DecidableEq, Repr

/-- The report of a configuration error. -/
def ConfigError.message : ConfigError → String
  | .frameSizeBelow size least => s!"maxFrameSize {size} is below the minimum {least}"
  | .zeroWindow => "sessionIncomingWindow must be positive"
  | .zeroCredit => "linkCredit must be positive"
  | .duplicateQueue name => s!"queue '{name}' is declared twice"
  | .unknownAlternate name destination =>
    s!"queue '{name}' has unknown alternate '{destination}'"
  | .queueExists name => s!"queue '{name}' already exists"

/-- What went wrong, by the scope it concerns. -/
inductive Fault where
  /-- Data from the peer could not be decoded. -/
  | decode (error : DecodeError)
  /-- The connection has to be closed. -/
  | connection (report : ErrorReport)
  /-- The session has to be ended. -/
  | session (report : ErrorReport)
  /-- The link with this handle has to be detached. -/
  | link (handle : UInt32) (report : ErrorReport)
  /-- A delivery was to be sent on a link that has no credit. -/
  | noCredit (handle : UInt32)
  /-- The text of a configuration is not well formed. -/
  | json
  /-- A configuration is refused. -/
  | config (error : ConfigError)
  deriving DecidableEq, Repr

namespace Fault

/-- A fault of the connection, described. -/
def onConnection (condition : Condition) (description : String) : Fault :=
  .connection (.of condition description)

/-- A fault of the session, described. -/
def onSession (condition : Condition) (description : String) : Fault :=
  .session (.of condition description)

/-- A fault of a link, described. -/
def onLink (handle : UInt32) (condition : Condition) (description : String) : Fault :=
  .link handle (.of condition description)

/-- The report of a fault. -/
def message : Fault → String
  | .decode error => "decode error: " ++ error.message
  | .connection report => "connection error: " ++ report.message
  | .session report => "session error: " ++ report.message
  | .link handle report => s!"link {handle} error: " ++ report.message
  | .noCredit handle => s!"link {handle} has no credit"
  | .json => "malformed configuration text"
  | .config error => "configuration error: " ++ error.message

end Fault

end MessageBroker
