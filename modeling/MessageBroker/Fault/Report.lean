import MessageBroker.Symbol

/-!
# Error reports

An error as it is reported to a peer: a condition, which is a symbol, and optionally a
description.  `Condition` lists the conditions that the broker itself reports.
-/

namespace MessageBroker

/-- The conditions that the broker reports. -/
inductive Condition where
  | decodeError
  | invalidField
  | illegalState
  | notFound
  | notImplemented
  | preconditionFailed
  | internalError
  | resourceLimitExceeded
  | framingError
  | unattachedHandle
  | handleInUse
  | windowViolation
  | messageSizeExceeded
  | transferLimitExceeded
  | detachForced
  | unknownId
  | transactionRollback
  deriving DecidableEq, Repr

namespace Condition

/-- The name of a condition on the wire. -/
def name : Condition → String
  | .decodeError => "amqp:decode-error"
  | .invalidField => "amqp:invalid-field"
  | .illegalState => "amqp:illegal-state"
  | .notFound => "amqp:not-found"
  | .notImplemented => "amqp:not-implemented"
  | .preconditionFailed => "amqp:precondition-failed"
  | .internalError => "amqp:internal-error"
  | .resourceLimitExceeded => "amqp:resource-limit-exceeded"
  | .framingError => "amqp:connection:framing-error"
  | .unattachedHandle => "amqp:session:unattached-handle"
  | .handleInUse => "amqp:session:handle-in-use"
  | .windowViolation => "amqp:session:window-violation"
  | .messageSizeExceeded => "amqp:link:message-size-exceeded"
  | .transferLimitExceeded => "amqp:link:transfer-limit-exceeded"
  | .detachForced => "amqp:link:detach-forced"
  | .unknownId => "amqp:transaction:unknown-id"
  | .transactionRollback => "amqp:transaction:rollback"

/-- The symbol of a condition. -/
def symbol (condition : Condition) : Symbol :=
  ⟨condition.name⟩

/-- Every condition. -/
def all : List Condition :=
  [.decodeError, .invalidField, .illegalState, .notFound, .notImplemented, .preconditionFailed,
    .internalError, .resourceLimitExceeded, .framingError, .unattachedHandle, .handleInUse,
    .windowViolation, .messageSizeExceeded, .transferLimitExceeded, .detachForced, .unknownId,
    .transactionRollback]

theorem mem_all (condition : Condition) :
  condition ∈ all
  := by
  cases condition <;> simp [all]

end Condition

/-- An error as it is reported to a peer. -/
structure ErrorReport where
  /-- What kind of error it is. -/
  condition : Symbol
  /-- What happened, for a human reader. -/
  description : Option String
  deriving DecidableEq, Repr

namespace ErrorReport

/-- The report of a condition of the broker with a description. -/
def of (condition : Condition) (description : String) : ErrorReport :=
  ⟨condition.symbol, some description⟩

/-- The report of a condition of the broker without a description. -/
def bare (condition : Condition) : ErrorReport :=
  ⟨condition.symbol, none⟩

/-- Whether a report has the given condition. -/
def is (report : ErrorReport) (condition : Condition) : Bool :=
  report.condition = condition.symbol

/-- The report in one line. -/
def message (report : ErrorReport) : String :=
  match report.description with
  | some description => report.condition.text ++ ": " ++ description
  | none => report.condition.text

end ErrorReport

end MessageBroker
