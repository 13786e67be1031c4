/-!
# Redelivery policies

How often a message may be given back before its queue gives it up, and where it goes then.
-/

namespace MessageBroker

/-- What a queue does with messages that are given back. -/
structure RedeliveryPolicy where
  /-- How many attempts a message has; zero stands for any number. -/
  maxAttempts : UInt32
  /-- The queue that messages without further attempts go to. -/
  alternate : Option String
  deriving DecidableEq, Repr

/-- What becomes of a message that is given back. -/
inductive RedeliveryDecision where
  /-- It takes its place again. -/
  | requeue
  /-- It goes to another queue. -/
  | deadLetter (destination : String)
  /-- It is dropped. -/
  | discard
  deriving DecidableEq, Repr

namespace RedeliveryPolicy

/-- Messages may be given back any number of times. -/
def unlimited : RedeliveryPolicy :=
  ⟨0, none⟩

/-- Whether a message with this many failed attempts has no further one. -/
def isExhausted (policy : RedeliveryPolicy) (attempts : Nat) : Bool :=
  policy.maxAttempts ≠ 0 ∧ policy.maxAttempts.toNat ≤ attempts

/-- What becomes of a message with this many failed attempts. -/
def decide (policy : RedeliveryPolicy) (attempts : Nat) : RedeliveryDecision :=
  if policy.isExhausted attempts then
    match policy.alternate with
    | some destination => .deadLetter destination
    | none => .discard
  else .requeue

end RedeliveryPolicy

end MessageBroker
