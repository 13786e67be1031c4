import MessageBroker.Fault.Scope

/-!
# Link credit

The receiver of a link lets its sender send so many deliveries more: the sender's credit.  Every
flow states the credit anew, counted from a delivery count of the sender that may be out of date
when the flow arrives.  Delivery counts are serial numbers and wrap.
-/

namespace MessageBroker

/-- The credit of a link, at one of its ends. -/
structure LinkCredit where
  /-- How many deliveries the end has sent or received. -/
  deliveryCount : UInt32
  /-- How many more deliveries may be sent. -/
  credit : UInt32
  /-- The credit that the receiver granted last. -/
  issued : UInt32
  /-- Whether the receiver wants the credit used up or given back. -/
  drain : Bool
  deriving DecidableEq, Repr

namespace LinkCredit

/-- No credit, at the given delivery count. -/
def start (deliveryCount : UInt32) : LinkCredit :=
  ⟨deliveryCount, 0, 0, false⟩

/-- Whether a delivery may be sent. -/
def maySend (c : LinkCredit) : Bool :=
  c.credit ≠ 0

/-! ### At the sender -/

/-- What is left of `linkCredit`, granted at delivery count `reference`, at delivery count
`deliveryCount`: nothing if more than all of it was used. -/
def remaining (reference linkCredit deliveryCount : UInt32) : UInt32 :=
  let credit := reference + linkCredit - deliveryCount
  if credit > linkCredit then 0 else credit

/-- Takes a flow from the receiver.  A flow without a delivery count refers to the count zero. -/
def onFlow (c : LinkCredit) (reference : Option UInt32) (linkCredit : UInt32) (drain : Bool) :
    LinkCredit :=
  { c with credit := remaining (reference.getD 0) linkCredit c.deliveryCount, drain }

/-- The credit after one more delivery. -/
def spend (c : LinkCredit) : LinkCredit :=
  { c with credit := c.credit - 1, deliveryCount := c.deliveryCount + 1 }

/-- Sends a delivery on the link with the given handle. -/
def consume (c : LinkCredit) (handle : UInt32) : Except Fault LinkCredit :=
  if c.maySend then .ok c.spend else .error (.noCredit handle)

/-- Gives back the credit that is left, if the receiver wants that: the delivery count goes on as
if it had been used.  Tells whether there was credit to give back. -/
def giveBack (c : LinkCredit) : Bool × LinkCredit :=
  if c.drain && c.maySend then
    (true, { c with deliveryCount := c.deliveryCount + c.credit, credit := 0 })
  else (false, c)

/-! ### At the receiver -/

/-- Grants credit, in place of what is left. -/
def grant (c : LinkCredit) (credit : UInt32) : LinkCredit :=
  { c with credit, issued := credit }

/-- Receives a delivery on the link with the given handle. -/
def onTransfer (c : LinkCredit) (handle : UInt32) : Except Fault LinkCredit :=
  if c.maySend then .ok c.spend
  else
    .error (.onLink handle .transferLimitExceeded "transfer received without link credit")

/-- Whether at most half of the credit granted last is left. -/
def needsReplenish (c : LinkCredit) : Bool :=
  c.issued ≠ 0 ∧ c.credit ≤ c.issued / 2

end LinkCredit

end MessageBroker
