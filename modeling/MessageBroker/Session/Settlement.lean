import MessageBroker.Performative.Basic

/-!
# Settlements

What one end has to tell about deliveries, and the dispositions that tell it.  A disposition
speaks of a run of consecutive deliveries, so that neighbouring settlements that say the same are
told together.  Delivery numbers wrap.
-/

namespace MessageBroker

/-- What an end has to tell about a delivery. -/
structure Settlement where
  /-- The number of the delivery. -/
  id : UInt32
  /-- Whether the end has settled the delivery. -/
  settled : Bool
  /-- The state of the delivery at the end. -/
  state : DeliveryState
  deriving DecidableEq, Repr

namespace Settlement

/-- The disposition that tells a settlement alone. -/
def alone (role : Role) (settlement : Settlement) : Disposition where
  role
  first := settlement.id
  last := none
  settled := settlement.settled
  state := some settlement.state
  batchable := false

/-- Whether a disposition can tell a settlement too: it is of the next delivery and says the
same. -/
def follows (settlement : Settlement) (disposition : Disposition) : Bool :=
  disposition.lastId + 1 = settlement.id ∧ disposition.settled = settlement.settled ∧
    disposition.state = some settlement.state

/-- The dispositions that tell settlements after those that `disposition` tells. -/
def coalesceAfter (role : Role) (disposition : Disposition) :
    List Settlement → List Disposition
  | [] => [disposition]
  | settlement :: others =>
    if settlement.follows disposition then
      coalesceAfter role { disposition with last := some settlement.id } others
    else disposition :: coalesceAfter role (settlement.alone role) others

/-- The dispositions that tell settlements, in order. -/
def coalesce (role : Role) : List Settlement → List Disposition
  | [] => []
  | settlement :: others => coalesceAfter role (settlement.alone role) others

end Settlement

end MessageBroker
