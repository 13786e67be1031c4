import MessageBroker.Fault.Report
import MessageBroker.Table
import MessageBroker.Text.Quoted

/-!
# Unsettled deliveries

The deliveries of a link that are not settled, by tag and by number.  A tag may not be used again
before the delivery that carries it is settled.
-/

namespace MessageBroker

/-- The unsettled deliveries of a link. -/
structure Unsettled where
  /-- The number of the delivery that carries a tag. -/
  byTag : List (Bytes × UInt32)
  /-- The tag that a delivery carries. -/
  byId : Table UInt32 Bytes
  deriving DecidableEq, Repr

namespace Unsettled

/-- No deliveries. -/
def empty : Unsettled :=
  ⟨[], []⟩

/-- Whether a delivery carries a tag. -/
def hasTag (unsettled : Unsettled) (tag : Bytes) : Bool :=
  unsettled.byTag.any fun row => row.1 = tag

/-- Whether a delivery is unsettled. -/
def hasId (unsettled : Unsettled) (id : UInt32) : Bool :=
  unsettled.byId.has id

/-- The numbers of the deliveries, in ascending order. -/
def ids (unsettled : Unsettled) : List UInt32 :=
  unsettled.byId.keys

/-- Adds a delivery; no other may carry its tag. -/
def insert (unsettled : Unsettled) (tag : Bytes) (id : UInt32) : Except ErrorReport Unsettled :=
  if unsettled.hasTag tag then
    .error (.of .illegalState
      ("delivery-tag " ++ quotedBytes tag ++ " is already in use by an unsettled delivery"))
  else .ok ⟨unsettled.byTag ++ [(tag, id)], unsettled.byId.put id tag⟩

/-- Settles a delivery; gives the tag that it carried. -/
def settle (unsettled : Unsettled) (id : UInt32) : Option Bytes × Unsettled :=
  match unsettled.byId.get? id with
  | some tag =>
    (some tag, ⟨unsettled.byTag.filter fun row => row.1 ≠ tag, unsettled.byId.erase id⟩)
  | none => (none, unsettled)

end Unsettled

end MessageBroker
