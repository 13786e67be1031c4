import MessageBroker.Queue.Store
import MessageBroker.Text.Hex

/-!
# Ledgers of transactions

A ledger lists the open transactions of a session, each with the work to be done at its end.  The
name of a transaction is a number of four octets, counted up from one; a transaction that has
ended is forgotten.  In success the work is done in the order it was recorded; in failure messages
to be put into queues are dropped, and messages to be taken out are given back as failed.
-/

namespace MessageBroker

/-- Work to be done at the end of a transaction. -/
inductive Work where
  /-- A message is put into a queue. -/
  | enqueue (queue : QueueId) (payload : Bytes)
  /-- A held message is taken out of its queue. -/
  | dequeue (queue : QueueId) (entry : Nat)
  deriving DecidableEq, Repr

/-- An open transaction. -/
structure Transaction where
  /-- The name. -/
  id : Bytes
  /-- The work recorded, in order. -/
  work : List Work
  deriving DecidableEq, Repr

/-- The open transactions of a session. -/
structure Ledger where
  /-- The number of the transaction declared last. -/
  lastId : UInt32
  /-- The open transactions, in the order they were declared. -/
  opened : List Transaction
  deriving DecidableEq, Repr

/-- What was done at the end of a transaction. -/
structure DischargeSummary where
  /-- Whether the transaction succeeded. -/
  committed : Bool
  /-- The number of messages that were to be put into queues. -/
  enqueues : Nat
  /-- The number of messages that were to be taken out of queues. -/
  dequeues : Nat
  deriving DecidableEq, Repr

namespace Ledger

/-- A ledger without transactions. -/
def empty : Ledger :=
  ⟨0, []⟩

/-- The report that a transaction is not open. -/
def unknown (id : Bytes) : ErrorReport :=
  .of .unknownId
    ("unknown transaction id [" ++ ", ".intercalate (id.map fun octet => hexDigits 2 octet.toNat)
      ++ "]")

/-- The open transaction with a name. -/
def find? (ledger : Ledger) (id : Bytes) : Option Transaction :=
  ledger.opened.find? fun transaction => transaction.id = id

/-- Whether a transaction is open. -/
def contains (ledger : Ledger) (id : Bytes) : Bool :=
  (ledger.find? id).isSome

/-- Forgets a transaction. -/
def remove (ledger : Ledger) (id : Bytes) : Ledger :=
  { ledger with opened := ledger.opened.filter fun transaction => transaction.id ≠ id }

/-- Opens a transaction; gives its name. -/
def declare (ledger : Ledger) : Bytes × Ledger :=
  let lastId := ledger.lastId + 1
  let id := bigEndian 4 lastId.toNat
  (id, ⟨lastId, (ledger.remove id).opened ++ [⟨id, []⟩]⟩)

/-- Records work in a transaction. -/
def record (ledger : Ledger) (id : Bytes) (work : Work) : Except ErrorReport Ledger :=
  if ledger.contains id then
    .ok { ledger with
      opened := ledger.opened.map fun transaction =>
        if transaction.id = id then { transaction with work := transaction.work ++ [work] }
        else transaction }
  else .error (unknown id)

/-! ### Ends of transactions -/

/-- Does a piece of work. -/
def perform (store : QueueStore) : Work → QueueStore
  | .enqueue queue payload => (store.enqueue queue payload).2
  | .dequeue queue entry => (store.acknowledge queue entry).2

/-- Undoes a piece of work. -/
def revert (store : QueueStore) : Work → QueueStore
  | .enqueue _ _ => store
  | .dequeue queue entry => (store.release queue entry true).2

/-- Does or undoes the work of a transaction, in the order it was recorded. -/
def settle (fail : Bool) (work : List Work) (store : QueueStore) : QueueStore :=
  work.foldl (if fail then revert else perform) store

/-- What is done at the end of a transaction with the given work. -/
def summary (fail : Bool) (work : List Work) : DischargeSummary :=
  { committed := !fail
    enqueues := work.countP fun
      | .enqueue _ _ => true
      | .dequeue _ _ => false
    dequeues := work.countP fun
      | .enqueue _ _ => false
      | .dequeue _ _ => true }

/-- Ends a transaction, in failure or else in success. -/
def discharge (ledger : Ledger) (store : QueueStore) (id : Bytes) (fail : Bool) :
    Except ErrorReport (DischargeSummary × Ledger × QueueStore) :=
  match ledger.find? id with
  | some transaction =>
    .ok (summary fail transaction.work, ledger.remove id, settle fail transaction.work store)
  | none => .error (unknown id)

/-- Ends every transaction in failure. -/
def rollbackAll (ledger : Ledger) (store : QueueStore) : Ledger × QueueStore :=
  ({ ledger with opened := [] },
    ledger.opened.foldl (fun store transaction => settle true transaction.work store) store)

end Ledger

end MessageBroker
