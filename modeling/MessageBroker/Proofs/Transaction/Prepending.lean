import MessageBroker.Proofs.Operation
import MessageBroker.Proofs.Transaction.Ledger
import MessageBroker.Session.Handling

/-!
# Work recorded earlier

What a session does is all the same whether a transaction has recorded work before or not, until
the transaction ends: the earlier work stays in front of what is recorded then, and has no effect
on anything else.  So every operation commutes with putting work in front of that of a
transaction, except its end.
-/

namespace MessageBroker

/-! ### Ledgers -/

namespace Ledger

/-- Puts work in front of that of a transaction. -/
def prepend (id : Bytes) (work : List Work) (ledger : Ledger) : Ledger :=
  ledger.onWork id (work ++ ·)

variable {id : Bytes} {work : List Work} {ledger : Ledger}

theorem contains_prepend (other : Bytes) :
  (ledger.prepend id work).contains other = ledger.contains other
  := by
  rw [contains, contains, prepend, find?_onWork, Option.isSome_map]

/-- Work is recorded behind the earlier work. -/
theorem record_prepend (other : Bytes) (more : Work) :
  (ledger.prepend id work).record other more = (ledger.record other more).map (prepend id work)
  := by
  rw [record, record, contains_prepend]
  split
  · change Except.ok ((ledger.onWork id (work ++ ·)).onWork other (· ++ [more]))
      = Except.ok ((ledger.onWork other (· ++ [more])).onWork id (work ++ ·))
    simp only [onWork, List.map_map]
    congr 2
    apply List.map_congr_left
    intro transaction _
    by_cases hother : transaction.id = other
    · subst hother
      by_cases hid : transaction.id = id
      · simp [hid]
      · simp [hid]
    · by_cases hid : transaction.id = id
      · subst hid
        simp [hother]
      · simp [hid, hother]
  · rfl

/-- A transaction of another name is declared beside the one with earlier work. -/
theorem declare_prepend (h : ledger.declare.1 ≠ id) :
  (ledger.prepend id work).declare = (ledger.declare.1, ledger.declare.2.prepend id work)
  := by
  have hremove := remove_onWork id (work ++ ·) ledger ledger.declare.1
  have hopened : (ledger.prepend id work).declare.2.opened
      = (ledger.declare.2.prepend id work).opened := by
    change ((ledger.onWork id (work ++ ·)).remove ledger.declare.1).opened ++ _ = _
    rw [hremove]
    have hname : bigEndian 4 (ledger.lastId + 1).toNat ≠ id := h
    simp only [prepend, onWork, declare, List.map_append, List.map_cons, List.map_nil]
    rw [if_neg hname]
  exact Prod.ext rfl (congrArg (Ledger.mk (ledger.lastId + 1)) hopened)

/-- The end of a transaction of another name leaves the earlier work where it is. -/
theorem discharge_prepend {other : Bytes} (h : other ≠ id) (store : QueueStore) (fail : Bool) :
  (ledger.prepend id work).discharge store other fail
    = (ledger.discharge store other fail).map fun (summary, ledger, store) =>
        (summary, ledger.prepend id work, store)
  := by
  rw [discharge, discharge, prepend, find?_onWork]
  cases ledger.find? other with
  | none => rfl
  | some transaction =>
      rw [Option.map_some, if_neg h, remove_onWork]
      rfl

end Ledger

end MessageBroker
