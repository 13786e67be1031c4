import MessageBroker.Proofs.Session.Recording
import MessageBroker.Proofs.World.Links
import MessageBroker.Proofs.World.Prepending

/-!
# Open transactions lie by

Whatever happens in a world while a transaction is open happens as if it had no work, and the
messages that it is to take out stay held.  At its end all of its work is done or undone, and
while the names last none is given to two transactions of a session.
-/

namespace MessageBroker

open Session

namespace Ledger

/-- A transaction that has ended is not found again. -/
theorem find?_remove_self (ledger : Ledger) (id : Bytes) :
  (ledger.remove id).find? id = none
  := by
  rw [find?_remove, if_pos rfl]

/-- A ledger without the work of one of its transactions. -/
def without (id : Bytes) (ledger : Ledger) : Ledger :=
  ledger.onWork id fun _ => []

variable {ledger : Ledger} {id : Bytes} {transaction : Transaction}

theorem Distinct.without (distinct : ledger.Distinct) (id : Bytes) :
  (ledger.without id).Distinct
  := distinct.onWork id _

/-- The work of a transaction may be put back. -/
theorem Distinct.prepend_without (distinct : ledger.Distinct)
    (found : ledger.find? id = some transaction) :
  (ledger.without id).prepend id transaction.work = ledger
  := by
  rw [prepend, Ledger.without, onWork_onWork]
  have hopened : (ledger.onWork id fun _ => transaction.work ++ []).opened = ledger.opened := by
    apply Eq.trans (List.map_congr_left _) (List.map_id _)
    intro other hmem
    split
    · next hid =>
        have hother := distinct.find?_of_mem hmem
        rw [hid, found] at hother
        rw [← Option.some.inj hother, List.append_nil]
        rfl
    · rfl
  exact congrArg (Ledger.mk ledger.lastId) hopened

/-- Without its work a transaction holds nothing. -/
theorem Distinct.places_without (distinct : ledger.Distinct)
    (found : ledger.find? id = some transaction) :
  ledger.places = transaction.places + (ledger.without id).places
  := by
  have hfound : (ledger.without id).find? id = some { transaction with work := [] } := by
    rw [Ledger.without, find?_onWork, found, Option.map_some, if_pos rfl]
  have hremove : (ledger.without id).remove id = ledger.remove id := by
    rw [Ledger.without, remove_onWork]
    exact onWork_of_none (find?_remove_self ledger id) _
  rw [distinct.places_eq found, (distinct.without id).places_eq hfound, hremove]
  congr 1
  exact (zero_add _).symm

end Ledger

namespace Session.Act

/-- A transaction comes to its end only if it is discharged or its session ends. -/
theorem contains_run {id : Bytes} {act : Session.Act} {s : Serving}
    (opened : s.session.transactions.contains id = true) (lasts : act ≠ .finish)
    (undischarged : ∀ p payload fail, act = .handle p payload →
      s.session.control? p payload ≠ some (.discharge id fail)) :
  (act.run s).2.session.transactions.contains id = true
  := by
  cases act with
  | handle p payload =>
      exact Operation.contains_handle opened fun fail => undischarged p payload fail rfl
  | pumpAll =>
      change s.pumpAll.session.transactions.contains id = true
      rw [Operation.transactions_pumpAll]
      exact opened
  | recover =>
      change (Serving.pumpAll _).session.transactions.contains id = true
      rw [Operation.transactions_pumpAll]
      exact opened
  | finish => exact absurd rfl lasts
  | takeOutput => exact opened

end Session.Act

namespace World

variable {outside : Multiset Place} {world : World} {index : Nat} {id : Bytes}
  {transaction : Transaction}

/-! ### Worlds without the work of a transaction -/

/-- A world without the work of an open transaction. -/
def without (world : World) (index : Nat) (id : Bytes) : World :=
  world.onLedger index (Ledger.without id)

theorem onLedger_of_getElem? {member : Member} (h : world.members[index]? = some member)
    (change : Ledger → Ledger) :
  world.onLedger index change
    = { world with members := world.members.set index (member.onLedger change) }
  := by
  obtain ⟨hlt, hget⟩ := List.getElem?_eq_some_iff.mp h
  rw [onLedger, List.modify_eq_set_getElem?, h]
  rfl

theorem id_of_transaction? (opened : world.transaction? index id = some transaction) :
  transaction.id = id
  := by
  obtain ⟨member, -, hfind⟩ := transaction?_eq_some_iff.mp opened
  exact Ledger.id_of_find? hfind

/-- The work of a transaction may be put back into its world. -/
theorem Orderly.prepend_without (orderly : Orderly outside world)
    (opened : world.transaction? index id = some transaction) :
  (world.without index id).onLedger index (Ledger.prepend id transaction.work) = world
  := by
  obtain ⟨member, hget, hfind⟩ := transaction?_eq_some_iff.mp opened
  obtain ⟨hlt, -⟩ := List.getElem?_eq_some_iff.mp hget
  have hledger := (orderly.accounted member (List.mem_of_getElem? hget)).sound.distinct
  have hmember : (member.onLedger (Ledger.without id)).onLedger
      (Ledger.prepend id transaction.work) = member := by
    have hback := hledger.prepend_without hfind
    simp only [Member.onLedger, Session.onLedger, hback]
  have hwithout : (world.without index id).members[index]?
      = some (member.onLedger (Ledger.without id)) := by
    rw [without, onLedger_of_getElem? hget]
    simp [hlt]
  rw [onLedger_of_getElem? hwithout, hmember, without, onLedger_of_getElem? hget, List.set_set]
  have hset := List.set_getElem_self hlt
  rw [(List.getElem?_eq_some_iff.mp hget).2] at hset
  rw [hset]

/-- Without the work of a transaction the messages that it holds are held outside the world. -/
theorem Orderly.without (orderly : Orderly outside world)
    (opened : world.transaction? index id = some transaction) :
  Orderly (transaction.places + outside) (world.without index id)
  := by
  obtain ⟨member, hget, hfind⟩ := transaction?_eq_some_iff.mp opened
  obtain ⟨hlt, -⟩ := List.getElem?_eq_some_iff.mp hget
  have hledger := (orderly.accounted member (List.mem_of_getElem? hget)).sound.distinct
  have hplaces : world.places = transaction.places + (world.without index id).places := by
    rw [World.without, onLedger_of_getElem? hget, places, places, placesOfSessions,
      placesOfSessions, sum_set _ hlt, sum_eq_of_getElem? _ hget]
    change unsettledPlaces _ + member.session.transactions.places + _ + _
      = transaction.places + (unsettledPlaces _ + (member.session.transactions.without id).places
        + _ + _)
    rw [hledger.places_without hfind]
    simp only [Member.onLedger, Session.onLedger, placesOfConsumers]
    simp only [add_left_comm, add_assoc]
  constructor
  · have hcustody := orderly.inCustody
    rw [hplaces, add_assoc, add_left_comm] at hcustody
    exact hcustody
  · intro other hmem
    rw [World.without, onLedger_of_getElem? hget] at hmem
    rcases List.mem_or_eq_of_mem_set hmem with hold | rfl
    · exact orderly.accounted other hold
    · have accounted := orderly.accounted member (List.mem_of_getElem? hget)
      refine ⟨⟨accounted.sound.sorted, hledger.without id⟩, fun hbound => ?_, fun hbound => ?_⟩
      · have hsends := accounted.sends hbound
        exact ⟨hsends.nextDeliveryId, hsends.given⟩
      · exact (accounted.numbered hbound).onWork id fun _ => []

/-! ### Runs while a transaction is open -/

/-- Of the actions of a run, none ends a transaction of a session. -/
def Lasts (index : Nat) (id : Bytes) : World → List Action → Prop
  | _, [] => True
  | world, action :: actions =>
    ¬ action.Ends world index id ∧ Lasts index id (world.step action) actions

/-- Whether a transaction is spared does not depend on its work. -/
theorem spares_of_prepend {work : List Work} {action : Action}
    (h : action.Spares (world.onLedger index (Ledger.prepend id work)) index id) :
  action.Spares world index id
  := by
  cases action with
  | serve other act =>
      rintro rfl member hget
      have hprepend : (world.onLedger other (Ledger.prepend id work)).members[other]?
          = some (member.onLedger (Ledger.prepend id work)) := by
        rw [onLedger_of_getElem? hget]
        simp [(List.getElem?_eq_some_iff.mp hget).1]
      have hspares := h rfl _ hprepend
      cases act with
      | handle p payload =>
          intro control hcontrol
          have hcontrolled := hspares control hcontrol
          cases control with
          | declare globalId => exact hcontrolled
          | discharge name fail => exact hcontrolled
      | finish => exact hspares
      | _ => trivial
  | _ => trivial

/-- An open transaction is open after an action that does not end it. -/
theorem transaction?_step {action : Action}
    (opened : world.transaction? index id = some transaction)
    (lasts : ¬ action.Ends world index id) :
  ∃ transaction', (world.step action).transaction? index id = some transaction'
  := by
  obtain ⟨member, hget, hfind⟩ := transaction?_eq_some_iff.mp opened
  rcases member_step hget action with ⟨act, rfl, hmember, -⟩ | ⟨-, hmember⟩
  · have hcontains : member.session.transactions.contains id = true := by
      rw [Ledger.contains, hfind]
      rfl
    have hafter := act.contains_run (s := ⟨member.session, world.store⟩) hcontains
      (by
        rintro rfl
        exact lasts (.inl rfl))
      (by
        rintro p payload fail rfl hcontrol
        exact lasts (.inr ⟨p, payload, fail, member, rfl, hget, hcontrol⟩))
    obtain ⟨transaction', hfind'⟩ := Option.isSome_iff_exists.mp hafter
    exact ⟨transaction', transaction?_eq_some_iff.mpr ⟨_, hmember, hfind'⟩⟩
  · exact ⟨transaction, transaction?_eq_some_iff.mpr ⟨member, hmember, hfind⟩⟩

/-- While a transaction is open, all happens as if it had no work yet, and its work stays in front
of what is recorded later. -/
theorem Orderly.run_prepend {work : List Work}
    (orderly : Orderly outside (world.onLedger index (Ledger.prepend id work)))
    (opened : (world.onLedger index (Ledger.prepend id work)).transaction? index id
      = some transaction) {actions : List Action}
    (names : ((world.onLedger index (Ledger.prepend id work)).run actions).NamesLast index)
    (lasts : Lasts index id (world.onLedger index (Ledger.prepend id work)) actions) :
  (world.onLedger index (Ledger.prepend id work)).run actions
      = (world.run actions).onLedger index (Ledger.prepend id work)
    ∧ ∃ transaction', (world.run actions).transaction? index id = some transaction'
  := by
  induction actions generalizing world outside transaction with
  | nil =>
      refine ⟨rfl, ?_⟩
      rw [transaction?_prepend] at opened
      obtain ⟨transaction', hfound, -⟩ := Option.map_eq_some_iff.mp opened
      exact ⟨transaction', hfound⟩
  | cons action actions ih =>
      obtain ⟨hends, hactions⟩ := lasts
      have hspares := spares_of_prepend (orderly.spares (.of_run names) opened hends)
      obtain ⟨lost, horderly, -⟩ := orderly.step action
      obtain ⟨transaction', hopened⟩ := transaction?_step opened hends
      rw [step_prepend hspares work] at horderly hopened hactions
      rw [run_cons, step_prepend hspares work] at names ⊢
      exact ih horderly hopened names hactions

/-- The work of an open transaction lies by: it has no effect on the queues, it stays in front of
what is recorded later, and the messages that it is to take out stay held as they are. -/
theorem Orderly.lies_by (orderly : Orderly outside world)
    (opened : world.transaction? index id = some transaction) {actions : List Action}
    (names : (world.run actions).NamesLast index) (lasts : Lasts index id world actions) :
  (world.run actions).store = ((world.without index id).run actions).store
    ∧ (∃ more, (world.run actions).transaction? index id
        = some { transaction with work := transaction.work ++ more })
    ∧ ∀ place ∈ transaction.taken, (world.run actions).store.isHeld place = true
        ∧ (world.run actions).store.slot? place = world.store.slot? place
  := by
  have hback := orderly.prepend_without opened
  have hwithout := orderly.without opened
  have hopened := opened
  rw [← hback] at orderly names lasts hopened
  obtain ⟨hrun, transaction', hfound⟩ := orderly.run_prepend hopened names lasts
  rw [hback] at hrun
  obtain ⟨lost, hlater, -⟩ := hwithout.run actions
  have hslots (place : Place) (hplace : place ∈ transaction.taken) :
      (world.run actions).store.slot? place = world.store.slot? place := by
    have hmem : place ∈ transaction.places + outside := Multiset.mem_add.mpr (.inl hplace)
    rw [hrun]
    exact hwithout.slot?_run actions hmem
  refine ⟨by rw [hrun]; rfl, ?_, ?_⟩
  · refine ⟨transaction'.work, ?_⟩
    rw [hrun, transaction?_prepend, hfound, Option.map_some, id_of_transaction? hfound,
      id_of_transaction? opened]
  · intro place hplace
    refine ⟨?_, hslots place hplace⟩
    rw [QueueStore.isHeld, hslots place hplace, ← QueueStore.isHeld]
    exact hwithout.inCustody.isHeld_of_mem (by
      apply Multiset.mem_add.mpr
      exact .inr (Multiset.mem_add.mpr (.inl hplace)))

/-! ### Ends of transactions -/

section Ends

variable {member : Member}

/-- What a session holds is in custody. -/
theorem Orderly.inCustody_session (orderly : Orderly outside world)
    (hmember : member ∈ world.members) :
  ∃ others, world.store.InCustody (member.session.places + others)
  := by
  obtain ⟨others, hothers⟩ := Multiset.le_iff_exists_add.mp (places_le hmember)
  have hcustody := orderly.inCustody
  rw [hothers, add_assoc] at hcustody
  exact ⟨_, hcustody⟩

/-- What an open transaction holds is in custody. -/
theorem Orderly.inCustody_transaction (orderly : Orderly outside world)
    (hmember : member ∈ world.members)
    (hfind : member.session.transactions.find? id = some transaction) :
  ∃ others, world.store.InCustody (transaction.places + others)
  := by
  obtain ⟨others, hcustody⟩ := orderly.inCustody_session hmember
  have hledger := (orderly.accounted member hmember).sound.distinct
  rw [Session.places, hledger.places_eq hfind, add_left_comm, add_assoc] at hcustody
  exact ⟨_, hcustody⟩

/-- A name that was given out and is not that of an open transaction is never again the name of
one. -/
theorem Orderly.unknown_run (orderly : Orderly outside world)
    (hget : world.members[index]? = some member)
    (given : ∃ number < member.declared, id = bigEndian 4 (number + 1))
    (unknown : member.session.transactions.find? id = none) {actions : List Action}
    (names : (world.run actions).NamesLast index) :
  (world.run actions).transaction? index id = none
  := by
  induction actions generalizing world outside member with
  | nil =>
      rw [run_nil, transaction?, hget]
      exact unknown
  | cons action actions ih =>
      obtain ⟨lost, horderly, -⟩ := orderly.step action
      rcases member_step hget action with ⟨act, -, hmember, -⟩ | ⟨-, hmember⟩
      · have advances := member.advances_run world.store act
        have hstep : (world.step action).NamesLast index := .of_run names
        have retires := advances.retires (orderly.accounted member (List.mem_of_getElem? hget))
          (hstep _ hmember)
        obtain ⟨number, hlt, rfl⟩ := given
        exact ih horderly hmember ⟨number, Nat.lt_of_lt_of_le hlt advances.declared, rfl⟩
          (retires number hlt unknown) names
      · exact ih horderly hmember given unknown names

/-- At its end a transaction has its work done or undone at once, and its name is not used
again. -/
theorem Orderly.discharge (orderly : Orderly outside world)
    (hget : world.members[index]? = some member)
    (hfind : member.session.transactions.find? id = some transaction) {p : Performative}
    {payload : Bytes} {fail : Bool}
    (hcontrol : member.session.control? p payload = some (.discharge id fail)) :
  (∀ queue, (world.step (.serve index (.handle p payload))).store.get? queue
      = (world.store.get? queue).map (Queue.settled (transaction.deeds fail) world.store queue))
    ∧ ∃ member', (world.step (.serve index (.handle p payload))).members[index]? = some member'
        ∧ member.declared ≤ member'.declared ∧ member'.session.transactions.find? id = none
  := by
  obtain ⟨hledger, hstore⟩ := Operation.handle_of_discharge (s := ⟨member.session, world.store⟩)
    hcontrol hfind
  constructor
  · intro queue
    rw [store_serve hget]
    obtain ⟨others, hcustody⟩ := orderly.inCustody_transaction (List.mem_of_getElem? hget) hfind
    rw [Transaction.places, ← Transaction.filterMap_deeds fail] at hcustody
    change ((Operation.handle p payload).after ⟨member.session, world.store⟩).store.get? queue = _
    rw [hstore]
    exact Deed.get?_performAll hcustody queue
  · refine ⟨_, member_serve hget _, (member.advances_run world.store _).declared, ?_⟩
    change ((Operation.handle p payload).after ⟨member.session, world.store⟩
      ).session.transactions.find? id = none
    rw [hledger]
    exact Ledger.find?_remove_self _ id

/-- At the end of its session the work of every transaction is undone, and their names are not
used again. -/
theorem Orderly.finish (orderly : Orderly outside world)
    (hget : world.members[index]? = some member) :
  (∀ queue, (world.step (.serve index .finish)).store.get? queue
      = (world.store.get? queue).map
          (Queue.settled member.session.deedsAtEnd world.store queue))
    ∧ ∃ member', (world.step (.serve index .finish)).members[index]? = some member'
        ∧ member.declared ≤ member'.declared ∧ ∀ id, member'.session.transactions.find? id = none
  := by
  constructor
  · intro queue
    rw [store_serve hget]
    obtain ⟨others, hcustody⟩ := orderly.inCustody_session (List.mem_of_getElem? hget)
    rw [← Session.filterMap_deedsAtEnd] at hcustody
    change (Serving.finish ⟨member.session, world.store⟩).store.get? queue = _
    rw [Serving.store_finish]
    exact Deed.get?_performAll hcustody queue
  · exact ⟨_, member_serve hget _, (member.advances_run world.store _).declared, fun _ => rfl⟩

end Ends

end World

end MessageBroker
