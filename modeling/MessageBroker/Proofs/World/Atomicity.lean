import MessageBroker.Proofs.World.Links
import MessageBroker.Proofs.World.Transactions

/-!
# Transactions are atomic

A transaction that is open does nothing to the queues: the messages recorded in it are in none,
and those that it is to take out stay held.  It is open until it is discharged or its session
ends; then all of its work is done at once, or all of it undone, and no transaction has its name
ever again.
-/

namespace MessageBroker

open Session

/-- A session does not know a transaction: what names it is reported, and changes no queue. -/
structure Serving.Unknown (id : Bytes) (s : Serving) : Prop where
  /-- No open transaction has the name. -/
  find? : s.session.transactions.find? id = none
  /-- A discharge that names the transaction is reported. -/
  discharged : ∀ transfer payload fail,
    s.session.control? (.transfer transfer) payload = some (.discharge id fail) →
      ((Operation.handle (.transfer transfer) payload).after s).store = s.store
        ∧ ∃ delivery, s.session.Reports transfer.handle delivery (Ledger.unknown id)
            ((Operation.handle (.transfer transfer) payload).after s).session
  /-- A message that names the transaction is reported, unless there is something else about it to
  report. -/
  transferred : ∀ transfer payload endpoint queue assembly,
    s.session.completed? (.transfer transfer) payload = some (endpoint, assembly) →
    endpoint.kind = .receiving queue → assembly.state.bind DeliveryState.transaction? = some id →
      ((Operation.handle (.transfer transfer) payload).after s).store = s.store
        ∧ ∀ sections, MessageSections.parse assembly.payload = .ok sections →
            sections.Acceptable s.session.limits →
            s.session.Reports transfer.handle assembly.id (Ledger.unknown id)
              ((Operation.handle (.transfer transfer) payload).after s).session

/-- A session whose ends of links know their handles reports what names a transaction that is not
open. -/
theorem Serving.unknown_of_find? {known : QueueId → Prop} {s : Serving}
    (attached : s.session.Attached known) {id : Bytes}
    (h : s.session.transactions.find? id = none) :
  s.Unknown id
  := by
  refine ⟨h, ?_, ?_⟩
  · intro transfer payload fail hcontrol
    exact Operation.handle_of_unknown_control attached hcontrol h
  · intro transfer payload endpoint queue assembly completed kind part
    exact Operation.handle_of_unknown attached completed kind part h

namespace World

variable {world : World} {index : Nat} {member : Member}

theorem transaction?_serve (hget : world.members[index]? = some member) (act : Session.Act)
    (id : Bytes) :
  (world.step (.serve index act)).transaction? index id
    = (act.run ⟨member.session, world.store⟩).2.session.transactions.find? id
  := by
  rw [transaction?, member_serve hget]
  rfl

/-- An open transaction of a session of a world is atomic. -/
structure Atomic (world : World) (index : Nat) (member : Member) (transaction : Transaction) :
    Prop where
  /-- A message that is part of the transaction is recorded, and no queue changes. -/
  recorded : ∀ transfer payload endpoint queue assembly sections,
    member.session.completed? (.transfer transfer) payload = some (endpoint, assembly) →
    endpoint.kind = .receiving queue →
    MessageSections.parse assembly.payload = .ok sections →
    sections.Acceptable member.session.limits →
    assembly.state.bind DeliveryState.transaction? = some transaction.id →
      (world.step (.serve index (.handle (.transfer transfer) payload))).store = world.store
        ∧ (world.step (.serve index (.handle (.transfer transfer) payload))).transaction? index
            transaction.id
          = some { transaction with
              work := transaction.work ++ [.enqueue queue assembly.payload] }
  /-- The messages of deliveries that are accepted in the transaction are recorded, to be taken
  out. -/
  accepted : ∀ disposition payload state, disposition.role = .receiver →
    ¬ disposition.lastId < disposition.first → disposition.state = some state →
    state.takenIn? = some transaction.id →
      (world.step (.serve index (.handle (.disposition disposition) payload))).transaction? index
          transaction.id
        = some { transaction with
            work := transaction.work ++ (member.session.outgoingUnsettled.filter fun row =>
              covers disposition row.1).map (·.2.taking) }
  /-- The queues of the messages recorded are in the store. -/
  housed : ∀ message ∈ transaction.messages, world.store.Has message.1
  /-- Until its end the transaction does nothing to the queues, what is recorded in it stays, and
  the messages that it is to take out stay held as they are. -/
  lies_by : ∀ actions, Lasts index transaction.id world actions →
    (world.run actions).NamesLast index →
      (world.run actions).store = ((world.without index transaction.id).run actions).store
        ∧ (∃ more, (world.run actions).transaction? index transaction.id
            = some { transaction with work := transaction.work ++ more })
        ∧ ∀ place ∈ transaction.taken, (world.run actions).store.isHeld place = true
            ∧ (world.run actions).store.slot? place = world.store.slot? place
  /-- When it is discharged, all of its work is done at once, or all of it undone. -/
  discharged : ∀ p payload fail,
    member.session.control? p payload = some (.discharge transaction.id fail) → ∀ queue,
      (world.step (.serve index (.handle p payload))).store.get? queue
        = (world.store.get? queue).map (if fail then transaction.rolledBack world.store queue
            else transaction.committed queue)
  /-- When its session ends, messages are given back and none is put into a queue: each once, and
  those of the transaction as failed. -/
  ended :
    (∀ queue, (world.step (.serve index .finish)).store.get? queue
      = (world.store.get? queue).map (Queue.settled member.session.deedsAtEnd world.store queue))
    ∧ (∀ deed ∈ member.session.deedsAtEnd, ∃ place counted, deed = .giveBack place counted)
    ∧ (member.session.deedsAtEnd.filterMap Deed.place?).Nodup
    ∧ ∀ place ∈ transaction.taken, .giveBack place true ∈ member.session.deedsAtEnd
  /-- After its end the transaction is unknown for ever. -/
  unknown : ∀ action actions, action.Ends world index transaction.id →
    (world.run (action :: actions)).NamesLast index → ∀ member',
      (world.run (action :: actions)).members[index]? = some member' →
        Serving.Unknown transaction.id ⟨member'.session, (world.run (action :: actions)).store⟩

/-! ### Work is recorded -/

theorem find?_onWork_self {ledger : Ledger} {id : Bytes} {transaction : Transaction}
    (h : ledger.find? id = some transaction) (change : List Work → List Work) :
  (ledger.onWork id change).find? id
    = some { transaction with work := change transaction.work }
  := by
  rw [Ledger.find?_onWork, h, Option.map_some, if_pos rfl]

variable {id : Bytes} {transaction : Transaction}

/-- A message that is part of an open transaction is recorded, and no queue changes. -/
theorem recorded_of_completed (hget : world.members[index]? = some member)
    (found : member.session.transactions.find? id = some transaction) {transfer : Transfer}
    {payload : Bytes} {endpoint : Endpoint} {queue : QueueId} {assembly : Assembly}
    {sections : MessageSections}
    (completed : member.session.completed? (.transfer transfer) payload = some (endpoint, assembly))
    (kind : endpoint.kind = .receiving queue)
    (parsed : MessageSections.parse assembly.payload = .ok sections)
    (acceptable : sections.Acceptable member.session.limits)
    (part : assembly.state.bind DeliveryState.transaction? = some id) :
  (world.step (.serve index (.handle (.transfer transfer) payload))).store = world.store
    ∧ (world.step (.serve index (.handle (.transfer transfer) payload))).transaction? index id
      = some { transaction with work := transaction.work ++ [.enqueue queue assembly.payload] }
  := by
  have opened : member.session.transactions.contains id = true := by
    rw [Ledger.contains, found]
    rfl
  obtain ⟨hledger, hstore⟩ := Operation.handle_of_recorded (s := ⟨member.session, world.store⟩)
    completed kind parsed acceptable part opened
  constructor
  · rw [store_serve hget]
    exact hstore
  · rw [transaction?_serve hget, Session.Act.run]
    dsimp only
    rw [hledger]
    exact find?_onWork_self found _

/-- The messages of deliveries that are accepted in an open transaction are recorded. -/
theorem recorded_of_accepted (hget : world.members[index]? = some member)
    (found : member.session.transactions.find? id = some transaction)
    {disposition : Disposition} (payload : Bytes) {state : DeliveryState}
    (role : disposition.role = .receiver)
    (nonempty : ¬ disposition.lastId < disposition.first)
    (hstate : disposition.state = some state) (taken : state.takenIn? = some id) :
  (world.step (.serve index (.handle (.disposition disposition) payload))).transaction? index id
    = some { transaction with
        work := transaction.work ++ (member.session.outgoingUnsettled.filter fun row =>
          covers disposition row.1).map (·.2.taking) }
  := by
  have opened : member.session.transactions.contains id = true := by
    rw [Ledger.contains, found]
    rfl
  have hledger := Operation.handle_of_taken (s := ⟨member.session, world.store⟩) payload role
    nonempty hstate taken opened
  rw [transaction?_serve hget, Session.Act.run]
  dsimp only
  rw [hledger]
  exact find?_onWork_self found _

/-! ### Transactions end -/

/-- At the end of a session every held message is given back once, and those of a transaction as
failed. -/
theorem Orderly.deedsAtEnd {outside : Multiset Place} (orderly : Orderly outside world)
    (hmember : member ∈ world.members)
    (opened : transaction ∈ member.session.transactions.opened) :
  (∀ deed ∈ member.session.deedsAtEnd, ∃ place counted, deed = .giveBack place counted)
    ∧ (member.session.deedsAtEnd.filterMap Deed.place?).Nodup
    ∧ ∀ place ∈ transaction.taken, .giveBack place true ∈ member.session.deedsAtEnd
  := by
  have hdeed {work : Work} {deed : Deed} (h : work.deed? true = some deed) :
      ∃ place, work.place? = some place ∧ deed = .giveBack place true := by
    cases work with
    | enqueue queue payload => contradiction
    | dequeue queue entry => exact ⟨(queue, entry), rfl, (Option.some.inj h).symm⟩
  refine ⟨?_, ?_, ?_⟩
  · intro deed hmem
    rcases List.mem_append.mp hmem with hunsettled | hopened
    · obtain ⟨delivery, -, rfl⟩ := List.mem_map.mp hunsettled
      exact ⟨_, _, rfl⟩
    · obtain ⟨other, -, hother⟩ := List.mem_flatMap.mp hopened
      obtain ⟨work, -, hwork⟩ := List.mem_filterMap.mp hother
      obtain ⟨place, -, rfl⟩ := hdeed hwork
      exact ⟨_, _, rfl⟩
  · obtain ⟨others, hcustody⟩ := orderly.inCustody_session hmember
    have hnodup := Multiset.nodup_of_le (Multiset.le_add_right _ others) hcustody.nodup
    rw [← filterMap_deedsAtEnd] at hnodup
    exact Multiset.coe_nodup.mp hnodup
  · intro place hplace
    obtain ⟨work, hwork, hpair⟩ := List.mem_filterMap.mp hplace
    apply List.mem_append_right
    apply List.mem_flatMap.mpr
    refine ⟨transaction, opened, List.mem_filterMap.mpr ⟨work, hwork, ?_⟩⟩
    cases work with
    | enqueue queue payload => contradiction
    | dequeue queue entry =>
        obtain rfl := Option.some.inj hpair
        rfl

/-- A transaction that was open is not open again after its end, as long as the names last. -/
theorem Orderly.unknown_of_ended {outside : Multiset Place} (orderly : Orderly outside world)
    (hget : world.members[index]? = some member)
    (found : member.session.transactions.find? id = some transaction) {action : Action}
    {actions : List Action} (ends : action.Ends world index id)
    (names : (world.run (action :: actions)).NamesLast index) :
  (world.run (action :: actions)).transaction? index id = none
  := by
  have given : ∃ number < member.declared, id = bigEndian 4 (number + 1) := by
    have hnumbered := (orderly.accounted member (List.mem_of_getElem? hget)).numbered
      (NamesLast.of_run names _ hget)
    rw [← Ledger.id_of_find? found]
    exact hnumbered.named transaction (Ledger.mem_of_find? found)
  obtain ⟨member', hget', hle, hnone⟩ : ∃ member',
      (world.step action).members[index]? = some member' ∧ member.declared ≤ member'.declared
        ∧ member'.session.transactions.find? id = none := by
    rcases ends with rfl | ⟨p, payload, fail, served, rfl, hserved, hcontrol⟩
    · obtain ⟨-, member', hget', hle, hnone⟩ := orderly.finish hget
      exact ⟨member', hget', hle, hnone id⟩
    · obtain rfl := Option.some.inj (hget.symm.trans hserved)
      exact (orderly.discharge hget found hcontrol).2
  obtain ⟨number, hlt, rfl⟩ := given
  obtain ⟨lost, hstep, -⟩ := orderly.step action
  exact hstep.unknown_run hget' ⟨number, Nat.lt_of_lt_of_le hlt hle, rfl⟩ hnone names

/-- An open transaction of a session is atomic, whatever came about in the world and whatever comes
about in it then. -/
theorem transaction_atomic (reachable : world.Reachable)
    (hget : world.members[index]? = some member)
    (opened : transaction ∈ member.session.transactions.opened) :
  Atomic world index member transaction
  := by
  obtain ⟨outside, orderly, -⟩ := reachable.orderly
  have hmember := List.mem_of_getElem? hget
  have found := (orderly.accounted member hmember).sound.distinct.find?_of_mem opened
  have hopened := transaction?_eq_some_iff.mpr ⟨member, hget, found⟩
  constructor
  · intro transfer payload endpoint queue assembly sections completed kind parsed acceptable part
    exact recorded_of_completed hget found completed kind parsed acceptable part
  · intro disposition payload state role nonempty hstate taken
    exact recorded_of_accepted hget found payload role nonempty hstate taken
  · exact (reachable.housed member hmember).addressed transaction opened
  · intro actions lasts names
    exact orderly.lies_by hopened names lasts
  · intro p payload fail hcontrol queue
    rw [(orderly.discharge hget found hcontrol).1]
    congr 1
    funext stored
    cases fail with
    | true => exact transaction.settled_rolledBack _ _ _
    | false => exact transaction.settled_committed _ _ _
  · exact ⟨(orderly.finish hget).1, orderly.deedsAtEnd hmember opened⟩
  · intro action actions ends names member' hget'
    have hnone := orderly.unknown_of_ended hget found ends names
    rw [transaction?, hget'] at hnone
    have hhoused := (reachable.run (action :: actions)).housed member'
      (List.mem_of_getElem? hget')
    exact Serving.unknown_of_find? hhoused.attached hnone

/-- A transaction is atomic in which a message was recorded and another was accepted. -/
theorem transaction_atomic_of_recorded :
  ∃ world member, world.members[0]? = some member
    ∧ Atomic world 0 member ⟨[0, 0, 0, 1], [.enqueue 0 [0x00, 0x53, 0x77, 0x40], .dequeue 0 0]⟩
  := ⟨empty.run [.addQueue "q" .unlimited true, .enqueue 0 [0, 1],
      .begin ⟨none, 0, 9, 9, none⟩ ⟨9, 9, 0, true, 512⟩,
      .serve 0 (.handle (.attach
        ⟨"c", 0, .sender, .mixed, .first, none, some (.coordinator none), some 0, none⟩) []),
      .serve 0 (.handle (.attach
        ⟨"a", 1, .sender, .mixed, .first, none,
          some (.node ⟨some "q", none, none, none, false, none⟩), some 0, none⟩) []),
      .serve 0 (.handle (.attach
        ⟨"b", 2, .receiver, .mixed, .first,
          some ⟨some "q", none, none, none, false, none, .null, none, none, none⟩, none, none,
          none⟩) []),
      .serve 0 (.handle (.transfer
        ⟨0, some 0, some [0], none, none, false, none, none, false, false, false⟩)
        [0x00, 0x53, 0x77, 0x00, 0x53, 0x31, 0x45]),
      .serve 0 (.handle (.transfer
        ⟨1, some 1, some [1], none, none, false, none, some (.transactional [0, 0, 0, 1]), false,
          false, false⟩) [0x00, 0x53, 0x77, 0x40]),
      .serve 0 (.handle (.flow
        ⟨some 0, 9, 2, 9, some 2, some 0, some 1, none, false, false⟩) []),
      .serve 0 (.handle (.disposition
        ⟨.receiver, 0, none, true, some (.transactional [0, 0, 0, 1]), false⟩) [])],
    _, rfl, transaction_atomic ⟨_, rfl⟩ rfl (by decide +kernel)⟩

end World

end MessageBroker
