import MessageBroker.Proofs.World.Atomicity
import MessageBroker.Proofs.World.Settling

/-!
# Outcomes in transactions

Of the outcomes that a disposition gives in a transaction only the taking of a message waits for the
end of the transaction: the message stays held until then, and the transaction must be open.  Any
other outcome is carried out at once, and nobody asks whether the transaction is open.
-/

namespace MessageBroker

open Session

namespace World

/-- The messages of deliveries wait to be taken out at the end of an open transaction of a
session. -/
structure Waits (index : Nat) (transaction : Transaction) (rows : Table UInt32 OutgoingDelivery)
    (world later : World) : Prop where
  /-- No message is put into a queue, no held message is taken out or given back, and no attempt is
  counted. -/
  draws : world.store.Draws later.store
  /-- The messages are recorded in the transaction. -/
  recorded : later.transaction? index transaction.id
    = some { transaction with work := transaction.work ++ rows.map (·.2.taking) }
  /-- Until the transaction ends the messages stay held as they are. -/
  held : ∀ actions, Lasts index transaction.id later actions →
    (later.run actions).NamesLast index → ∀ row ∈ rows,
      (later.run actions).store.isHeld row.2.place = true
        ∧ (later.run actions).store.slot? row.2.place = world.store.slot? row.2.place

/-- A disposition by which the peer gives deliveries of a session of a world an outcome. -/
structure Provisional (world : World) (index : Nat) (member : Member) (disposition : Disposition)
    (state : DeliveryState) (payload : Bytes) : Prop where
  /-- Messages that are to be taken in an open transaction wait for its end. -/
  waits : ∀ id transaction, state.takenIn? = some id →
    member.session.transactions.find? id = some transaction →
      (∃ s', Operation.handle (.disposition disposition) payload ⟨member.session, world.store⟩
        = .ok () s')
      ∧ Waits index transaction (member.session.covered disposition) world
          (world.step (.tell index disposition payload))
  /-- If that transaction is not open, the message of the first delivery is given back without an
  attempt being counted, and its link is at fault. -/
  reported : ∀ id row others, state.takenIn? = some id →
    member.session.transactions.contains id = false →
    member.session.covered disposition = row :: others →
      ∃ s', Serving.Concludes [(row.1, row.2, .released)] ⟨member.session, world.store⟩ s'
        ∧ s'.session.pending = member.session.pending
        ∧ s'.Blames row.2.handle (Ledger.unknown id)
          (Operation.handle (.disposition disposition) payload ⟨member.session, world.store⟩)
  /-- Any other outcome is carried out at once, whatever transaction it is said to be part of, and
  what is recorded in transactions stays as it is. -/
  atOnce : state.takenIn? = none → ¬ disposition.lastId < disposition.first →
    ∃ s', Serving.Concludes (member.session.alike disposition state)
        ⟨member.session, world.store⟩ s'
      ∧ s'.session.transactions = member.session.transactions
      ∧ s'.session.pending = member.session.pending ++
        (if disposition.settled || (member.session.covered disposition).isEmpty then []
        else [⟨.disposition disposition.confirmation, none⟩])
      ∧ Operation.handle (.disposition disposition) payload ⟨member.session, world.store⟩
        = .ok () s'.pumpAll
  /-- If there is no delivery to give an outcome, then no transaction is asked for either. -/
  idle : member.session.covered disposition = [] →
    Operation.handle (.disposition disposition) payload ⟨member.session, world.store⟩
      = .ok () (if disposition.lastId < disposition.first then ⟨member.session, world.store⟩
        else Serving.pumpAll ⟨member.session, world.store⟩)

variable {outside : Multiset Place} {world : World} {index : Nat} {member : Member}
  {disposition : Disposition} {state : DeliveryState}

/-- The messages of unsettled deliveries are held. -/
theorem Orderly.isHeld_of_covered (orderly : Orderly outside world)
    (hmember : member ∈ world.members) {row : UInt32 × OutgoingDelivery}
    (hrow : row ∈ member.session.covered disposition) :
  world.store.isHeld row.2.place = true
  := by
  obtain ⟨others, custody⟩ := orderly.inCustody_session hmember
  apply custody.isHeld_of_mem
  apply Multiset.mem_add.mpr
  refine .inl (Multiset.mem_add.mpr (.inl (Multiset.mem_coe.mpr ?_)))
  exact List.mem_map_of_mem (List.mem_map_of_mem (List.mem_of_mem_filter hrow))

/-- Messages that are to be taken in an open transaction wait for its end. -/
theorem Orderly.waits (orderly : Orderly outside world)
    (hget : world.members[index]? = some member) {payload : Bytes} {s' : Serving}
    (hhandle : Operation.handle (.disposition disposition) payload ⟨member.session, world.store⟩
      = .ok () s')
    (hstore : world.store.Draws s'.store) {transaction : Transaction}
    (found : member.session.transactions.find? transaction.id = some transaction)
    (hledger : s'.session.transactions = member.session.transactions.onWork transaction.id
      (· ++ (member.session.covered disposition).map (·.2.taking))) :
  Waits index transaction (member.session.covered disposition) world
    (world.step (.tell index disposition payload))
  := by
  obtain ⟨hmember, hstep⟩ := step_of_handled hget hhandle
  have draws : world.store.Draws (world.step (.tell index disposition payload)).store := by
    rw [Action.tell, hstep]
    exact hstore
  have recorded : (world.step (.tell index disposition payload)).transaction? index transaction.id
      = some { transaction with
          work := transaction.work ++ (member.session.covered disposition).map (·.2.taking) } := by
    apply transaction?_eq_some_iff.mpr
    refine ⟨_, hmember, ?_⟩
    change s'.session.transactions.find? transaction.id = _
    rw [hledger]
    exact find?_onWork_self found _
  refine ⟨draws, recorded, ?_⟩
  intro actions lasts names row hrow
  obtain ⟨lost, horderly, -⟩ := orderly.step (.tell index disposition payload)
  obtain ⟨-, -, hlies⟩ := horderly.lies_by recorded names lasts
  have hplace : row.2.place ∈ Transaction.taken { transaction with
      work := transaction.work ++ (member.session.covered disposition).map (·.2.taking) } := by
    apply List.mem_filterMap.mpr
    exact ⟨row.2.taking, List.mem_append_right _ (List.mem_map_of_mem hrow), rfl⟩
  obtain ⟨hheld, hslot⟩ := hlies row.2.place hplace
  refine ⟨hheld, hslot.trans ?_⟩
  exact draws.kept row.2.place (orderly.isHeld_of_covered (List.mem_of_getElem? hget) hrow)

/-- A message that is to be taken in a transaction that is not open is given back, and its link is
at fault. -/
theorem Orderly.reported (orderly : Orderly outside world) (hmember : member ∈ world.members)
    (attached : member.session.Attached world.store.Has) (role : disposition.role = .receiver)
    (hstate : disposition.state = some state) (payload : Bytes) {id : Bytes}
    (taken : state.takenIn? = some id)
    (unknown : member.session.transactions.contains id = false)
    {row : UInt32 × OutgoingDelivery} {others : Table UInt32 OutgoingDelivery}
    (hcovered : member.session.covered disposition = row :: others) :
  ∃ s', Serving.Concludes [(row.1, row.2, .released)] ⟨member.session, world.store⟩ s'
    ∧ s'.session.pending = member.session.pending
    ∧ s'.Blames row.2.handle (Ledger.unknown id)
      (Operation.handle (.disposition disposition) payload ⟨member.session, world.store⟩)
  := by
  have nonempty : ¬ disposition.lastId < disposition.first := by
    intro reversed
    rw [covered_of_reversed _ reversed] at hcovered
    contradiction
  have told : member.session.verdicts disposition
      = [] ++ (row.1, row.2, state) :: others.map fun row => (row.1, row.2, state) := by
    rw [verdicts_of_outcome hstate (DeliveryState.isTerminal_of_takenIn? taken), alike, hcovered]
    rfl
  have among : List.Sublist (([(row.1, row.2, .released)] : List Verdict).map Verdict.row)
      ((member.session.verdicts disposition).map Verdict.row) := by
    rw [told]
    exact List.Sublist.cons_cons _ (List.nil_sublist _)
  refine ⟨_, orderly.concludes hmember disposition among, rfl, ?_⟩
  rw [Operation.handle_of_unknown_taken (s := ⟨member.session, world.store⟩) payload role nonempty
    told (by simp) taken unknown]
  exact Operation.blames_detachWith attached _ _

/-- An outcome other than the taking of a message in a transaction is carried out at once. -/
theorem Orderly.atOnce (orderly : Orderly outside world) (hmember : member ∈ world.members)
    (role : disposition.role = .receiver) (hstate : disposition.state = some state)
    (terminal : state.isTerminal = true) (payload : Bytes) (plain : state.takenIn? = none)
    (nonempty : ¬ disposition.lastId < disposition.first) :
  ∃ s', Serving.Concludes (member.session.alike disposition state)
      ⟨member.session, world.store⟩ s'
    ∧ s'.session.transactions = member.session.transactions
    ∧ s'.session.pending = member.session.pending ++
      (if disposition.settled || (member.session.covered disposition).isEmpty then []
      else [⟨.disposition disposition.confirmation, none⟩])
    ∧ Operation.handle (.disposition disposition) payload ⟨member.session, world.store⟩
      = .ok () s'.pumpAll
  := by
  have hhandle := Operation.handle_of_plain (s := ⟨member.session, world.store⟩) payload role
    nonempty hstate terminal plain
  have concludes := orderly.concludes hmember disposition (List.Sublist.refl _)
  rw [verdicts_of_outcome hstate terminal] at concludes
  have htransactions := Serving.transactions_concludeAll_of_none
    (s := ⟨member.session, world.store⟩)
    fun verdict (h : verdict ∈ member.session.alike disposition state) =>
      (takenIn?_of_alike h).trans plain
  have hpending := pending_confirm (Serving.concludeAll ⟨member.session, world.store⟩
    (member.session.alike disposition state)).session disposition
    (member.session.alike disposition state)
  have hquiet := quiet_confirm (Serving.concludeAll ⟨member.session, world.store⟩
    (member.session.alike disposition state)).session disposition
    (member.session.alike disposition state)
  rw [alike, List.isEmpty_map] at hpending
  exact ⟨_, concludes.of_quiet (.onSession hquiet), hquiet.transactions.trans htransactions,
    hpending, hhandle⟩

/-- Of the outcomes that a disposition gives in a transaction, only the taking of a message waits
for the end of the transaction, and only then is a transaction reported that is not open. -/
theorem outcome_provisional (reachable : world.Reachable)
    (hget : world.members[index]? = some member) (role : disposition.role = .receiver)
    (hstate : disposition.state = some state) (terminal : state.isTerminal = true)
    (payload : Bytes) :
  Provisional world index member disposition state payload
  := by
  obtain ⟨outside, orderly, -⟩ := reachable.orderly
  have hmember := List.mem_of_getElem? hget
  constructor
  · intro id transaction taken found
    obtain rfl := Ledger.id_of_find? found
    obtain ⟨s', hhandle, hstore, hledger⟩ := Operation.handle_of_opened
      (s := ⟨member.session, world.store⟩) payload role hstate taken (by
        rw [Ledger.contains, found]
        rfl)
    exact ⟨⟨s', hhandle⟩,
      orderly.waits hget hhandle (hstore orderly.inCustody.sound) found hledger⟩
  · intro id row others taken unknown hcovered
    exact orderly.reported hmember (reachable.housed member hmember).attached role hstate payload
      taken unknown hcovered
  · intro plain nonempty
    exact orderly.atOnce hmember role hstate terminal payload plain nonempty
  · intro hcovered
    split
    · next reversed => exact Operation.handle_of_reversed payload role reversed
    · next nonempty =>
        have hnone : member.session.verdicts disposition = [] := by
          rw [verdicts_of_outcome hstate terminal, alike, hcovered]
          rfl
        exact Operation.handle_of_known (s := ⟨member.session, world.store⟩) payload role nonempty
          hnone (by simp)

/-- A message that the peer rejects in an open transaction is given back at once, as failed. -/
theorem outcome_provisional_of_rejected :
  ∃ world member, world.members[0]? = some member
    ∧ Provisional world 0 member
        ⟨.receiver, 0, none, true, some (.provisional [0, 0, 0, 1] (.rejected none)), false⟩
        (.provisional [0, 0, 0, 1] (.rejected none)) []
    ∧ member.session.transactions.contains [0, 0, 0, 1] = true
    ∧ (world.step (.tell 0 ⟨.receiver, 0, none, true,
          some (.provisional [0, 0, 0, 1] (.rejected none)), false⟩ [])).store.slot? (0, 0)
        = some ⟨⟨0, [0, 1], 1⟩, false⟩
  := ⟨empty.run [.addQueue "q" .unlimited true, .enqueue 0 [0, 1],
      .begin ⟨none, 0, 9, 9, none⟩ ⟨9, 9, 0, true, 512⟩,
      .serve 0 (.handle (.attach
        ⟨"c", 0, .sender, .mixed, .first, none, some (.coordinator none), some 0, none⟩) []),
      .serve 0 (.handle (.attach
        ⟨"b", 1, .receiver, .mixed, .first,
          some ⟨some "q", none, none, none, false, none, .null, none, none, none⟩, none, none,
          none⟩) []),
      .serve 0 (.handle (.transfer
        ⟨0, some 0, some [0], none, none, false, none, none, false, false, false⟩)
        [0x00, 0x53, 0x77, 0x00, 0x53, 0x31, 0x45]),
      .serve 0 (.handle (.flow ⟨some 0, 9, 1, 9, some 1, some 0, some 1, none, false, false⟩) [])],
    _, rfl, outcome_provisional ⟨_, rfl⟩ rfl rfl rfl rfl [], by decide +kernel, by decide +kernel⟩

end World

end MessageBroker
