import MessageBroker.Proofs.Session.Recovery
import MessageBroker.Proofs.World.Transactions

/-!
# Deliveries are taken back in order

Whatever came about in a world, a session that takes its deliveries back gives the message of each
back once, and the messages that it sends anew are sent in the order that they have in their queues.
The deliveries that are unsettled then have numbers that were not given out before.
-/

namespace MessageBroker

open Session

namespace World

variable {world : World} {index : Nat} {member : Member}

/-- Every delivery that is not settled is taken back in the order of the numbers, and messages are
sent anew in the order that they have in their queues, under numbers that were not given out
before. -/
theorem recovered_in_order (reachable : world.Reachable)
    (hget : world.members[index]? = some member) :
  ∃ outcomes s' dispatches later,
    Serving.recover ⟨member.session, world.store⟩ = (outcomes, s')
      ∧ Serving.Recovers ⟨member.session, world.store⟩ s' outcomes dispatches
      ∧ (world.step (.serve index .recover)).members[index]? = some later
      ∧ later.session = s'.session
      ∧ (world.step (.serve index .recover)).store = s'.store
      ∧ later.sent = member.sent + dispatches.length
      ∧ (member.sent < 4294967296 →
          (∀ id delivery, member.session.outgoingUnsettled.get? id = some delivery →
              id.toNat < member.sent)
            ∧ ∀ id delivery, s'.session.outgoingUnsettled.get? id = some delivery →
                ∃ earlier < dispatches.length, id = .ofNat (member.sent + earlier)
                  ∧ (later.sent ≤ 4294967296 → id.toNat = member.sent + earlier))
  := by
  obtain ⟨outside, orderly, -⟩ := reachable.orderly
  have hmember := List.mem_of_getElem? hget
  have accounted := orderly.accounted member hmember
  obtain ⟨others, custody⟩ := orderly.inCustody_session hmember
  obtain ⟨outcomes, s', dispatches, hrecover, recovers⟩ :=
    Serving.recovers_recover (s := ⟨member.session, world.store⟩) accounted.sound custody
  have after : s' = (Serving.recover ⟨member.session, world.store⟩).2 := by rw [hrecover]
  have sent : (member.proceed [] s'.session).sent = member.sent + dispatches.length :=
    member.sent_proceed recovers.begun.begun
  refine ⟨outcomes, s', dispatches, member.proceed [] s'.session, hrecover, recovers, ?_, rfl, ?_,
    sent, fun lasting => ?_⟩
  · rw [after]
    exact member_serve hget .recover
  · rw [after]
    exact store_serve hget .recover
  · have sends := accounted.sends lasting
    refine ⟨fun id delivery hget => sends.given id (Table.mem_keys_of_get? hget), ?_⟩
    intro id delivery hget
    obtain ⟨dispatch, hmem, rfl, -, -⟩ := recovers.unsettled id delivery hget
    obtain ⟨earlier, hearlier, hid⟩ := recovers.begun.id_of_mem hmem
    have number : dispatch.id = .ofNat (member.sent + earlier) := by
      rw [hid, UInt32.ofNat_add, ← sends.nextDeliveryId]
      rfl
    refine ⟨earlier, hearlier, number, fun last => ?_⟩
    rw [sent] at last
    rw [number]
    exact UInt32.toNat_ofNat_of_lt' (by change _ < 4294967296; omega)

/-- A message that a second link took first, and whose link is gone, is sent anew before those that
were sent after it. -/
theorem recovered_in_order_of_two_links :
  ∃ (world : World) (member : Member) (outcomes : List ReleaseOutcome) (s' : Serving)
      (dispatches : List Dispatch),
    world.members[0]? = some member
      ∧ Serving.recover ⟨member.session, world.store⟩ = (outcomes, s')
      ∧ Serving.Recovers ⟨member.session, world.store⟩ s' outcomes dispatches
      ∧ member.session.outgoingUnsettled = [(0, ⟨1, 0, 0⟩), (2, ⟨0, 0, 2⟩)]
      ∧ outcomes = [.requeued, .requeued]
      ∧ s'.session.outgoingUnsettled = [(3, ⟨0, 0, 0⟩), (4, ⟨0, 0, 2⟩)]
  := by
  let world := empty.run [.addQueue "q" .unlimited true,
    .enqueue 0 [0], .enqueue 0 [1], .enqueue 0 [2],
    .begin ⟨none, 0, 9, 9, none⟩ ⟨9, 9, 0, true, 512⟩,
    .serve 0 (.handle (.attach ⟨"a", 0, .receiver, .mixed, .first,
      some ⟨some "q", none, none, none, false, none, .null, none, none, none⟩, none, none,
      none⟩) []),
    .serve 0 (.handle (.attach ⟨"b", 1, .receiver, .mixed, .first,
      some ⟨some "q", none, none, none, false, none, .null, none, none, none⟩, none, none,
      none⟩) []),
    .serve 0 (.handle (.flow
      ⟨some 0, 9, 0, 9, some 1, some 0, some 1, none, false, false⟩) []),
    .serve 0 (.handle (.flow
      ⟨some 0, 9, 0, 9, some 0, some 0, some 9, none, false, false⟩) []),
    .serve 0 (.handle (.disposition ⟨.receiver, 1, none, true, some .accepted, false⟩) []),
    .serve 0 (.handle (.detach ⟨1, true, none⟩) [])]
  have reachable : world.Reachable := ⟨_, rfl⟩
  obtain ⟨member, hget⟩ : ∃ member, world.members[0]? = some member := ⟨_, rfl⟩
  obtain ⟨outcomes, s', dispatches, later, hrecover, recovers, -⟩ :=
    recovered_in_order reachable hget
  have before : world.members[0]?.map (·.session.outgoingUnsettled)
      = some [(0, ⟨1, 0, 0⟩), (2, ⟨0, 0, 2⟩)] := by decide +kernel
  have told : (world.members[0]?.map fun member =>
        (Serving.recover ⟨member.session, world.store⟩).1) = some [.requeued, .requeued] := by
    decide +kernel
  have after : (world.members[0]?.map fun member =>
        (Serving.recover ⟨member.session, world.store⟩).2.session.outgoingUnsettled)
      = some [(3, ⟨0, 0, 0⟩), (4, ⟨0, 0, 2⟩)] := by
    decide +kernel
  rw [hget, Option.map_some] at before told after
  rw [hrecover] at told after
  exact ⟨world, member, outcomes, s', dispatches, hget, hrecover, recovers,
    Option.some.inj before, Option.some.inj told, Option.some.inj after⟩

end World

end MessageBroker
