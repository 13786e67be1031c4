import MessageBroker.Proofs.Session.Dispositions
import MessageBroker.Proofs.World.Transactions

/-!
# Settled deliveries are over

A disposition by which the peer settles deliveries is carried out on every unsettled delivery that
it speaks of.  The session forgets the delivery, and its message is taken out, given back or sent
on, or stays held to be taken out at the end of an open transaction.  A delivery whose message is
to be taken in a transaction that is not open is over too: the message is given back.
-/

namespace MessageBroker

open Session

/-- A delivery that was given an outcome is over: the session has forgotten it, and its message is
not held, or is to be taken out at the end of an open transaction. -/
structure Serving.Over (s : Serving) (verdict : Verdict) : Prop where
  /-- The session has forgotten the delivery. -/
  settled : s.session.outgoingUnsettled.get? verdict.1 = none
  /-- The message is not held, or is to be taken out. -/
  message : s.store.isHeld verdict.place = false
    ∨ ∃ id transaction, verdict.takenIn? = some id
      ∧ s.session.transactions.find? id = some transaction
      ∧ verdict.2.1.taking ∈ transaction.work

namespace Serving

variable {verdicts : List Verdict} {s s' s'' : Serving}

/-- Deliveries that were given outcomes are forgotten. -/
theorem Concludes.get?_of_mem (concludes : s.Concludes verdicts s') {verdict : Verdict}
    (hverdict : verdict ∈ verdicts) :
  s'.session.outgoingUnsettled.get? verdict.1 = none
  := by
  rw [concludes.settled]
  apply Table.get?_eq_none_iff.mpr
  intro hmem
  obtain ⟨row, hrow, hid⟩ := List.mem_map.mp hmem
  have hout := (List.mem_filter.mp hrow).2
  rw [hid] at hout
  exact of_decide_eq_true hout (List.mem_map_of_mem hverdict)

/-- Forgetting deliveries gives out no numbers. -/
theorem Concludes.sends (concludes : s.Concludes verdicts s')
    (next : s'.session.nextDeliveryId = s.session.nextDeliveryId) {sent : Nat}
    (sends : s.session.Sends sent) :
  s'.session.Sends sent
  := by
  constructor
  · rw [next, sends.nextDeliveryId]
  · rw [concludes.settled]
    intro id hid
    exact sends.given id ((List.filter_sublist.map _).subset hid)

/-- Deliveries that were given outcomes are over. -/
theorem Concludes.over (concludes : s.Concludes verdicts s') {verdict : Verdict}
    (hverdict : verdict ∈ verdicts) (known : verdict.Known s.session.transactions) :
  s'.Over verdict
  := by
  constructor
  · exact concludes.get?_of_mem hverdict
  · cases htaken : verdict.takenIn? with
    | none => exact .inl (concludes.done verdict hverdict htaken)
    | some id =>
        obtain ⟨transaction, hfound⟩ := Option.isSome_iff_exists.mp (known id htaken)
        have hrecorded := concludes.recorded id
        rw [hfound, Option.map_some] at hrecorded
        refine .inr ⟨id, _, rfl, hrecorded, ?_⟩
        · apply List.mem_append_right
          exact List.mem_filterMap.mpr ⟨verdict, hverdict, if_pos htaken⟩

theorem Over.of_quiet {verdict : Verdict} (hover : s'.Over verdict) (quiet : s'.Quiet s'') :
  s''.Over verdict
  := by
  obtain ⟨settled, message⟩ := hover
  constructor
  · rw [quiet.session.outgoingUnsettled]
    exact settled
  · rw [quiet.store, quiet.session.transactions]
    exact message

end Serving

namespace World

/-- The peer tells a session about deliveries. -/
def Action.tell (index : Nat) (disposition : Disposition) (payload : Bytes) : Action :=
  .serve index (.handle (.disposition disposition) payload)

variable {outside : Multiset Place} {world : World} {index : Nat} {member : Member}
  {disposition : Disposition}

/-- What deliveries come to that a disposition gives outcomes, all of them or some. -/
theorem Orderly.concludes (orderly : Orderly outside world) (hmember : member ∈ world.members)
    (disposition : Disposition) {verdicts : List Verdict}
    (among : (verdicts.map Verdict.row).Sublist
      ((member.session.verdicts disposition).map Verdict.row)) :
  Serving.Concludes verdicts ⟨member.session, world.store⟩
    (Serving.concludeAll ⟨member.session, world.store⟩ verdicts)
  := by
  have sound := (orderly.accounted member hmember).sound
  obtain ⟨others, custody⟩ := orderly.inCustody_session hmember
  apply Serving.concludes_concludeAll sound.sorted custody
  · have hsublist := among.map (·.1)
    rw [List.map_map, List.map_map] at hsublist
    exact (sound.distinct_decided disposition).sublist hsublist
  · intro verdict hverdict
    obtain ⟨other, hother, hrow⟩ :=
      List.mem_map.mp (among.subset (List.mem_map_of_mem hverdict))
    have hfound := sound.found_decided hother
    obtain ⟨hnumber, hdelivery⟩ := Prod.mk.inj hrow
    rw [hnumber, hdelivery] at hfound
    exact hfound

/-- A delivery that is over stays forgotten when what waits is sent, as long as the numbers of
deliveries last. -/
theorem Orderly.forgotten (orderly : Orderly outside world) (hmember : member ∈ world.members)
    {s' : Serving}
    (hs' : s' = Serving.concludeAll ⟨member.session, world.store⟩
      (member.session.verdicts disposition))
    (lasting : (member.proceed [] s'.pumpAll.session).sent < 4294967296) {verdict : Verdict}
    (hverdict : verdict ∈ member.session.verdicts disposition) :
  s'.pumpAll.session.outgoingUnsettled.get? verdict.1 = none
  := by
  have accounted := orderly.accounted member hmember
  have concludes := orderly.concludes hmember disposition (List.Sublist.refl _)
  rw [← hs'] at concludes
  obtain ⟨sent, draws⟩ := s'.draws_pumpAll
  have hbegun : s'.session.begun = member.session.begun := by
    rw [hs']
    rfl
  rw [member.sent_proceed (draws.numbers.begun.trans (by rw [hbegun]))] at lasting
  have sends := accounted.sends (by omega)
  have old := sends.given verdict.1
    (Table.mem_keys_of_get? (accounted.sound.found_decided hverdict))
  have sends' := concludes.sends (by rw [hs']; rfl) sends
  apply Option.eq_none_iff_forall_ne_some.mpr
  intro delivery hget
  have hbefore := draws.numbers.get?_eq_some sends' lasting old hget
  rw [concludes.get?_of_mem hverdict] at hbefore
  contradiction

/-- Deliveries are over up to the first whose message is to be taken in a transaction that is not
open. -/
theorem Orderly.stopped (orderly : Orderly outside world) (hmember : member ∈ world.members)
    (role : disposition.role = .receiver) (nonempty : ¬ disposition.lastId < disposition.first)
    (payload : Bytes) {before after : List Verdict} {verdict : Verdict} {id : Bytes}
    (told : member.session.verdicts disposition = before ++ verdict :: after)
    (known : ∀ earlier ∈ before, earlier.Known member.session.transactions)
    (taken : verdict.takenIn? = some id)
    (unknown : member.session.transactions.contains id = false) :
  (∀ earlier ∈ before, ((Operation.handle (.disposition disposition) payload).after
      ⟨member.session, world.store⟩).Over earlier)
    ∧ ((Operation.handle (.disposition disposition) payload).after
      ⟨member.session, world.store⟩).Over verdict.released
  := by
  have among : ((before ++ [verdict.released]).map Verdict.row).Sublist
      ((member.session.verdicts disposition).map Verdict.row) := by
    rw [told, List.map_append, List.map_append]
    apply List.Sublist.append_left
    exact List.Sublist.cons_cons _ (List.nil_sublist _)
  have concludes := orderly.concludes hmember disposition among
  have hquiet := Operation.quiet_detachWith verdict.2.1.handle (Ledger.unknown id)
    (Serving.concludeAll ⟨member.session, world.store⟩ (before ++ [verdict.released]))
  have hafter : (Operation.handle (.disposition disposition) payload).after
      ⟨member.session, world.store⟩ = _ := congrArg Operation.leaving
    (Operation.handle_of_unknown_taken payload role nonempty told known taken unknown)
  rw [hafter]
  constructor
  · intro earlier hearlier
    have hover := concludes.over (List.mem_append_left _ hearlier) (known earlier hearlier)
    exact hover.of_quiet hquiet
  · have hover := concludes.over (List.mem_append_right _ List.mem_cons_self) (.released _ _)
    exact hover.of_quiet hquiet

/-- A disposition by which the peer settles deliveries of a session of a world. -/
structure Settles (world : World) (index : Nat) (member : Member) (disposition : Disposition)
    (payload : Bytes) : Prop where
  /-- Every unsettled delivery that the disposition speaks of is given an outcome. -/
  decided : (∀ state, disposition.state = some state → state.isTerminal = true) →
    (member.session.verdicts disposition).map Verdict.row = member.session.covered disposition
  /-- None is if the state that is told is no outcome. -/
  informed : ∀ state, disposition.state = some state → state.isTerminal = false →
    member.session.verdicts disposition = []
  /-- If the transactions are open in which messages are to be taken, all these deliveries are over
  before what waits is sent. -/
  settled :
    (∀ verdict ∈ member.session.verdicts disposition,
      verdict.Known member.session.transactions) →
    ∃ s', Serving.Concludes (member.session.verdicts disposition) ⟨member.session, world.store⟩ s'
      ∧ (∀ verdict ∈ member.session.verdicts disposition, s'.Over verdict)
      ∧ Operation.handle (.disposition disposition) payload ⟨member.session, world.store⟩
        = .ok () s'.pumpAll
  /-- None of these deliveries is unsettled then, as long as the numbers of deliveries last. -/
  forgotten :
    (∀ verdict ∈ member.session.verdicts disposition,
      verdict.Known member.session.transactions) →
    ∀ later, (world.step (.tell index disposition payload)).members[index]? = some later →
      later.sent < 4294967296 → ∀ verdict ∈ member.session.verdicts disposition,
        later.session.outgoingUnsettled.get? verdict.1 = none
  /-- If there are deliveries whose messages are to be taken in transactions that are not open,
  then the deliveries up to the first of these are over, and its message is given back. -/
  stopped : ∀ before verdict after id,
    member.session.verdicts disposition = before ++ verdict :: after →
    (∀ earlier ∈ before, earlier.Known member.session.transactions) →
    verdict.takenIn? = some id → member.session.transactions.contains id = false →
    ∀ s', s' = (Operation.handle (.disposition disposition) payload).after
        ⟨member.session, world.store⟩ →
      (∀ earlier ∈ before, s'.Over earlier) ∧ s'.Over verdict.released

/-- Every unsettled delivery that the peer settles is over, whatever came about in the world. -/
theorem disposition_settles (reachable : world.Reachable)
    (hget : world.members[index]? = some member) (role : disposition.role = .receiver)
    (settles : disposition.settled = true) (nonempty : ¬ disposition.lastId < disposition.first)
    (payload : Bytes) :
  Settles world index member disposition payload
  := by
  obtain ⟨outside, orderly, -⟩ := reachable.orderly
  have hmember := List.mem_of_getElem? hget
  have hall := orderly.concludes hmember disposition (List.Sublist.refl _)
  have hhandle := Operation.handle_of_settling (s := ⟨member.session, world.store⟩) payload role
    nonempty settles
  constructor
  · exact deliveries_verdicts settles
  · intro state hstate informal
    exact verdicts_of_informal hstate informal
  · intro known
    refine ⟨_, hall, ?_, hhandle known⟩
    intro verdict hverdict
    exact hall.over hverdict (known verdict hverdict)
  · intro known later hlater lasting verdict hverdict
    obtain rfl := Option.some.inj
      ((step_of_handled hget (hhandle known)).1.symm.trans hlater)
    exact orderly.forgotten hmember rfl lasting hverdict
  · rintro before verdict after id told known taken unknown s' rfl
    exact orderly.stopped hmember role nonempty payload told known taken unknown

/-- A delivery that the peer settles without an outcome is given the default of its link. -/
theorem disposition_settles_of_default :
  ∃ world member, world.members[0]? = some member
    ∧ Settles world 0 member ⟨.receiver, 0, none, true, none, false⟩ []
    ∧ member.session.verdicts ⟨.receiver, 0, none, true, none, false⟩
      = [(0, ⟨0, 0, 0⟩, .released)]
  := ⟨empty.run [.addQueue "q" .unlimited true, .enqueue 0 [0, 1],
      .begin ⟨none, 0, 9, 9, none⟩ ⟨9, 9, 0, true, 512⟩,
      .serve 0 (.handle (.attach
        ⟨"b", 0, .receiver, .mixed, .first,
          some ⟨some "q", none, none, none, false, none, .null, some .released, none, none⟩, none,
          none, none⟩) []),
      .serve 0 (.handle (.flow ⟨some 0, 9, 0, 9, some 0, some 0, some 1, none, false, false⟩) [])],
    _, rfl, disposition_settles ⟨_, rfl⟩ rfl rfl rfl (by decide) [], by decide +kernel⟩

/-- Not every delivery is over that the peer settles: it stays as it is if the peer tells how far it
was received. -/
theorem received_is_not_over :
  ¬ ∀ (world : World) (index : Nat) (member : Member) (disposition : Disposition)
      (payload : Bytes) (s' : Serving), world.Reachable → world.members[index]? = some member →
      disposition.role = .receiver → disposition.settled = true →
      ¬ disposition.lastId < disposition.first →
      Operation.handle (.disposition disposition) payload ⟨member.session, world.store⟩
        = .ok () s' →
      ∀ row ∈ member.session.covered disposition,
        ¬ (s'.session.outgoingUnsettled.get? row.1 = some row.2
          ∧ s'.store.isHeld row.2.place = true)
  := by
  intro claim
  apply claim
    (empty.run [.addQueue "q" .unlimited true, .enqueue 0 [0, 1],
      .begin ⟨none, 0, 9, 9, none⟩ ⟨9, 9, 0, true, 512⟩,
      .serve 0 (.handle (.attach
        ⟨"b", 0, .receiver, .mixed, .first,
          some ⟨some "q", none, none, none, false, none, .null, none, none, none⟩, none, none,
          none⟩) []),
      .serve 0 (.handle (.flow ⟨some 0, 9, 0, 9, some 0, some 0, some 1, none, false, false⟩) [])])
    0 _ ⟨.receiver, 0, none, true, some (.received 0 0), false⟩ [] _ ⟨_, rfl⟩ rfl rfl rfl
    (by decide)
    (Operation.handle_of_known [] rfl (by decide) (verdicts_of_informal rfl rfl) (by simp))
    (0, ⟨0, 0, 0⟩)
  · decide +kernel
  · exact ⟨by decide +kernel, by decide +kernel⟩

end World

end MessageBroker
