import MessageBroker.Proofs.Session.Attaching
import MessageBroker.Proofs.Session.Purse
import MessageBroker.Proofs.World.Draining

/-!
# Flows without a delivery count

The broker announces the delivery count that the peer proposes for a link, and counts its deliveries
from there.  A flow without a delivery count, however, refers to the count zero: the link gets less
credit than the flow grants by as much as its delivery count is ahead of zero, and not of the count
that was announced.
-/

namespace MessageBroker

open Session

/-- Messages go to the peer on a link that it is to receive on, if the link is accepted. -/
theorem EndpointKind.isSending_of_ofAttach {store : QueueStore} {attach : Attach}
    {kind : EndpointKind} (receives : attach.role = .receiver)
    (accepted : EndpointKind.ofAttach store attach = .ok kind) :
  kind.isSending = true
  := by
  rw [ofAttach, receives] at accepted
  cases hqueue : queueAt store (attach.source.bind (·.address)) with
  | error report =>
      rw [hqueue] at accepted
      contradiction
  | ok queue =>
      rw [hqueue] at accepted
      change (if attach.source.any Source.isBrowser then Except.ok (.browsing (.new queue))
        else .ok (.consuming queue)) = .ok kind at accepted
      split at accepted
      · cases accepted
        rfl
      · cases accepted
        rfl

/-- What credit a flow gives a link, as far as the delivery count of the link is ahead of the one
that the flow refers to. -/
theorem Endpoint.granted_credited {endpoint : Endpoint} {ahead : UInt32} {flow : Flow}
    (h : endpoint.link.credit.deliveryCount = flow.reference + ahead) :
  (endpoint.credited flow).link.credit.credit.toNat = flow.granted.toNat - ahead.toNat
  := by
  change (LinkCredit.remaining flow.reference flow.granted
    endpoint.link.credit.deliveryCount).toNat = _
  rw [h, LinkCredit.remaining_add]

namespace World

variable {world : World} {index : Nat} {member : Member} {handle : UInt32} {credit : LinkCredit}

/-- By an action the peer of a session wants the credit of a link to be given back. -/
def Action.Drains (index : Nat) (handle : UInt32) (action : Action) : Prop :=
  ∃ act, action = .serve index act ∧ act.Drains handle

/-- The delivery count of a link goes on by the deliveries that are sent on it, and further only if
the peer wants its credit given back. -/
theorem counted_step (reachable : world.Reachable) (hget : world.members[index]? = some member)
    {action : Action} (lasting : ¬ action.Drops index handle)
    (hsender : member.session.sender? handle = some credit) :
  ∃ later credit' used sent, (world.step action).members[index]? = some later
    ∧ later.sentOn handle = member.sentOn handle + sent
    ∧ later.session.sender? handle = some credit'
    ∧ credit'.deliveryCount = credit.deliveryCount + .ofNat used
    ∧ (¬ action.Drains index handle → used = sent)
  := by
  by_cases credits : action.Credits index handle
  · obtain ⟨act, rfl, hact⟩ := credits
    obtain ⟨flow, payload, names, rfl⟩ := Session.Act.flow_of_credits hact
    have hlater := member_serve hget (.handle (.flow flow) payload)
    obtain ⟨sent, credit', hsent, hsender', hspends, -⟩ := spends_flow_run reachable hget names
      hsender payload [] (by simp) (by simp) hlater
    obtain ⟨used, -, -, rfl, hall⟩ := hspends.goes
    refine ⟨_, _, used, sent, hlater, hsent, hsender', rfl, fun keeps => ?_⟩
    rcases hall with hsame | ⟨drain, -⟩
    · exact hsame
    · exact absurd ⟨_, rfl, names, drain⟩ keeps
  · obtain ⟨later, sent, hlater, hsent, hsender'⟩ :=
      onward_step reachable hget credits lasting hsender
    exact ⟨later, _, sent, sent, hlater, hsent, hsender', rfl, fun _ => rfl⟩

theorem counted_run (reachable : world.Reachable) (hget : world.members[index]? = some member)
    {actions : List Action} (lasting : ∀ action ∈ actions, ¬ action.Drops index handle)
    (hsender : member.session.sender? handle = some credit) :
  ∃ later credit' used sent, (world.run actions).members[index]? = some later
    ∧ later.sentOn handle = member.sentOn handle + sent
    ∧ later.session.sender? handle = some credit'
    ∧ credit'.deliveryCount = credit.deliveryCount + .ofNat used
    ∧ ((∀ action ∈ actions, ¬ action.Drains index handle) → used = sent)
  := by
  induction actions generalizing world member credit with
  | nil => exact ⟨member, credit, 0, 0, hget, rfl, hsender, by simp, fun _ => rfl⟩
  | cons action actions ih =>
      obtain ⟨middle, credit', used, sent, hmiddle, hsent, hsender', hcount, hkept⟩ :=
        counted_step reachable hget (lasting action List.mem_cons_self) hsender
      obtain ⟨later, credit'', used', sent', hlater, hsent', hsender'', hcount', hkept'⟩ :=
        ih (reachable.run [action]) hmiddle
          (fun other hmem => lasting other (List.mem_cons_of_mem action hmem)) hsender'
      refine ⟨later, credit'', used + used', sent + sent', hlater, ?_, hsender'', ?_, ?_⟩
      · rw [hsent', hsent, Nat.add_assoc]
      · rw [hcount', hcount, UInt32.ofNat_add, UInt32.add_assoc]
      · intro keeps
        rw [hkept (keeps action List.mem_cons_self),
          hkept' fun other hmem => keeps other (List.mem_cons_of_mem action hmem)]

/-- How a session credits a link for which it announced the delivery count `initial`, on which it
has sent nothing, and given `given` of its credit back. -/
structure CountsFrom (s : Serving) (handle initial given : UInt32) (endpoint : Endpoint) :
    Prop where
  /-- The end of the link is there. -/
  there : s.session.endpoints.get? handle = some endpoint
  /-- The delivery count has gone on by the credit that was given back. -/
  counted : endpoint.link.credit.deliveryCount = initial + given
  /-- A flow that names the link gives it credit, and not another delivery count, before anything is
  sent. -/
  credited : ∀ flow payload, flow.handle = some handle →
    Operation.handle (.flow flow) payload s
        = .ok () (((s.credited flow handle endpoint).pump handle).echo flow handle)
      ∧ (endpoint.credited flow).link.credit.deliveryCount = initial + given
  /-- A flow with the delivery count that was announced gives the credit that it grants, less what
  was given back. -/
  announced : ∀ flow : Flow, flow.deliveryCount = some initial →
    (endpoint.credited flow).link.credit.credit.toNat = flow.granted.toNat - given.toNat
  /-- A flow without a delivery count gives the credit that it grants, less all that the delivery
  count is ahead of zero. -/
  absent : ∀ flow : Flow, flow.deliveryCount = none →
    (endpoint.credited flow).link.credit.credit.toNat
      = flow.granted.toNat - (initial + given).toNat

theorem countsFrom_of_sender? {initial given : UInt32}
    (hsender : member.session.sender? handle = some credit)
    (hcount : credit.deliveryCount = initial + given) :
  ∃ endpoint, CountsFrom ⟨member.session, world.store⟩ handle initial given endpoint
  := by
  obtain ⟨meter, hmeter, sending, rfl⟩ := Session.sender?_eq_some_iff.mp hsender
  obtain ⟨endpoint, there, rfl⟩ := Option.map_eq_some_iff.mp hmeter
  replace sending : endpoint.kind.isSending = true := sending
  have same : endpoint.meter.credit = endpoint.link.credit := by
    rw [Endpoint.meter, sending]
    rfl
  rw [same] at hcount
  refine ⟨endpoint, there, hcount, ?_, ?_, ?_⟩
  · intro flow payload names
    have handled := Operation.handle_of_onFlow
      (Operation.onFlow_of_get? names (s := ⟨member.session, world.store⟩) there) payload
    rw [if_pos sending] at handled
    exact ⟨handled, hcount⟩
  · intro flow announced
    apply Endpoint.granted_credited
    rw [hcount, Flow.reference, announced]
    rfl
  · intro flow absent
    apply Endpoint.granted_credited
    rw [hcount, Flow.reference, absent, Option.getD_none, UInt32.zero_add]

/-- The peer attaches a link that it is to receive on, and the broker announces the delivery count
that the peer proposes. -/
theorem announced_step (hget : world.members[index]? = some member) {attach : Attach}
    (receives : attach.role = .receiver)
    (free : member.session.endpoints.get? attach.handle = none) {kind : EndpointKind}
    (accepted : EndpointKind.ofAttach world.store attach = .ok kind) (payload : Bytes) :
  ∃ after reply, (world.step (.attach index attach payload)).members[index]? = some after
    ∧ after.told attach.handle = member.told attach.handle ++ [⟨.attach reply, none⟩]
    ∧ reply.initialDeliveryCount = some (attach.initialDeliveryCount.getD 0)
    ∧ after.session.sender? attach.handle = some (.start (attach.initialDeliveryCount.getD 0))
  := by
  have sends := EndpointKind.isSending_of_ofAttach receives accepted
  have handled := Operation.after_of_ok (Operation.handle_attach_of_sending
    (s := ⟨member.session, world.store⟩) free accepted (Endpoint.isReceiving_of_isSending sends)
    payload)
  have role : (Link.ofAttach attach member.session.limits.maxMessageSize).role = .sender := by
    change attach.role.opposite = _
    rw [receives]
    rfl
  refine ⟨_, (Link.ofAttach attach member.session.limits.maxMessageSize).sendAttach.1,
    member_serve hget _, ?_, ?_, ?_⟩
  · rw [Member.told_eq, Member.told_eq, Member.taken_run (by simp), List.append_assoc]
    apply congrArg
    change Session.told attach.handle
      ((Operation.handle (.attach attach) payload).after ⟨member.session, world.store⟩).session = _
    rw [handled]
    exact (member.session.told_emit attach.handle
      (.attach (Link.ofAttach attach member.session.limits.maxMessageSize).sendAttach.1)
      none).trans (by rw [if_pos (by rfl)])
  · rw [Link.sendAttach]
    dsimp only
    rw [role]
    rfl
  · change ((Operation.handle (.attach attach) payload).after
      ⟨member.session, world.store⟩).session.sender? attach.handle = _
    rw [handled]
    exact sender?_putEndpoint _ sends

/-- The broker announces the delivery count that the peer proposes for a link.  As long as nothing
is sent on the link, a flow with that count gives the link the credit that it grants, less what was
given back; a flow without a delivery count gives it less by the count that was announced, too. -/
theorem credit_counted_from_zero (reachable : world.Reachable)
    (hget : world.members[index]? = some member) {attach : Attach}
    (receives : attach.role = .receiver)
    (free : member.session.endpoints.get? attach.handle = none) {kind : EndpointKind}
    (accepted : EndpointKind.ofAttach world.store attach = .ok kind) (payload : Bytes) :
  ∃ after reply, (world.step (.attach index attach payload)).members[index]? = some after
    ∧ after.told attach.handle = member.told attach.handle ++ [⟨.attach reply, none⟩]
    ∧ reply.initialDeliveryCount = some (attach.initialDeliveryCount.getD 0)
    ∧ ∀ actions, (∀ action ∈ actions, ¬ action.Drops index attach.handle) →
      ∃ later, ((world.step (.attach index attach payload)).run actions).members[index]? = some later
        ∧ (later.sentOn attach.handle = after.sentOn attach.handle →
          ∃ endpoint given, CountsFrom
              ⟨later.session, ((world.step (.attach index attach payload)).run actions).store⟩
              attach.handle (attach.initialDeliveryCount.getD 0) given endpoint
            ∧ ((∀ action ∈ actions, ¬ action.Drains index attach.handle) → given = 0))
  := by
  obtain ⟨after, reply, hafter, told, announced, hsender⟩ :=
    announced_step hget receives free accepted payload
  refine ⟨after, reply, hafter, told, announced, fun actions lasting => ?_⟩
  obtain ⟨later, credit, used, sent, hlater, hsent, hsender', hcount, hkept⟩ :=
    counted_run (reachable.run [.attach index attach payload]) hafter lasting hsender
  refine ⟨later, hlater, fun unsent => ?_⟩
  obtain ⟨endpoint, counts⟩ := countsFrom_of_sender? hsender' hcount
  refine ⟨endpoint, .ofNat used, counts, fun keeps => ?_⟩
  have none : sent = 0 := by omega
  rw [hkept keeps, none]
  rfl

/-- A world with a queue and a session that has just begun. -/
def serving : World :=
  empty.run [.addQueue "q" .unlimited true, .begin ⟨none, 0, 9, 9, none⟩ ⟨9, 9, 0, true, 512⟩]

/-- The peer attaches a link to receive messages of the queue on, and proposes a delivery count. -/
def proposal (initial : UInt32) : Attach :=
  ⟨"b", 0, .receiver, .mixed, .first,
    some ⟨some "q", none, none, none, false, none, .null, none, none, none⟩, none, some initial,
    none⟩

/-- The peer grants three deliveries on the link. -/
def Action.granting (deliveryCount : Option UInt32) : Action :=
  .flow 0 ⟨some 0, 9, 0, 9, some 0, deliveryCount, some 3, none, false, false⟩ []

/-- A flow that grants three deliveries gives no credit to a link that counts from five, unless it
says so. -/
theorem credit_counted_from_zero_of_five :
  ∃ after endpoint, (serving.step (.attach 0 (proposal 5) [])).members[0]? = some after
    ∧ CountsFrom ⟨after.session, (serving.step (.attach 0 (proposal 5) [])).store⟩ 0 5 0 endpoint
    ∧ (((serving.run [.attach 0 (proposal 5) [], .granting none]).members[0]?.bind
        (·.session.sender? 0)).map (·.credit)) = some 0
    ∧ (((serving.run [.attach 0 (proposal 5) [], .granting (some 5)]).members[0]?.bind
        (·.session.sender? 0)).map (·.credit)) = some 3
  := by
  have hget : serving.members[0]? = some _ := rfl
  have receives : (proposal 5).role = .receiver := rfl
  obtain ⟨after, reply, hafter, -, -, counts⟩ :=
    credit_counted_from_zero ⟨_, rfl⟩ hget receives rfl rfl []
  obtain ⟨later, hlater, counts⟩ := counts [] (by simp)
  obtain rfl := Option.some.inj (hafter.symm.trans hlater)
  obtain ⟨endpoint, given, counts, kept⟩ := counts rfl
  obtain rfl := kept (by simp)
  exact ⟨after, endpoint, hafter, counts, by decide +kernel, by decide +kernel⟩

end World

end MessageBroker
