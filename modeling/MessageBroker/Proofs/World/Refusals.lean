import MessageBroker.Proofs.Session.Receipts
import MessageBroker.Proofs.Session.Rejecting
import MessageBroker.Proofs.World.Replenishing

/-!
# Refusals are told once

A delivery to a queue is refused with the transfer that makes it too large, or with the last one if
its message is durable on a broker that keeps none, or part of a transaction that is not open.
However its transfers are mixed with whatever else happens in a world, the peer is told once, by a
disposition or by a detach, and no queue and no transaction changes.
-/

namespace MessageBroker

open Session Parcel

namespace Member

/-- What a session has told its peer, or is to tell, about deliveries from the peer. -/
def receipts (member : Member) : List Outgoing :=
  member.taken.filter Outgoing.isReceipt ++ member.session.receipts

/-- A session comes from another by an action by which at most one thing is told about deliveries
from the peer, namely about one that arrives on another link than a given one. -/
inductive TellsApart (handle : UInt32) (member member' : Member) : Prop where
  /-- Nothing is told. -/
  | mute (same : member'.receipts = member.receipts)
  /-- It is told what became of the delivery of a transfer on another link. -/
  | told {transfer : Transfer} {endpoint : Endpoint} {taken : Assembly} {settlement : Settlement}
      (apart : transfer.handle ≠ handle)
      (there : member.session.endpoints.get? transfer.handle = some endpoint)
      (belongs : (endpoint.takeAssembly transfer).1 = .ok taken) (names : settlement.id = taken.id)
      (told : member'.receipts
        = member.taken.filter Outgoing.isReceipt ++ (member.session.tell settlement).receipts)

theorem tellsApart_run (member : Member) (store : QueueStore) {act : Session.Act} {handle : UInt32}
    (apart : ∀ transfer payload, act = .handle (.transfer transfer) payload →
      transfer.handle ≠ handle) :
  member.TellsApart handle (member.run store act).1
  := by
  by_cases taking : act = .takeOutput
  · subst taking
    apply TellsApart.mute
    change (member.taken ++ member.session.pending).filter Outgoing.isReceipt ++ [] = _
    rw [List.append_nil, List.filter_append]
    rfl
  · have same := taken_run taking member store
    cases act.acknowledges_run taking ⟨member.session, store⟩ with
    | mute mute =>
        apply TellsApart.mute
        rw [receipts, same]
        exact congrArg _ mute
    | @told transfer payload endpoint taken settlement asked there belongs names told =>
        refine .told (apart transfer payload asked) there belongs names ?_
        rw [receipts, same]
        exact congrArg _ told

end Member

namespace World

variable {world world' : World} {index : Nat} {handle : UInt32} {member : Member}
  {endpoint endpoint' : Endpoint} {queue : QueueId} {id : UInt32} {mode : ReceiverSettleMode}
  {tag : Bytes} {parcels : List Parcel}

/-- The end of a link checks a delivery with a tag, of which the given transfers have arrived. -/
def Minds (endpoint : Endpoint) (id : UInt32) (mode : ReceiverSettleMode) (tag : Bytes)
    (queue : QueueId) (parcels : List Parcel) (endpoint' : Endpoint) : Prop :=
  parcels = [] ∧ endpoint' = endpoint
    ∨ parcels ≠ [] ∧ endpoint'.Checks queue endpoint.link id mode tag parcels

/-- The next transfer of a delivery is taken where the delivery is checked. -/
theorem Minds.takes (minds : Minds endpoint id mode tag queue parcels endpoint')
    (kind : endpoint.kind = .receiving queue) {parcel : Parcel}
    (starts : ∀ first ∈ (parcels ++ [parcel]).head?,
      endpoint.Starts first.1 id mode ∧ first.1.deliveryTag = some tag) :
  endpoint'.Serves queue endpoint.link
    ∧ (endpoint'.link.detachSent = false → ∃ taken next,
        endpoint'.TakesNext endpoint.link id mode tag parcels parcel.1 taken next)
  := by
  obtain ⟨rfl, rfl⟩ | ⟨-, checks⟩ := minds
  · obtain ⟨begins, tagged⟩ := starts parcel rfl
    exact ⟨⟨kind, rfl, rfl⟩, fun _ => begins.takesNext tagged⟩
  · exact ⟨checks.serves, fun attached => checks.takesNext attached parcel.1⟩

/-- The transfers of a delivery that have arrived are checked. -/
theorem Arrives.minds (arrives : Arrives index handle world parcels world')
    (reachable : world.Reachable) (hget : world.members[index]? = some member)
    (window : member.session.limits.incomingWindow ≠ 0)
    (hendpoint : member.session.endpoints.get? handle = some endpoint)
    (kind : endpoint.kind = .receiving queue)
    (starts : ∀ first ∈ parcels.head?,
      endpoint.Starts first.1 id mode ∧ first.1.deliveryTag = some tag) :
  ∃ member' endpoint', world'.members[index]? = some member'
    ∧ member'.session.limits = member.session.limits
    ∧ member'.session.endpoints.get? handle = some endpoint'
    ∧ Minds endpoint id mode tag queue parcels endpoint'
  := by
  refine arrives.carries
    (B := fun first => endpoint.Starts first.1 id mode ∧ first.1.deliveryTag = some tag)
    (P := Minds endpoint id mode tag queue) reachable hget window hendpoint (.inl ⟨rfl, rfl⟩) ?_ ?_
    starts
  · rintro parcels endpoint' endpoint'' begun (⟨hnil, -⟩ | ⟨-, checks⟩) continues
    · contradiction
    · exact .inr ⟨begun, checks.of_continues continues⟩
  · intro s known parcels endpoint' transfer payload attached hwindow hendpoint' minds starts more
      aborted
    obtain ⟨serves, takes⟩ := minds.takes kind starts
    obtain ⟨endpoint'', hendpoint'', checks⟩ := Operation.checks_of_more attached hwindow hendpoint'
      serves takes more aborted payload
    exact ⟨endpoint'', hendpoint'', .inr ⟨by simp, checks⟩⟩

/-- By an action the peer of a session sends a transfer on a link. -/
def Action.Transfers (index : Nat) (handle : UInt32) (action : Action) : Prop :=
  ∃ transfer payload, action = .serve index (.handle (.transfer transfer) payload)
    ∧ transfer.handle = handle

/-- Unless the peer sends a transfer on a link, nothing is told about the deliveries that arrive on
it. -/
theorem tellsApart_step (hget : world.members[index]? = some member) {action : Action}
    (apart : ¬ action.Transfers index handle) :
  ∃ later, (world.step action).members[index]? = some later ∧ member.TellsApart handle later
  := by
  rcases member_step hget action with ⟨act, rfl, hmember, -⟩ | ⟨-, hmember⟩
  · refine ⟨_, hmember, member.tellsApart_run world.store ?_⟩
    rintro transfer payload rfl same
    exact apart ⟨transfer, payload, rfl, same⟩
  · exact ⟨member, hmember, .mute rfl⟩

/-- Whatever else happens in a world between the transfers of a delivery, the delivery is refused
once: the peer is told that it is rejected, and the link goes on without it, or the link is detached
and nothing more is told about it until it is attached anew, unless the peer asks.  By what happens
besides nothing is told about the delivery. -/
theorem refused_once (reachable : world.Reachable) {config : BrokerConfig} {size : UInt32}
    (valid : config.validate = .ok ()) (hget : world.members[index]? = some member)
    (limits : member.session.limits = config.sessionLimits size)
    (hendpoint : member.session.endpoints.get? handle = some endpoint)
    (kind : endpoint.kind = .receiving queue)
    (arrives : Arrives index handle world parcels world') {transfer : Transfer} {payload : Bytes}
    (same : transfer.handle = handle)
    (starts : ∀ first ∈ (parcels ++ [(transfer, payload)]).head?,
      endpoint.Starts first.1 id mode ∧ first.1.deliveryTag = some tag) :
  ∃ member' endpoint' member'', world'.members[index]? = some member'
    ∧ member'.session.endpoints.get? handle = some endpoint'
    ∧ (world'.step (.serve index (.handle (.transfer transfer) payload))).members[index]?
        = some member''
    ∧ RefusesOnce endpoint.link id tag parcels (transfer, payload) endpoint'
        ⟨member'.session, world'.store⟩
        ⟨member''.session, (world'.step (.serve index (.handle (.transfer transfer) payload))).store⟩
    ∧ (member''.session.Parted handle →
        (world'.step (.serve index (.handle (.transfer transfer) payload))).Silent index member''
          handle)
    ∧ ∀ action : Action, ¬ action.Transfers index handle →
        ∃ later, (world'.step action).members[index]? = some later
          ∧ member'.TellsApart handle later
  := by
  have window : member.session.limits.incomingWindow ≠ 0 := by
    rw [limits]
    exact incomingWindow_of_validate valid
  obtain ⟨member', endpoint', hget', hlimits, hendpoint', minds⟩ :=
    arrives.minds reachable hget window hendpoint kind (starts_of_append starts)
  obtain ⟨serves, takes⟩ := minds.takes kind starts
  have reachable' := arrives.reachable reachable
  have hmem := List.mem_of_getElem? hget'
  have housed := reachable'.housed member' hmem
  have hwindow : member'.session.incomingWindow ≠ 0 := by
    apply housed.window
    rw [hlimits]
    exact window
  have positive : member'.session.limits.linkCredit ≠ 0 := by
    rw [hlimits, limits]
    exact linkCredit_of_validate valid
  subst same
  have issued := (reachable'.issued transfer.handle member' hmem).2
  have once := Operation.refusesOnce_handle (s := ⟨member'.session, world'.store⟩) housed.attached
    hwindow positive issued hendpoint' serves takes payload
  refine ⟨member', endpoint', _, hget', hendpoint', member_serve hget' _, ?_, fun parted => ?_,
    fun action apart => tellsApart_step hget' apart⟩
  · rw [store_serve hget']
    exact once
  · exact silent_of_parted (reachable'.run [.serve index (.handle (.transfer transfer) payload)])
      (member_serve hget' _) parted

/-- The peer has attached a link on which the broker accepts two octets, with the outcomes that may
be chosen at its source. -/
def narrow (outcomes : Option (List Symbol)) : World :=
  empty.run [.addQueue "q" .unlimited true,
    .begin ⟨none, 0, 9, 9, none⟩
      ({ BrokerConfig.standard with maxMessageSize := 2 }.sessionLimits 512),
    .serve 0 (.handle (.attach ⟨"a", 0, .sender, .mixed, .first,
      some ⟨none, none, none, none, false, none, .null, none, outcomes, none⟩,
      some (.node ⟨some "q", none, none, none, false, none⟩), some 0, none⟩) [])]

/-- The first transfer of a delivery carries three octets. -/
theorem refused_once_of_three_octets :
  let transfer : Transfer := { Transfer.opening 0 0 false with deliveryTag := some [1], more := true }
  let refused : World → World := (·.step (.serve 0 (.handle (.transfer transfer) [0, 0, 0])))
  (∃ member endpoint member' flows, (narrow (some [⟨rejectedOutcome⟩])).members[0]? = some member
      ∧ member.session.endpoints.get? 0 = some endpoint
      ∧ (refused (narrow (some [⟨rejectedOutcome⟩]))).members[0]? = some member'
      ∧ member'.session.pending
        = (member.session.tell ⟨0, true, .rejected (some (endpoint.link.oversize 3))⟩).pending
          ++ outgoingFlows flows)
    ∧ ∃ member endpoint member' flows, (narrow none).members[0]? = some member
      ∧ member.session.endpoints.get? 0 = some endpoint
      ∧ (refused (narrow none)).members[0]? = some member'
      ∧ member'.session.pending = member.session.pending ++ outgoingFlows flows
          ++ [outgoingDetach 0 (endpoint.link.oversize 3)]
      ∧ (refused (narrow none)).Silent 0 member' 0
  := by
  intro transfer refused
  have valid : { BrokerConfig.standard with maxMessageSize := 2 }.validate = .ok () := rfl
  have arrives (outcomes : Option (List Symbol)) :
      Arrives 0 0 (narrow outcomes) [] (narrow outcomes) := .start
  have names : transfer.handle = 0 := rfl
  constructor
  · obtain ⟨member, endpoint, member', hget, there, hget', once, -, -⟩ :=
      refused_once ⟨_, rfl⟩ valid rfl rfl rfl rfl (arrives (some [⟨rejectedOutcome⟩])) names
        (fun first (hmem : first ∈ List.head? ([] ++ [(_, [0, 0, 0])])) => by
          cases hmem
          exact ⟨⟨rfl, rfl, ⟨_, rfl, fun _ => rfl⟩, rfl, rfl⟩, rfl⟩)
    cases hget
    cases there
    obtain ⟨-, ⟨flows, told⟩, -⟩ := once.rejected _ ⟨rfl, rfl, .oversize rfl rfl⟩ ⟨rfl, rfl⟩
    exact ⟨_, _, member', flows, rfl, rfl, hget', told⟩
  · obtain ⟨member, endpoint, member', hget, there, hget', once, silent, -⟩ :=
      refused_once ⟨_, rfl⟩ valid rfl rfl rfl rfl (arrives none) names
        (fun first (hmem : first ∈ List.head? ([] ++ [(_, [0, 0, 0])])) => by
          cases hmem
          exact ⟨⟨rfl, rfl, ⟨_, rfl, fun _ => rfl⟩, rfl, rfl⟩, rfl⟩)
    cases hget
    cases there
    obtain ⟨-, ⟨flows, told⟩, parted⟩ := once.detached _ ⟨rfl, rfl, .oversize rfl rfl⟩ (by
      rintro ⟨supports, -⟩
      contradiction)
    exact ⟨_, _, member', flows, rfl, rfl, hget', told, silent parted⟩

end World

end MessageBroker
