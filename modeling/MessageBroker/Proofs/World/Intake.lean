import MessageBroker.Proofs.Session.Gathering
import MessageBroker.Proofs.World.Links
import MessageBroker.Proofs.World.Prepending

/-!
# Messages come in once

However the transfers of a delivery are mixed with whatever else happens in a world, its message is
put into the queue of its link once, with what the transfers carried, or not at all.  It is put
there with the last transfer; until then nothing is told about it.
-/

namespace MessageBroker.World

open Session Parcel

/-- What happens in a world concerns the delivery that arrives on a link of a session. -/
def Action.Concerns (index : Nat) (handle : UInt32) (action : Action) : Prop :=
  ∃ act, action = .serve index act ∧ act.Concerns handle

/-- The first transfers of a delivery arrive on a link of a session.  After each of them anything
may happen that does not concern the link. -/
inductive Arrives (index : Nat) (handle : UInt32) (world : World) : List Parcel → World → Prop where
  /-- None has arrived. -/
  | start : Arrives index handle world [] world
  /-- Something else happens. -/
  | pass {parcels : List Parcel} {world' : World} {action : Action}
    (arrives : Arrives index handle world parcels world') (begun : parcels ≠ [])
    (apart : ¬ action.Concerns index handle) :
    Arrives index handle world parcels (world'.step action)
  /-- The next transfer arrives, which is not the last one. -/
  | more {parcels : List Parcel} {world' : World} {transfer : Transfer} {payload : Bytes}
    (arrives : Arrives index handle world parcels world') (same : transfer.handle = handle)
    (more : transfer.more = true) (aborted : transfer.aborted = false) :
    Arrives index handle world (parcels ++ [(transfer, payload)])
      (world'.step (.serve index (.handle (.transfer transfer) payload)))

variable {world world' : World} {index : Nat} {handle : UInt32} {member : Member}
  {endpoint : Endpoint} {queue : QueueId} {id : UInt32} {mode : ReceiverSettleMode}
  {parcels : List Parcel}

theorem Arrives.reachable (arrives : Arrives index handle world parcels world')
    (reachable : world.Reachable) :
  world'.Reachable
  := by
  induction arrives with
  | start => exact reachable
  | @pass parcels world' action _ _ _ ih => exact ih.run [action]
  | @more parcels world' transfer payload _ _ _ _ ih =>
      exact ih.run [.serve index (.handle (.transfer transfer) payload)]

/-- How a delivery starts does not depend on what comes after. -/
theorem starts_of_append {B : Parcel → Prop} {parcel : Parcel}
    (starts : ∀ first ∈ (parcels ++ [parcel]).head?, B first) :
  ∀ first ∈ parcels.head?, B first
  := by
  cases parcels with
  | nil => simp
  | cons first others => exact starts

/-- What is done with a session that does not concern a link lets the link go on. -/
theorem continues_step (reachable : world.Reachable)
    (hget : world.members[index]? = some member)
    (hendpoint : member.session.endpoints.get? handle = some endpoint) {action : Action}
    (apart : ¬ action.Concerns index handle) :
  ∃ member' endpoint', (world.step action).members[index]? = some member'
    ∧ member'.session.limits = member.session.limits
    ∧ member'.session.endpoints.get? handle = some endpoint' ∧ endpoint.Continues endpoint'
  := by
  rcases member_step hget action with ⟨act, rfl, hmember, -⟩ | ⟨-, hmember⟩
  · have hunder := (reachable.housed member (List.mem_of_getElem? hget)).attached _ _ hendpoint
    have hcontinues := act.continues_run (s := ⟨member.session, world.store⟩)
      (fun _ h => h) handle
    obtain ⟨endpoint', hget', continues⟩ := hcontinues.goes
      (fun hconcerns => apart ⟨act, rfl, hconcerns⟩) endpoint hendpoint hunder.detachReceived
    exact ⟨_, endpoint', hmember, hcontinues.limits, hget', continues⟩
  · exact ⟨member, endpoint, hmember, rfl, hendpoint, .refl endpoint⟩

/-- What holds of the end of a link before a delivery arrives, and goes on to hold as the link goes
on and as the transfers of the delivery are handled, holds when they have arrived. -/
theorem Arrives.carries {B : Parcel → Prop} {P : List Parcel → Endpoint → Prop}
    (arrives : Arrives index handle world parcels world') (reachable : world.Reachable)
    (hget : world.members[index]? = some member)
    (window : member.session.limits.incomingWindow ≠ 0)
    (hendpoint : member.session.endpoints.get? handle = some endpoint)
    (start : P [] endpoint)
    (passes : ∀ {parcels endpoint' endpoint''}, parcels ≠ [] → P parcels endpoint' →
      endpoint'.Continues endpoint'' → P parcels endpoint'')
    (takes : ∀ {s : Serving} {known parcels endpoint' transfer} (payload : Bytes),
      s.session.Attached known → s.session.incomingWindow ≠ 0 →
      s.session.endpoints.get? transfer.handle = some endpoint' → P parcels endpoint' →
      (∀ first ∈ (parcels ++ [(transfer, payload)]).head?, B first) →
      transfer.more = true → transfer.aborted = false →
      ∃ endpoint'', ((Operation.handle (.transfer transfer) payload).after s).session.endpoints.get?
          transfer.handle = some endpoint''
        ∧ P (parcels ++ [(transfer, payload)]) endpoint'')
    (starts : ∀ first ∈ parcels.head?, B first) :
  ∃ member' endpoint', world'.members[index]? = some member'
    ∧ member'.session.limits = member.session.limits
    ∧ member'.session.endpoints.get? handle = some endpoint' ∧ P parcels endpoint'
  := by
  induction arrives with
  | start => exact ⟨member, endpoint, hget, rfl, hendpoint, start⟩
  | @pass parcels world' action arrives begun apart ih =>
      obtain ⟨member', endpoint', hget', hlimits, hendpoint', carries⟩ := ih starts
      obtain ⟨member'', endpoint'', hget'', hlimits', hendpoint'', continues⟩ :=
        continues_step (arrives.reachable reachable) hget' hendpoint' apart
      exact ⟨member'', endpoint'', hget'', hlimits'.trans hlimits, hendpoint'',
        passes begun carries continues⟩
  | @more parcels world' transfer payload arrives same more aborted ih =>
      obtain ⟨member', endpoint', hget', hlimits, hendpoint', carries⟩ :=
        ih (starts_of_append starts)
      have housed := (arrives.reachable reachable).housed member' (List.mem_of_getElem? hget')
      have hwindow : member'.session.incomingWindow ≠ 0 := by
        apply housed.window
        rw [hlimits]
        exact window
      subst same
      obtain ⟨endpoint'', hendpoint'', carries'⟩ := takes (s := ⟨member'.session, world'.store⟩)
        payload housed.attached hwindow hendpoint' carries starts more aborted
      have hcontinues := Session.Act.continues_run (.handle (.transfer transfer) payload)
        (s := ⟨member'.session, world'.store⟩) (fun _ h => h) 0
      exact ⟨_, endpoint'', member_serve hget' _, hcontinues.limits.trans hlimits, hendpoint'',
        carries'⟩

/-- The end of a link awaits the next transfer of a delivery, of which the given ones have
arrived. -/
def Awaits (endpoint : Endpoint) (id : UInt32) (mode : ReceiverSettleMode) (queue : QueueId)
    (parcels : List Parcel) (endpoint' : Endpoint) : Prop :=
  parcels = [] ∧ endpoint' = endpoint
    ∨ parcels ≠ [] ∧ endpoint'.Gathering queue endpoint.link id mode parcels

/-- The next transfer of a delivery is taken. -/
theorem Awaits.takes {endpoint' : Endpoint} (awaits : Awaits endpoint id mode queue parcels endpoint')
    (kind : endpoint.kind = .receiving queue) {parcel : Parcel}
    (starts : ∀ first ∈ (parcels ++ [parcel]).head?, endpoint.Starts first.1 id mode) :
  endpoint'.kind = .receiving queue
    ∧ endpoint'.link.maxMessageSize = endpoint.link.maxMessageSize
    ∧ (endpoint'.link.detachSent = false →
        endpoint'.Takes endpoint.link id mode parcels parcel.1)
  := by
  obtain ⟨rfl, rfl⟩ | ⟨-, gathering⟩ := awaits
  · exact ⟨kind, rfl, fun _ => (starts parcel rfl).takes⟩
  · exact ⟨gathering.kind, gathering.limit, gathering.takes parcel.1⟩

/-- The transfers of a delivery that have arrived are gathered. -/
theorem Arrives.awaits (arrives : Arrives index handle world parcels world')
    (reachable : world.Reachable) (hget : world.members[index]? = some member)
    (window : member.session.limits.incomingWindow ≠ 0)
    (hendpoint : member.session.endpoints.get? handle = some endpoint)
    (kind : endpoint.kind = .receiving queue)
    (starts : ∀ first ∈ parcels.head?, endpoint.Starts first.1 id mode) :
  ∃ member' endpoint', world'.members[index]? = some member'
    ∧ member'.session.limits = member.session.limits
    ∧ member'.session.endpoints.get? handle = some endpoint'
    ∧ Awaits endpoint id mode queue parcels endpoint'
  := by
  refine arrives.carries (B := fun first => endpoint.Starts first.1 id mode)
    (P := Awaits endpoint id mode queue) reachable hget window hendpoint (.inl ⟨rfl, rfl⟩) ?_ ?_
    starts
  · rintro parcels endpoint' endpoint'' begun (⟨hnil, -⟩ | ⟨-, gathering⟩) continues
    · contradiction
    · exact .inr ⟨begun, gathering.of_continues continues⟩
  · intro s known parcels endpoint' transfer payload attached hwindow hendpoint' awaits starts more
      aborted
    obtain ⟨hkind, hlimit, htakes⟩ := awaits.takes kind starts
    obtain ⟨⟨endpoint'', hendpoint'', gathering⟩, -⟩ := Operation.gathering_of_more attached hwindow
      hendpoint' hkind hlimit htakes more aborted payload
    exact ⟨endpoint'', hendpoint'', .inr ⟨by simp, gathering⟩⟩

/-! ### What comes of a delivery -/

/-- A sound configuration lets a session take transfers. -/
theorem incomingWindow_of_validate {config : BrokerConfig} (valid : config.validate = .ok ()) :
  config.incomingWindow ≠ 0
  := by
  rw [BrokerConfig.validate] at valid
  split at valid
  · contradiction
  · split at valid
    · contradiction
    · next hwindow => exact hwindow

/-- What comes of a transfer of a delivery, with those before it, on a session and the queues. -/
structure TakesIn (limits : SessionLimits) (link : Link) (queue : QueueId) (id : UInt32)
    (mode : ReceiverSettleMode) (transfer : Transfer) (parcels : List Parcel) (endpoint : Endpoint)
    (s s' : Serving) : Prop where
  /-- The message is put at the end of the queue, with what the transfers carried, and the peer is
  told once that it is accepted, unless it is settled. -/
  deposited : endpoint.Deposits limits link transfer parcels →
    (∃ stored, s.store.get? queue = some stored ∧ ∀ other, s'.store.get? other
        = if other = queue then some (stored.enqueue (contents parcels)) else s.store.get? other)
      ∧ s.session.Accepts id (settled parcels) mode s'.session
  /-- Otherwise no queue changes. -/
  otherwise : ¬ endpoint.Deposits limits link transfer parcels → s'.store = s.store
  /-- The peer is told nothing but flows before the last transfer. -/
  untold : transfer.more = true → transfer.aborted = false →
    link.exceedsMaxMessageSize (contents parcels).length = false → s.session.Flows s'.session

/-- Whatever else happens in a world between the transfers of a delivery, its message is put into
the queue of its link once, with what they carried, or not at all. -/
theorem taken_in_once (reachable : world.Reachable) {config : BrokerConfig} {size : UInt32}
    (valid : config.validate = .ok ()) (hget : world.members[index]? = some member)
    (limits : member.session.limits = config.sessionLimits size)
    (hendpoint : member.session.endpoints.get? handle = some endpoint)
    (kind : endpoint.kind = .receiving queue)
    (arrives : Arrives index handle world parcels world') {transfer : Transfer} {payload : Bytes}
    (same : transfer.handle = handle)
    (starts : ∀ first ∈ (parcels ++ [(transfer, payload)]).head?, endpoint.Starts first.1 id mode) :
  ∃ member' endpoint' member'', world'.members[index]? = some member'
    ∧ member'.session.endpoints.get? handle = some endpoint'
    ∧ (world'.step (.serve index (.handle (.transfer transfer) payload))).members[index]?
        = some member''
    ∧ TakesIn member.session.limits endpoint.link queue id mode transfer
        (parcels ++ [(transfer, payload)]) endpoint' ⟨member'.session, world'.store⟩
        ⟨member''.session, (world'.step (.serve index (.handle (.transfer transfer) payload))).store⟩
  := by
  have window : member.session.limits.incomingWindow ≠ 0 := by
    rw [limits]
    exact incomingWindow_of_validate valid
  obtain ⟨member', endpoint', hget', hlimits, hendpoint', hawaits⟩ :=
    arrives.awaits reachable hget window hendpoint kind (starts_of_append starts)
  obtain ⟨hkind, hlimit, htakes⟩ := hawaits.takes kind starts
  have housed := (arrives.reachable reachable).housed member' (List.mem_of_getElem? hget')
  have hwindow : member'.session.incomingWindow ≠ 0 := by
    apply housed.window
    rw [hlimits]
    exact window
  subst same
  obtain ⟨hdeposited, hotherwise⟩ := Operation.handle_of_takes
    (s := ⟨member'.session, world'.store⟩) hwindow hendpoint' hkind hlimit htakes payload
  rw [← hlimits, store_serve hget']
  refine ⟨member', endpoint', _, hget', hendpoint', member_serve hget' _, ?_, hotherwise, ?_⟩
  · intro deposits
    obtain ⟨hstore, haccepts⟩ := hdeposited deposits
    obtain ⟨stored, hstored⟩ := (housed.attached _ _ hendpoint').known queue hkind
    refine ⟨⟨stored, hstored, fun other => ?_⟩, haccepts⟩
    change ((Operation.handle (.transfer transfer) payload).after ⟨member'.session, world'.store⟩
      ).store.get? other = _
    rw [hstore, QueueStore.get?_enqueue]
    dsimp only
    split
    · next heq => rw [heq, hstored, Option.map_some]
    · exact congrFun Option.map_id_fun' _
  · intro more aborted within
    exact (Operation.gathering_of_more (s := ⟨member'.session, world'.store⟩) housed.attached hwindow
      hendpoint' hkind hlimit htakes more aborted payload).2 within

/-- A message arrives in two transfers, and another one is put into its queue meanwhile. -/
theorem taken_in_once_of_interleaved :
  ∃ (world world' : World) (first last : Parcel) (stored : Queue),
    Arrives 0 0 world [first] world' ∧ world'.store.get? 0 = some stored
      ∧ ∀ other, (world'.step (.serve 0 (.handle (.transfer last.1) last.2))).store.get? other
        = if other = 0 then some (stored.enqueue (contents [first, last]))
          else world'.store.get? other
  := by
  have arrives (world : World) (first : Parcel) (same : first.1.handle = 0)
      (more : first.1.more = true) (aborted : first.1.aborted = false) :
      Arrives 0 0 world [first]
        ((world.step (.serve 0 (.handle (.transfer first.1) first.2))).step (.enqueue 0 [0, 1])) :=
    .pass (.more .start same more aborted) (by simp) (by rintro ⟨act, h, -⟩; contradiction)
  have hfirst := arrives
    (empty.run [.addQueue "q" .unlimited true,
      .begin ⟨none, 0, 9, 9, none⟩ (BrokerConfig.standard.sessionLimits 512),
      .serve 0 (.handle (.attach
        ⟨"a", 0, .sender, .mixed, .first, none,
          some (.node ⟨some "q", none, none, none, false, none⟩), some 0, none⟩) [])])
    (⟨0, some 0, some [0], none, none, true, none, none, false, false, false⟩, [0x00, 0x53])
    rfl rfl rfl
  have hlast : (⟨0, none, none, none, none, false, none, none, false, false, false⟩ :
      Transfer).handle = 0 := rfl
  obtain ⟨member', endpoint', member'', hget', hendpoint', -, takesIn⟩ :=
    taken_in_once ⟨_, rfl⟩ (rfl : BrokerConfig.standard.validate = .ok ()) rfl rfl rfl rfl hfirst
      hlast (fun first (hmem : first ∈ List.head? (_ ++ [(_, [0x77, 0x40])])) => by
        cases hmem
        exact ⟨rfl, rfl, ⟨_, rfl, fun _ => rfl⟩, rfl, rfl⟩)
  cases hget'
  cases hendpoint'
  obtain ⟨⟨stored, hstored, hstore⟩, -⟩ := takesIn.deposited
    ⟨rfl, rfl, rfl, rfl, ⟨⟨_, rfl, rfl⟩, rfl⟩⟩
  exact ⟨_, _, _, (_, [0x77, 0x40]), stored, hfirst, hstored, hstore⟩

end MessageBroker.World
