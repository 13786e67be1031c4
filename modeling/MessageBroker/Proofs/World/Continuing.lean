import MessageBroker.Proofs.Session.Arriving
import MessageBroker.Proofs.World.Defaults
import MessageBroker.Proofs.World.Intake
import MessageBroker.Proofs.World.Parting

/-!
# Transfers under other numbers

While a delivery is arriving on a link, every transfer on the link is taken for the next one of the
delivery.  The number and the tag that the transfer carries are not looked at: one message is built
of the transfers, and it is answered under the number of the first.  A delivery that the peer begins
before the last transfer of another one is so joined with it, and its own number is never answered.
-/

namespace MessageBroker

open Session Parcel

theorem Session.Act.parcelOn?_eq_some_iff {handle : UInt32} {act : Session.Act} {parcel : Parcel} :
  act.parcelOn? handle = some parcel
    ↔ act = .handle (.transfer parcel.1) parcel.2 ∧ parcel.1.handle = handle
  := by
  constructor
  · intro h
    cases act with
    | handle p payload =>
        cases p with
        | transfer transfer =>
            rw [parcelOn?] at h
            split at h
            · next names =>
                cases h
                exact ⟨rfl, names⟩
            · contradiction
        | _ => contradiction
    | _ => contradiction
  · rintro ⟨rfl, names⟩
    rw [parcelOn?, if_pos names]

namespace World

/-! ### Transfers on one link -/

/-- The transfer that an action brings on the link of a session with a handle. -/
def Action.parcelOn? (index : Nat) (handle : UInt32) : Action → Option Parcel
  | .serve other act => if other = index then act.parcelOn? handle else none
  | _ => none

/-- The transfers that actions bring on the link of a session with a handle, in order. -/
def parcelsOn (index : Nat) (handle : UInt32) (actions : List Action) : List Parcel :=
  actions.filterMap (Action.parcelOn? index handle)

/-- A delivery that is arriving on a link of a session began with a transfer, and all transfers that
came on the link since are of the delivery. -/
structure Begun (index : Nat) (handle : UInt32) (link : Link) (assembly : Assembly)
    (before : List Action) (first : Parcel) (later : List Action) : Prop where
  /-- The first transfer came on the link. -/
  names : first.1.handle = handle
  /-- No delivery was arriving there. -/
  idle : ∃ member endpoint, (empty.run before).members[index]? = some member
    ∧ member.session.endpoints.get? handle = some endpoint ∧ endpoint.assembly = none
  /-- The delivery has the number of the first transfer. -/
  id : first.1.deliveryId = some assembly.id
  /-- The delivery has the tag of the first transfer. -/
  tag : first.1.deliveryTag = some assembly.tag
  /-- The link has not come to its end. -/
  lasts : ∀ action ∈ later, ¬ action.Parts index handle
  /-- None of the transfers was the last of the delivery, or aborted it. -/
  unended : ∀ parcel ∈ first :: parcelsOn index handle later,
    parcel.1.more = true ∧ parcel.1.aborted = false
  /-- What the transfers carried is gathered, whatever their numbers and tags. -/
  gathers : assembly.Gathers link assembly.id assembly.settleMode
    (first :: parcelsOn index handle later)

variable {index : Nat} {handle : UInt32} {link link' : Link} {assembly assembly' : Assembly}
  {before later actions : List Action} {first : Parcel} {member : Member} {endpoint : Endpoint}
  {transfer : Transfer} {payload : Bytes}

theorem parcelsOn_concat (actions : List Action) (action : Action) :
  parcelsOn index handle (actions ++ [action])
    = parcelsOn index handle actions ++ (action.parcelOn? index handle).toList
  := by
  rw [parcelsOn, List.filterMap_append, ← parcelsOn]
  congr 1

/-- An action that brings no transfer on the link and does not end it leaves the delivery. -/
theorem Begun.pass (begun : Begun index handle link assembly before first later)
    (limit : link'.maxMessageSize = link.maxMessageSize) {action : Action}
    (lasts : ¬ action.Parts index handle) (silent : action.parcelOn? index handle = none) :
  Begun index handle link' assembly before first (later ++ [action])
  := by
  have same : parcelsOn index handle (later ++ [action]) = parcelsOn index handle later := by
    rw [parcelsOn_concat, silent]
    exact List.append_nil _
  refine ⟨begun.names, begun.idle, begun.id, begun.tag, ?_, ?_, ?_⟩
  · exact List.forall_mem_append.mpr ⟨begun.lasts, by simpa using lasts⟩
  · rw [same]
    exact begun.unended
  · rw [same]
    exact begun.gathers.of_limit limit

theorem parcelOn?_transfer (index : Nat) (transfer : Transfer) (payload : Bytes) :
  Action.parcelOn? index transfer.handle (.serve index (.handle (.transfer transfer) payload))
    = some (transfer, payload)
  := by
  rw [Action.parcelOn?, if_pos rfl, Act.parcelOn?, if_pos rfl]

theorem not_parts_transfer (index : Nat) (transfer : Transfer) (payload : Bytes) :
  ¬ Action.Parts index handle (.serve index (.handle (.transfer transfer) payload))
  := by
  rw [Action.parts_serve]
  rintro (detaches | finishes)
  · contradiction
  · contradiction

/-- One more transfer goes on with the delivery. -/
theorem Begun.more (begun : Begun index transfer.handle endpoint.link assembly before first later)
    (arriving : endpoint.assembly = some assembly)
    (gains : endpoint.Gains transfer payload assembly')
    (limit : link'.maxMessageSize = endpoint.link.maxMessageSize) :
  Begun index transfer.handle link' assembly' before first
    (later ++ [.serve index (.handle (.transfer transfer) payload)])
  := by
  obtain ⟨id, tag, gathers⟩ := gains.resumes arriving begun.gathers
  have more : parcelsOn index transfer.handle
        (later ++ [.serve index (.handle (.transfer transfer) payload)])
      = parcelsOn index transfer.handle later ++ [(transfer, payload)] := by
    rw [parcelsOn_concat, parcelOn?_transfer]
    rfl
  refine ⟨begun.names, begun.idle, ?_, ?_, ?_, ?_, ?_⟩
  · rw [begun.id, id]
  · rw [begun.tag, tag]
  · exact List.forall_mem_append.mpr
      ⟨begun.lasts, by simpa using not_parts_transfer index transfer payload⟩
  · rw [more, ← List.cons_append]
    exact List.forall_mem_append.mpr
      ⟨begun.unended, by simpa using ⟨gains.more, gains.unaborted⟩⟩
  · rw [more]
    exact gathers.of_limit limit

/-- The first transfer of a delivery. -/
theorem begun_of_gains (hget : (empty.run before).members[index]? = some member)
    (hendpoint : member.session.endpoints.get? transfer.handle = some endpoint)
    (idle : endpoint.assembly = none) (gains : endpoint.Gains transfer payload assembly)
    (limit : link'.maxMessageSize = endpoint.link.maxMessageSize) :
  Begun index transfer.handle link' assembly before (transfer, payload) []
  := by
  obtain ⟨id, tag, gathers⟩ := gains.starts idle
  refine ⟨rfl, ⟨member, endpoint, hget, hendpoint, idle⟩, id, tag, ?_, ?_, gathers.of_limit limit⟩
  · simp
  · intro parcel hmem
    obtain rfl := List.mem_singleton.mp hmem
    exact ⟨gains.more, gains.unaborted⟩

/-- A delivery that is arriving on a link of a session after an action was arriving there before and
is as it was, or the action has brought a transfer of it. -/
theorem arriving_step {world : World} {action : Action} (reachable : world.Reachable)
    (hget : (world.step action).members[index]? = some member)
    (window : member.session.limits.incomingWindow ≠ 0)
    (hendpoint : member.session.endpoints.get? handle = some endpoint)
    (arriving : endpoint.arriving? = some assembly) :
  ∃ old other, world.members[index]? = some old
    ∧ old.session.limits.incomingWindow ≠ 0
    ∧ old.session.endpoints.get? handle = some other
    ∧ endpoint.link.maxMessageSize = other.link.maxMessageSize
    ∧ (other.arriving? = some assembly ∧ ¬ action.Parts index handle
          ∧ action.parcelOn? index handle = none
        ∨ ∃ transfer payload, action = .serve index (.handle (.transfer transfer) payload)
          ∧ transfer.handle = handle ∧ other.Gains transfer payload assembly)
  := by
  cases hbefore : world.members[index]? with
  | none =>
      obtain ⟨terms, limits, rfl⟩ := begun_of_step hbefore hget
      contradiction
  | some old =>
      rcases member_step hbefore action with ⟨act, rfl, hmember, -⟩ | ⟨apart, hmember⟩
      · obtain rfl := Option.some.inj (hmember.symm.trans hget)
        have hmem := List.mem_of_getElem? hbefore
        have rest := reachable.atRest old hmem
        have limits := (act.continues_run (s := ⟨old.session, world.store⟩)
          (fun _ h => h) handle).limits
        have hwindow : old.session.limits.incomingWindow ≠ 0 := by
          rw [← limits]
          exact window
        cases hparcel : act.parcelOn? handle with
        | none =>
            obtain ⟨lasts, other, hother, harriving, limit⟩ :=
              act.arriving_run (s := ⟨old.session, world.store⟩) rest hparcel hendpoint arriving
            refine ⟨old, other, rfl, hwindow, hother, limit, .inl ⟨harriving, ?_, ?_⟩⟩
            · rw [Action.parts_serve]
              exact lasts
            · rw [Action.parcelOn?, if_pos rfl, hparcel]
        | some parcel =>
            obtain ⟨transfer, payload⟩ := parcel
            obtain ⟨rfl, rfl⟩ := Act.parcelOn?_eq_some_iff.mp hparcel
            obtain ⟨other, hother, gains, limit⟩ := Operation.gains_handle_transfer
              (s := ⟨old.session, world.store⟩) rest ((reachable.housed old hmem).window hwindow)
              hendpoint arriving
            exact ⟨old, other, rfl, hwindow, hother, limit,
              .inr ⟨transfer, payload, rfl, rfl, gains⟩⟩
      · obtain rfl := Option.some.inj (hmember.symm.trans hget)
        refine ⟨old, endpoint, rfl, window, hendpoint, rfl, .inl ⟨arriving, ?_, ?_⟩⟩
        · rintro ⟨act, same, -⟩
          exact apart act same
        · cases action with
          | serve other act =>
              rw [Action.parcelOn?, if_neg]
              rintro rfl
              exact apart act rfl
          | _ => rfl

/-- Every delivery that is arriving began with its first transfer, and consists of all transfers
that came on its link since. -/
theorem exists_begun (hget : (empty.run actions).members[index]? = some member)
    (window : member.session.limits.incomingWindow ≠ 0)
    (hendpoint : member.session.endpoints.get? handle = some endpoint)
    (arriving : endpoint.arriving? = some assembly) :
  ∃ before first later,
    actions = before ++ .serve index (.handle (.transfer first.1) first.2) :: later
      ∧ Begun index handle endpoint.link assembly before first later
  := by
  induction actions using List.reverseRecOn generalizing member endpoint assembly with
  | nil => contradiction
  | append_singleton actions action ih =>
      rw [run_append] at hget
      obtain ⟨old, other, hold, hwindow, hother, limit, ⟨harriving, lasts, silent⟩ |
        ⟨transfer, payload, rfl, rfl, gains⟩⟩ :=
          arriving_step ⟨actions, rfl⟩ hget window hendpoint arriving
      · obtain ⟨before, first, later, rfl, begun⟩ := ih hold hwindow hother harriving
        exact ⟨before, first, later ++ [action], by simp, begun.pass limit lasts silent⟩
      · cases hassembly : other.assembly with
        | none =>
            exact ⟨actions, (transfer, payload), [], rfl,
              begun_of_gains hold hother hassembly gains limit⟩
        | some earlier =>
            obtain ⟨before, first, later, rfl, begun⟩ := ih hold hwindow hother
              (Endpoint.arriving?_eq_some_iff.mpr ⟨gains.receives, gains.attached, hassembly⟩)
            exact ⟨before, first, _, by simp, begun.more hassembly gains limit⟩

/-! ### Deliveries that are joined -/

/-- While a delivery is arriving on a link, a transfer on the link is one of it, whatever number and
tag the transfer carries: the message is built of all transfers since the one that the delivery
began with, and the peer is answered under the number of that one. -/
theorem joined_under_first_number {config : BrokerConfig} {size : UInt32}
    (valid : config.validate = .ok ()) (hget : (empty.run actions).members[index]? = some member)
    (limits : member.session.limits = config.sessionLimits size) (transfer : Transfer)
    (hendpoint : member.session.endpoints.get? transfer.handle = some endpoint)
    (arriving : endpoint.arriving? = some assembly) (payload : Bytes) :
  ∃ before first later,
    actions = before ++ .serve index (.handle (.transfer first.1) first.2) :: later
      ∧ Begun index transfer.handle endpoint.link assembly before first later
      ∧ endpoint.Joins transfer payload
          (first :: parcelsOn index transfer.handle later ++ [(transfer, payload)]) assembly
          ⟨member.session, (empty.run actions).store⟩
  := by
  have reachable : (empty.run actions).Reachable := ⟨actions, rfl⟩
  have window : member.session.limits.incomingWindow ≠ 0 := by
    rw [limits]
    exact incomingWindow_of_validate valid
  obtain ⟨before, first, later, split, begun⟩ := exists_begun hget window hendpoint arriving
  refine ⟨before, first, later, split, begun, ?_⟩
  exact Operation.joins_handle_transfer (s := ⟨member.session, _⟩)
    ((reachable.housed member (List.mem_of_getElem? hget)).window window) hendpoint arriving
    begun.gathers payload

/-- A delivery begins before the last transfer of another one: one message is put into the queue, and
the peer is told that the first delivery is accepted. -/
theorem joined_under_first_number_of_two :
  ∃ (actions : List Action) (member : Member) (endpoint : Endpoint) (assembly : Assembly)
      (transfer : Transfer) (s' : Serving),
    (empty.run actions).members[0]? = some member
      ∧ member.session.endpoints.get? transfer.handle = some endpoint
      ∧ endpoint.arriving? = some assembly ∧ assembly.id = 0 ∧ transfer.deliveryId = some 1
      ∧ (Operation.handle (.transfer transfer) [0x77, 0x40]).after
          ⟨member.session, (empty.run actions).store⟩ = s'
      ∧ s'.store = ((empty.run actions).store.enqueue 0 [0x00, 0x53, 0x77, 0x40]).2
      ∧ member.session.Accepts 0 false .first s'.session
  := by
  have hget : (empty.run [.addQueue "q" .unlimited true,
      .begin ⟨none, 0, 9, 9, none⟩ (BrokerConfig.standard.sessionLimits 512),
      .serve 0 (.handle (.attach
        ⟨"a", 0, .sender, .mixed, .first, none,
          some (.node ⟨some "q", none, none, none, false, none⟩), some 0, none⟩) []),
      .serve 0 (.handle (.transfer
        ⟨0, some 0, some [0], none, none, true, none, none, false, false, false⟩)
        [0x00, 0x53])]).members[0]? = some _ := rfl
  obtain ⟨before, first, later, -, begun, joins⟩ :=
    joined_under_first_number (rfl : BrokerConfig.standard.validate = .ok ()) hget rfl
      ⟨0, some 1, some [1], none, none, false, none, none, false, false, false⟩ rfl rfl [0x77, 0x40]
  have carried (parcel : Parcel) : contents (first :: parcelsOn 0 0 later ++ [parcel])
      = [0x00, 0x53] ++ parcel.2 := by
    rw [contents_append, ← (begun.gathers.kept rfl).1]
    rfl
  have unsettled (parcel : Parcel) : settled (first :: parcelsOn 0 0 later ++ [parcel])
      = decide (parcel.1.settled = some true) := by
    rw [settled_append, ← begun.gathers.settled]
    rfl
  have untold (parcel : Parcel) : lastState (first :: parcelsOn 0 0 later ++ [parcel])
      = parcel.1.state := by
    rw [lastState_append, ← begun.gathers.state]
    exact Option.or_none
  obtain ⟨stored, accepts⟩ := joins.deposited 0 rfl
    ⟨rfl, rfl, rfl, by rw [carried]; rfl, by rw [carried, untold]; exact ⟨⟨_, rfl, rfl⟩, rfl⟩⟩
  rw [carried] at stored
  rw [unsettled] at accepts
  exact ⟨_, _, _, _, _, _, hget, rfl, rfl, rfl, rfl, rfl, stored, accepts⟩

end World

end MessageBroker
