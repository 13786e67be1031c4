import MessageBroker.Proofs.Session.Allowance
import MessageBroker.Proofs.World.Links
import MessageBroker.Proofs.World.Prepending

/-!
# No more is sent than there is credit for

Whatever happens in a world, a session sends no more deliveries on a link than the last flow that
named the link allows, each at a delivery count that the flow allows, and none before the first one.
The delivery count goes on by one for every delivery, and by the rest if the peer wants the credit
given back.
-/

namespace MessageBroker

open Session

/-- The credit of the link with a handle, if the session sends messages on it. -/
def Session.sender? (session : Session) (handle : UInt32) : Option LinkCredit :=
  match session.endpoints.get? handle with
  | some endpoint => if endpoint.kind.isSending then some endpoint.link.credit else none
  | none => none

/-- The delivery count that a flow counts credit from. -/
def Flow.reference (flow : Flow) : UInt32 :=
  flow.deliveryCount.getD 0

/-- The credit that a flow grants. -/
def Flow.granted (flow : Flow) : UInt32 :=
  flow.linkCredit.getD 0

namespace Session

variable {session : Session} {handle : UInt32} {credit : LinkCredit}

/-- Whether a session sends messages on a link, and its credit for that, is seen from how the link
stands. -/
theorem sender?_congr {session' : Session}
    (h : (session'.standing handle).meter = (session.standing handle).meter) :
  session'.sender? handle = session.sender? handle
  := by
  have hseen (session : Session) : session.sender? handle
      = ((session.standing handle).meter.filter (·.sending)).map (·.credit) := by
    rw [sender?, standing]
    cases session.endpoints.get? handle with
    | none => rfl
    | some endpoint =>
        cases hsending : endpoint.kind.isSending with
        | true => simp [Endpoint.meter, hsending]
        | false => simp [Endpoint.meter, hsending]
  rw [hseen, hseen, h]

theorem sender?_putEndpoint (session : Session) {endpoint : Endpoint}
    (sending : endpoint.kind.isSending = true) :
  (session.putEndpoint handle endpoint).sender? handle = some endpoint.link.credit
  := by
  rw [sender?, putEndpoint, Table.get?_put_self]
  exact if_pos sending

theorem sender?_eq_some_iff :
  session.sender? handle = some credit
    ↔ ∃ meter, (session.standing handle).meter = some meter ∧ meter.sending = true
        ∧ meter.credit = credit
  := by
  rw [sender?, standing]
  cases hget : session.endpoints.get? handle with
  | none => simp
  | some endpoint =>
      cases hsending : endpoint.kind.isSending with
      | true => simp [Endpoint.meter, hsending]
      | false => simp [Endpoint.meter, hsending]

/-- No delivery may be begun on a link that messages do not go on, or that has no credit. -/
theorem budget_standing (h : ∀ credit, session.sender? handle = some credit → credit.credit = 0) :
  (session.standing handle).budget = 0
  := by
  rw [Standing.budget, standing]
  rw [sender?] at h
  cases hget : session.endpoints.get? handle with
  | none => rfl
  | some endpoint =>
      rw [hget] at h
      rw [Option.map_some, Option.map_some, Option.getD_some, Endpoint.meter]
      dsimp only at h ⊢
      split
      · next hsending =>
          rw [h endpoint.link.credit (if_pos hsending)]
          rfl
      · rfl

end Session

/-! ### Deliveries that were sent -/

namespace Standing

/-- A link on which so many deliveries had been begun before. -/
def beyond (x : Standing) (count : Nat) : Standing :=
  ⟨count + x.begun, x.meter⟩

variable {sent : Nat} {x y : Standing}

theorem Sends.beyond (h : x.Sends sent y) (count : Nat) :
  (x.beyond count).Sends sent (y.beyond count)
  := by
  cases h with
  | idle => exact .idle _
  | @sends begun _ _ _ attached spends =>
      rw [Standing.beyond, Standing.beyond]
      dsimp only
      rw [← Nat.add_assoc]
      exact .sends attached spends

theorem Passes.beyond {lasting : Prop} (h : x.Passes lasting sent y) (count : Nat) :
  (x.beyond count).Passes lasting sent (y.beyond count)
  := by
  refine ⟨?_, h.budget, h.goes⟩
  rw [Standing.beyond, h.begun, ← Nat.add_assoc]
  rfl

end Standing

namespace Member

/-- How many deliveries a session has sent on a link. -/
def sentOn (member : Member) (handle : UInt32) : Nat :=
  (member.taken ++ member.session.outbox).countP (Outgoing.beginsOn handle)

/-- How many deliveries a session has sent on a link, and how the link stands. -/
def standing (member : Member) (handle : UInt32) : Standing where
  begun := member.sentOn handle
  meter := (member.session.standing handle).meter

variable (handle : UInt32)

/-- What was taken from a session to be sent counts beside what is still to be. -/
theorem sentOn_eq (member : Member) :
  member.sentOn handle
    = member.taken.countP (Outgoing.beginsOn handle) + member.session.begunOn handle
  := List.countP_append

theorem standing_eq (member : Member) :
  member.standing handle
    = (member.session.standing handle).beyond (member.taken.countP (Outgoing.beginsOn handle))
  := by
  rw [standing, sentOn_eq]
  rfl

theorem standing_proceed (member : Member) (session : Session) :
  (member.proceed [] session).standing handle
    = (session.standing handle).beyond (member.taken.countP (Outgoing.beginsOn handle))
  := by
  rw [standing_eq, proceed, List.append_nil]

theorem standing_takeOutput (member : Member) (store : QueueStore) :
  (member.run store .takeOutput).1.standing handle = member.standing handle
  := by
  have hflush := member.session.begunOn_flush handle
  rw [begunOn] at hflush
  rw [standing_eq, standing_eq, Standing.beyond, Standing.beyond]
  apply congrArg (Standing.mk · _)
  change (member.taken ++ member.session.flush.outbox).countP _ + 0 = _
  rw [List.countP_append, hflush]
  rfl

/-- Whatever is done with a session that gives a link no credit, deliveries are begun on the link
on its credit, or none is. -/
theorem sends_or_passes_run {handle : UInt32} {act : Session.Act} (h : ¬ act.Credits handle)
    (member : Member) (store : QueueStore) :
  (∃ sent, (member.standing handle).Sends sent ((member.run store act).1.standing handle))
    ∨ (member.standing handle).Passes (¬ act.Drops handle) 0
        ((member.run store act).1.standing handle)
  := by
  have hsends {s' : Serving}
      (hsends : ∃ sent, (member.session.standing handle).Sends sent (s'.session.standing handle)) :
      ∃ sent, (member.standing handle).Sends sent
        ((member.proceed [] s'.session).standing handle) := by
    obtain ⟨sent, hsends⟩ := hsends
    rw [standing_eq, standing_proceed]
    exact ⟨sent, hsends.beyond _⟩
  cases act with
  | handle p payload =>
      rcases Operation.sends_or_passes_handle h ⟨member.session, store⟩ with hsome | hnone
      · exact .inl (hsends hsome)
      · right
        have hbeyond := hnone.beyond (member.taken.countP (Outgoing.beginsOn handle))
        rw [← standing_eq, ← standing_proceed] at hbeyond
        exact hbeyond
  | pumpAll => exact .inl (hsends (Serving.sends_pumpAll handle ⟨member.session, store⟩))
  | recover => exact .inl (hsends (Serving.sends_recover handle ⟨member.session, store⟩))
  | finish =>
      right
      refine ⟨?_, Nat.zero_le _, fun hlasting => absurd trivial hlasting⟩
      change ((member.proceed [] _).standing handle).begun = _
      rw [standing_proceed, standing_eq]
      rfl
  | takeOutput =>
      left
      rw [standing_takeOutput]
      exact ⟨0, .idle _⟩

end Member

namespace World

/-! ### Until a flow names a link -/

/-- An action may give credit to a link of a session. -/
def Action.Credits (index : Nat) (handle : UInt32) (action : Action) : Prop :=
  ∃ act, action = .serve index act ∧ act.Credits handle

/-- An action drops a link of a session. -/
def Action.Drops (index : Nat) (handle : UInt32) (action : Action) : Prop :=
  ∃ act, action = .serve index act ∧ act.Drops handle

variable {world : World} {index : Nat} {member : Member} {handle : UInt32}

theorem passes_step (hget : world.members[index]? = some member) {action : Action}
    (uncredited : ¬ action.Credits index handle) :
  ∃ later sent, (world.step action).members[index]? = some later
    ∧ (member.standing handle).Passes (¬ action.Drops index handle) sent (later.standing handle)
  := by
  rcases member_step hget action with ⟨act, rfl, hmember, -⟩ | ⟨-, hmember⟩
  · have hact : ¬ act.Credits handle := fun hcredits => uncredited ⟨act, rfl, hcredits⟩
    rcases member.sends_or_passes_run hact world.store with ⟨sent, hsends⟩ | hpasses
    · exact ⟨_, sent, hmember, .of_sends hsends⟩
    · exact ⟨_, 0, hmember, hpasses.mono fun hlasting hdrops => hlasting ⟨act, rfl, hdrops⟩⟩
  · exact ⟨member, 0, hmember, .of_eq rfl⟩

/-- Until a flow names a link, what is sent on it is within its credit, whatever happens. -/
theorem passes_run (hget : world.members[index]? = some member) {actions : List Action}
    (uncredited : ∀ action ∈ actions, ¬ action.Credits index handle) :
  ∃ later sent, (world.run actions).members[index]? = some later
    ∧ (member.standing handle).Passes (∀ action ∈ actions, ¬ action.Drops index handle) sent
        (later.standing handle)
  := by
  induction actions generalizing world member with
  | nil => exact ⟨member, 0, hget, .of_eq rfl⟩
  | cons action actions ih =>
      obtain ⟨middle, sent, hmiddle, hstep⟩ :=
        passes_step hget (uncredited action List.mem_cons_self)
      obtain ⟨later, more, hlater, hrun⟩ :=
        ih hmiddle fun other hmem => uncredited other (List.mem_cons_of_mem action hmem)
      refine ⟨later, sent + more, hlater, ?_⟩
      apply Standing.Passes.trans
      · exact hstep.mono fun hlasting => hlasting action List.mem_cons_self
      · exact hrun.mono fun hlasting other hmem => hlasting other (List.mem_cons_of_mem action hmem)

/-- Nothing is sent on a link without credit until a flow names it. -/
theorem sentOn_run (hget : world.members[index]? = some member)
    (h : ∀ credit, member.session.sender? handle = some credit → credit.credit = 0)
    {actions : List Action} (uncredited : ∀ action ∈ actions, ¬ action.Credits index handle)
    {later : Member} (hlater : (world.run actions).members[index]? = some later) :
  later.sentOn handle = member.sentOn handle
  := by
  obtain ⟨later', sent, hlater', hpasses⟩ := passes_run hget uncredited
  obtain rfl := Option.some.inj (hlater'.symm.trans hlater)
  have hbudget : (member.standing handle).budget = 0 := Session.budget_standing h
  have hwithin := hpasses.budget
  have hbegun : later'.sentOn handle = member.sentOn handle + sent := hpasses.begun
  omega

/-! ### From a flow on -/

/-- The peer of a session sends a flow. -/
abbrev Action.flow (index : Nat) (flow : Flow) (payload : Bytes) : Action :=
  .serve index (.handle (.flow flow) payload)

variable {flow : Flow} {credit : LinkCredit}

/-- A flow that names a link that the session sends on gives it credit, on which messages are
sent. -/
theorem sends_flow (hget : world.members[index]? = some member) (h : flow.handle = some handle)
    {meter : Meter} (hmeter : (member.session.standing handle).meter = some meter)
    (sending : meter.sending = true) (payload : Bytes) :
  ∃ after sent, (world.step (.flow index flow payload)).members[index]? = some after
    ∧ Standing.Sends sent ⟨member.sentOn handle, some (meter.credited flow)⟩ (after.standing handle)
    ∧ (flow.drain = true → (after.standing handle).budget = 0)
  := by
  obtain ⟨sent, hsends, hdrained⟩ :=
    Operation.sends_handle_flow h (s := ⟨member.session, world.store⟩) hmeter sending payload
  refine ⟨_, sent, member_serve hget _, ?_, hdrained⟩
  have hbeyond := hsends.beyond (member.taken.countP (Outgoing.beginsOn handle))
  rw [← Member.standing_proceed] at hbeyond
  rw [member.sentOn_eq]
  exact hbeyond

/-- After a flow, what is sent on the link that it names is within the credit that it gave. -/
theorem passes_flow_run (hget : world.members[index]? = some member)
    (h : flow.handle = some handle) {meter : Meter}
    (hmeter : (member.session.standing handle).meter = some meter) (sending : meter.sending = true)
    (payload : Bytes) {actions : List Action}
    (uncredited : ∀ action ∈ actions, ¬ action.Credits index handle) {later : Member}
    (hlater : ((world.step (.flow index flow payload)).run actions).members[index]? = some later) :
  ∃ sent, Standing.Passes (∀ action ∈ actions, ¬ action.Drops index handle) sent
      ⟨member.sentOn handle, some (meter.credited flow)⟩ (later.standing handle)
    ∧ (flow.drain = true → (later.standing handle).budget = 0)
  := by
  obtain ⟨after, first, hafter, hsends, hdrained⟩ := sends_flow hget h hmeter sending payload
  obtain ⟨later', more, hlater', hpasses⟩ := passes_run hafter uncredited
  obtain rfl := Option.some.inj (hlater'.symm.trans hlater)
  refine ⟨first + more, (Standing.Passes.of_sends hsends).trans hpasses, ?_⟩
  intro hdrain
  have hspent := hpasses.budget
  have := hdrained hdrain
  omega

/-- A flow that names a link that the session does not send on changes nothing about it. -/
theorem standing_flow (hget : world.members[index]? = some member) (h : flow.handle = some handle)
    (receives : member.session.sender? handle = none) (payload : Bytes) :
  ∃ after, (world.step (.flow index flow payload)).members[index]? = some after
    ∧ after.standing handle = member.standing handle
    ∧ after.session.sender? handle = none
  := by
  have hreceives : ∀ meter, (member.session.standing handle).meter = some meter →
      meter.sending = false := by
    intro meter hmeter
    by_contra hsending
    have hsender := Session.sender?_eq_some_iff.mpr ⟨meter, hmeter, by simpa using hsending, rfl⟩
    rw [receives] at hsender
    contradiction
  have hsame := Operation.standing_handle_flow h (s := ⟨member.session, world.store⟩) hreceives
    payload
  refine ⟨_, member_serve hget _, ?_, ?_⟩
  · change (member.proceed [] _).standing handle = _
    rw [Member.standing_proceed, Member.standing_eq, hsame]
  · rw [← receives]
    exact Session.sender?_congr (congrArg Standing.meter hsame)

/-- A session comes to another state by actions that are not of some kind. -/
def Reaches (world : World) (index : Nat) (kind : Action → Prop) (later : Member) : Prop :=
  ∃ actions, (∀ action ∈ actions, ¬ kind action) ∧ (world.run actions).members[index]? = some later

/-- What may be sent on the link with a handle of a session, and what its delivery count comes
to. -/
structure Credited (world : World) (index : Nat) (member : Member) (handle : UInt32) : Prop where
  /-- While the session sends nothing on the link, or has no credit for it, no delivery is sent on
  it before a flow names it, whatever happens, even if the link comes to be attached meanwhile. -/
  without : (∀ credit, member.session.sender? handle = some credit → credit.credit = 0) →
    ∀ later, world.Reaches index (Action.Credits index handle) later →
      later.sentOn handle = member.sentOn handle
  /-- From a flow that names the link until the next one no more deliveries are sent on it than the
  flow grants, and each at a delivery count for which the flow grants credit. -/
  within : ∀ flow payload, flow.handle = some handle →
    ∀ later, (world.step (.flow index flow payload)).Reaches index (Action.Credits index handle) later →
      ∃ sent, later.sentOn handle = member.sentOn handle + sent ∧ sent ≤ flow.granted.toNat
        ∧ ∀ earlier < sent, ∃ credit, member.session.sender? handle = some credit
            ∧ 1 ≤ flow.reference + flow.granted - (credit.deliveryCount + .ofNat earlier)
            ∧ flow.reference + flow.granted - (credit.deliveryCount + .ofNat earlier) ≤ flow.granted
  /-- The delivery count goes on by one for every delivery, and the credit is what is left of that
  which the last flow granted, as long as the link is not dropped. -/
  counted : ∀ flow payload, flow.handle = some handle → flow.drain = false →
    ∀ credit, member.session.sender? handle = some credit →
      ∀ later, (world.step (.flow index flow payload)).Reaches index
          (fun action => action.Credits index handle ∨ action.Drops index handle) later →
        ∃ sent credit', later.sentOn handle = member.sentOn handle + sent
          ∧ later.session.sender? handle = some credit'
          ∧ credit'.deliveryCount = credit.deliveryCount + .ofNat sent
          ∧ credit'.credit = LinkCredit.remaining flow.reference flow.granted credit'.deliveryCount
  /-- If the flow wants the credit given back, none is left once it has been handled: the delivery
  count is what the flow allows, unless the flow is out of date, and nothing more is sent until
  another flow names the link. -/
  drained : ∀ flow payload, flow.handle = some handle → flow.drain = true →
    ∀ after, (world.step (.flow index flow payload)).members[index]? = some after →
      (∀ credit, member.session.sender? handle = some credit →
        ∃ credit', after.session.sender? handle = some credit' ∧ credit'.credit = 0
          ∧ credit'.deliveryCount
            = if flow.reference + flow.granted - credit.deliveryCount ≤ flow.granted then
                flow.reference + flow.granted
              else credit.deliveryCount)
      ∧ ∀ later, (world.step (.flow index flow payload)).Reaches index
            (Action.Credits index handle) later →
          later.sentOn handle = after.sentOn handle
  /-- Deliveries are sent on the link only while it is attached. -/
  attached : ∀ act later, (world.step (.serve index act)).members[index]? = some later →
    later.sentOn handle ≠ member.sentOn handle →
      ∃ endpoint endpoint', member.session.endpoints.get? handle = some endpoint
        ∧ endpoint.link.isAttached = true
        ∧ later.session.endpoints.get? handle = some endpoint'
        ∧ endpoint'.link.isAttached = true
  /-- Every delivery is sent while the link is attached and has credit, is begun once, and moves the
  delivery count on by one, however many transfers it takes. -/
  each : ∀ s s' : Serving, s.sendNext? handle = some s' →
    ∃ endpoint endpoint', s.session.endpoints.get? handle = some endpoint
      ∧ endpoint.link.isAttached = true ∧ endpoint.link.credit.maySend = true
      ∧ s'.session.begunOn handle = s.session.begunOn handle + 1
      ∧ s'.session.endpoints.get? handle = some endpoint'
      ∧ endpoint'.link.credit.deliveryCount = endpoint.link.credit.deliveryCount + 1
      ∧ endpoint'.link.credit.credit = endpoint.link.credit.credit - 1

/-! ### What a flow allows -/

/-- The peer has not detached a link that a session of a world has. -/
theorem Reachable.detachReceived (reachable : world.Reachable)
    (hget : world.members[index]? = some member) {meter : Meter}
    (hmeter : (member.session.standing handle).meter = some meter) :
  meter.detachReceived = false
  := by
  obtain ⟨endpoint, hendpoint, rfl⟩ := Option.map_eq_some_iff.mp hmeter
  have housed := reachable.housed member (List.mem_of_getElem? hget)
  exact (housed.attached _ _ hendpoint).detachReceived

theorem within_flow (hget : world.members[index]? = some member) (h : flow.handle = some handle)
    (payload : Bytes) {later : Member}
    (hlater : (world.step (.flow index flow payload)).Reaches index
      (Action.Credits index handle) later) :
  ∃ sent, later.sentOn handle = member.sentOn handle + sent ∧ sent ≤ flow.granted.toNat
    ∧ ∀ earlier < sent, ∃ credit, member.session.sender? handle = some credit
        ∧ 1 ≤ flow.reference + flow.granted - (credit.deliveryCount + .ofNat earlier)
        ∧ flow.reference + flow.granted - (credit.deliveryCount + .ofNat earlier) ≤ flow.granted
  := by
  obtain ⟨actions, uncredited, hlater⟩ := hlater
  cases hsender : member.session.sender? handle with
  | none =>
      obtain ⟨after, hafter, hsame, hnone⟩ := standing_flow hget h hsender payload
      have hbegun : after.sentOn handle = member.sentOn handle := congrArg Standing.begun hsame
      refine ⟨0, ?_, Nat.zero_le _, fun earlier hlt => absurd hlt (Nat.not_lt_zero earlier)⟩
      rw [sentOn_run hafter (by simp [hnone]) uncredited hlater, hbegun]
      rfl
  | some credit =>
      obtain ⟨meter, hmeter, hsending, rfl⟩ := Session.sender?_eq_some_iff.mp hsender
      obtain ⟨sent, hpasses, -⟩ := passes_flow_run hget h hmeter hsending payload uncredited hlater
      have hwithin : sent ≤ (LinkCredit.remaining flow.reference flow.granted
          meter.credit.deliveryCount).toNat :=
        Nat.le_trans (Nat.le_add_right _ _) hpasses.budget
      refine ⟨sent, hpasses.begun, Nat.le_trans hwithin LinkCredit.remaining_le, ?_⟩
      intro earlier hlt
      exact ⟨meter.credit, rfl, LinkCredit.allowed_of_lt (Nat.lt_of_lt_of_le hlt hwithin)⟩

/-- A link that is not dropped after a flow goes on as far as messages were sent on it, and further
only if the credit that is left is to be given back. -/
theorem spends_flow_run (reachable : world.Reachable) (hget : world.members[index]? = some member)
    (h : flow.handle = some handle) {credit : LinkCredit}
    (hsender : member.session.sender? handle = some credit) (payload : Bytes)
    (actions : List Action) (uncredited : ∀ action ∈ actions, ¬ action.Credits index handle)
    (lasting : ∀ action ∈ actions, ¬ action.Drops index handle) {later : Member}
    (hlater : ((world.step (.flow index flow payload)).run actions).members[index]? = some later) :
  ∃ sent credit', later.sentOn handle = member.sentOn handle + sent
    ∧ later.session.sender? handle = some credit'
    ∧ LinkCredit.Spends sent
        (credit.onFlow flow.deliveryCount (flow.linkCredit.getD 0) flow.drain) credit'
    ∧ (flow.drain = true → credit'.credit = 0)
  := by
  obtain ⟨meter, hmeter, hsending, rfl⟩ := Session.sender?_eq_some_iff.mp hsender
  obtain ⟨sent, hpasses, hdrained⟩ :=
    passes_flow_run hget h hmeter hsending payload uncredited hlater
  have hreceived := reachable.detachReceived hget hmeter
  obtain ⟨attached, credit', hmeter', hspends⟩ := hpasses.goes lasting _ rfl hreceived
  refine ⟨sent, credit', hpasses.begun, ?_, hspends, ?_⟩
  · exact Session.sender?_eq_some_iff.mpr ⟨_, hmeter', hsending, rfl⟩
  · intro hdrain
    have hbudget := hdrained hdrain
    rw [Standing.budget, hmeter'] at hbudget
    exact UInt32.toNat_inj.mp hbudget

theorem counted_flow (reachable : world.Reachable) (hget : world.members[index]? = some member)
    (h : flow.handle = some handle) (keeps : flow.drain = false) {credit : LinkCredit}
    (hsender : member.session.sender? handle = some credit) (payload : Bytes) {later : Member}
    (hlater : (world.step (.flow index flow payload)).Reaches index
      (fun action => action.Credits index handle ∨ action.Drops index handle) later) :
  ∃ sent credit', later.sentOn handle = member.sentOn handle + sent
    ∧ later.session.sender? handle = some credit'
    ∧ credit'.deliveryCount = credit.deliveryCount + .ofNat sent
    ∧ credit'.credit = LinkCredit.remaining flow.reference flow.granted credit'.deliveryCount
  := by
  obtain ⟨actions, apart, hlater⟩ := hlater
  obtain ⟨sent, credit', hsent, hsender', hspends, -⟩ := spends_flow_run reachable hget h hsender
    payload actions (fun action hmem hcredits => apart action hmem (.inl hcredits))
    (fun action hmem hdrops => apart action hmem (.inr hdrops)) hlater
  obtain ⟨used, -, hused, rfl, hall⟩ := hspends.goes
  obtain rfl : used = sent := by
    rcases hall with hsame | ⟨hdrain, -⟩
    · exact hsame
    · rw [LinkCredit.onFlow, keeps] at hdrain
      contradiction
  exact ⟨used, _, hsent, hsender', rfl, LinkCredit.remaining_onward hused⟩

theorem drained_flow (reachable : world.Reachable) (hget : world.members[index]? = some member)
    (h : flow.handle = some handle) (drain : flow.drain = true) {credit : LinkCredit}
    (hsender : member.session.sender? handle = some credit) (payload : Bytes) {after : Member}
    (hafter : (world.step (.flow index flow payload)).members[index]? = some after) :
  ∃ credit', after.session.sender? handle = some credit' ∧ credit'.credit = 0
    ∧ credit'.deliveryCount
      = if flow.reference + flow.granted - credit.deliveryCount ≤ flow.granted then
          flow.reference + flow.granted
        else credit.deliveryCount
  := by
  obtain ⟨sent, credit', -, hsender', hspends, hspent⟩ := spends_flow_run reachable hget h hsender
    payload [] (by simp) (by simp) hafter
  refine ⟨credit', hsender', hspent drain, ?_⟩
  have hzero := hspent drain
  obtain ⟨used, -, hused, rfl, -⟩ := hspends.goes
  have hleft := LinkCredit.credit_onward hused
  rw [hzero] at hleft
  have hall : used = (credit.onFlow flow.deliveryCount (flow.linkCredit.getD 0)
      flow.drain).credit.toNat := by
    change 0 = _ at hleft
    omega
  rw [hall]
  change credit.deliveryCount + .ofNat (LinkCredit.remaining flow.reference flow.granted
    credit.deliveryCount).toNat = _
  rw [UInt32.ofNat_toNat]
  exact LinkCredit.add_remaining

/-! ### What one delivery takes -/

theorem attached_of_meter {session : Session} {meter : Meter}
    (hmeter : (session.standing handle).meter = some meter) (attached : meter.attached = true) :
  ∃ endpoint, session.endpoints.get? handle = some endpoint ∧ endpoint.link.isAttached = true
  := by
  obtain ⟨endpoint, hget, rfl⟩ := Option.map_eq_some_iff.mp hmeter
  exact ⟨endpoint, hget, attached⟩

theorem attached_step (hget : world.members[index]? = some member) {act : Session.Act}
    {later : Member} (hlater : (world.step (.serve index act)).members[index]? = some later)
    (begins : later.sentOn handle ≠ member.sentOn handle) :
  ∃ endpoint endpoint', member.session.endpoints.get? handle = some endpoint
    ∧ endpoint.link.isAttached = true
    ∧ later.session.endpoints.get? handle = some endpoint'
    ∧ endpoint'.link.isAttached = true
  := by
  have hsends {sent : Nat} {x : Standing} (hbegun : x.begun = member.sentOn handle)
      (hattached : ∀ meter, x.meter = some meter → meter.attached = true →
        ∃ before, (member.session.standing handle).meter = some before ∧ before.attached = true)
      (hsends : x.Sends sent (later.standing handle)) :
      ∃ endpoint endpoint', member.session.endpoints.get? handle = some endpoint
        ∧ endpoint.link.isAttached = true
        ∧ later.session.endpoints.get? handle = some endpoint'
        ∧ endpoint'.link.isAttached = true := by
    rw [← hbegun] at begins
    obtain ⟨meter, meter', hmeter, hcarries, hmeter', hcarries'⟩ := hsends.attached begins
    obtain ⟨before, hbefore, hcarried⟩ := hattached meter hmeter hcarries
    obtain ⟨endpoint, hendpoint, hattached⟩ := attached_of_meter hbefore hcarried
    obtain ⟨endpoint', hendpoint', hattached'⟩ := attached_of_meter hmeter' hcarries'
    exact ⟨endpoint, endpoint', hendpoint, hattached, hendpoint', hattached'⟩
  by_cases hcredits : act.Credits handle
  · obtain ⟨flow, payload, hflow, rfl⟩ := Session.Act.flow_of_credits hcredits
    cases hsender : member.session.sender? handle with
    | none =>
        obtain ⟨after, hafter, hsame, -⟩ := standing_flow hget hflow hsender payload
        obtain rfl := Option.some.inj (hafter.symm.trans hlater)
        exact absurd (congrArg Standing.begun hsame) begins
    | some credit =>
        obtain ⟨meter, hmeter, hsending, -⟩ := Session.sender?_eq_some_iff.mp hsender
        obtain ⟨after, sent, hafter, hstep, -⟩ := sends_flow hget hflow hmeter hsending payload
        obtain rfl := Option.some.inj (hafter.symm.trans hlater)
        apply hsends rfl _ hstep
        intro credited hcredited hattached
        obtain rfl := Option.some.inj hcredited
        exact ⟨meter, hmeter, hattached⟩
  · obtain rfl := Option.some.inj ((member_serve hget act).symm.trans hlater)
    rcases member.sends_or_passes_run hcredits world.store with ⟨sent, hstep⟩ | hpasses
    · apply hsends (x := member.standing handle) rfl _ hstep
      intro meter hmeter hattached
      exact ⟨meter, hmeter, hattached⟩
    · exact absurd hpasses.begun begins

end World

/-- Every delivery is begun once and moves the delivery count on by one. -/
theorem Serving.credit_sendNext? {s s' : Serving} {handle : UInt32}
    (h : s.sendNext? handle = some s') :
  ∃ endpoint endpoint', s.session.endpoints.get? handle = some endpoint
    ∧ endpoint.link.isAttached = true ∧ endpoint.link.credit.maySend = true
    ∧ s'.session.begunOn handle = s.session.begunOn handle + 1
    ∧ s'.session.endpoints.get? handle = some endpoint'
    ∧ endpoint'.link.credit.deliveryCount = endpoint.link.credit.deliveryCount + 1
    ∧ endpoint'.link.credit.credit = endpoint.link.credit.credit - 1
  := by
  obtain ⟨endpoint, pick, hget, hpick, hattached, hmay, rfl⟩ := sendNext?_eq_some h
  have hstanding : (s.send handle endpoint pick).session.standing handle = _ :=
    standing_send handle hpick
  have hendpoint : (s.send handle endpoint pick).session.endpoints.get? handle
      = some { endpoint with
          kind := pick.kind
          link := { endpoint.link with credit := endpoint.link.credit.spend } } := by
    rw [endpoints_send]
    exact Table.get?_put_self handle _ _
  refine ⟨endpoint, _, hget, hattached, hmay, ?_, hendpoint, rfl, rfl⟩
  have hbegun := congrArg Standing.begun hstanding
  rw [if_pos rfl] at hbegun
  exact hbegun

namespace World

variable {world : World} {index : Nat} {member : Member}

/-- No more is sent on a link of a session than the last flow that named it allows, whatever came
about in the world and whatever comes about in it then. -/
theorem sending_within_credit (reachable : world.Reachable)
    (hget : world.members[index]? = some member) (handle : UInt32) :
  Credited world index member handle
  := by
  constructor
  · rintro spent later ⟨actions, uncredited, hlater⟩
    exact sentOn_run hget spent uncredited hlater
  · intro flow payload h later hlater
    exact within_flow hget h payload hlater
  · intro flow payload h keeps credit hsender later hlater
    exact counted_flow reachable hget h keeps hsender payload hlater
  · intro flow payload h drain after hafter
    refine ⟨fun credit hsender => drained_flow reachable hget h drain hsender payload hafter, ?_⟩
    rintro later ⟨actions, uncredited, hlater⟩
    apply sentOn_run hafter _ uncredited hlater
    intro credit' hsender'
    cases hsender : member.session.sender? handle with
    | none =>
        obtain ⟨after', hafter', -, hnone⟩ := standing_flow hget h hsender payload
        obtain rfl := Option.some.inj (hafter'.symm.trans hafter)
        rw [hnone] at hsender'
        contradiction
    | some credit =>
        obtain ⟨credit'', hsender'', hzero, -⟩ :=
          drained_flow reachable hget h drain hsender payload hafter
        obtain rfl := Option.some.inj (hsender''.symm.trans hsender')
        exact hzero
  · intro act later hlater begins
    exact attached_step hget hlater begins
  · intro s s' hnext
    exact Serving.credit_sendNext? hnext

/-- Two of three messages are sent on a link by a flow that grants two. -/
theorem sending_within_credit_of_granted :
  ∃ world member later, world.members[0]? = some member ∧ Credited world 0 member 0
    ∧ (world.step (.flow 0 ⟨some 0, 9, 0, 9, some 0, some 0, some 2, none, false, false⟩
        [])).members[0]? = some later
    ∧ member.sentOn 0 = 0 ∧ later.sentOn 0 = 2
  := ⟨empty.run [.addQueue "q" .unlimited true, .enqueue 0 [0, 1], .enqueue 0 [2], .enqueue 0 [3],
      .begin ⟨none, 0, 9, 9, none⟩ ⟨9, 9, 0, true, 512⟩,
      .serve 0 (.handle (.attach
        ⟨"b", 0, .receiver, .mixed, .first,
          some ⟨some "q", none, none, none, false, none, .null, none, none, none⟩, none, none,
          none⟩) [])],
    _, _, rfl, sending_within_credit ⟨_, rfl⟩ rfl 0, rfl, by decide +kernel, by decide +kernel⟩

end World

end MessageBroker
