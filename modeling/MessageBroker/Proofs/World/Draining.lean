import MessageBroker.Proofs.Session.Draining
import MessageBroker.Proofs.World.Crediting
import MessageBroker.Proofs.World.Parting

/-!
# Credit is given back when it is asked for

A session gives credit back only when a flow of its peer asks for it.  What is sent on the link then
is all that may be sent, and nothing waits for the link any more, unless the link is not attached or
the peer has closed its window: a peer that asks for its credit while its window is closed gets it
back, though messages wait.
-/

namespace MessageBroker

open Session

/-- A session at work, once a flow of its peer has told the windows and given credit to a link. -/
def Serving.credited (s : Serving) (flow : Flow) (key : UInt32) (endpoint : Endpoint) : Serving :=
  (s.onSession (Operation.tellWindows flow)).onSession (·.putEndpoint key (endpoint.credited flow))

namespace World

variable {world : World} {index : Nat} {member : Member} {handle : UInt32}

/-- When the credit of a link is given back, and when it is kept. -/
structure GivesBack (world : World) (index : Nat) (member : Member) (handle : UInt32) : Prop where
  /-- By an action that is no flow that names the link, credit is used for deliveries alone. -/
  unasked : ∀ action : Action, ¬ action.Credits index handle → ¬ action.Drops index handle →
    ∀ credit, member.session.sender? handle = some credit →
      ∃ later sent, (world.step action).members[index]? = some later
        ∧ later.sentOn handle = member.sentOn handle + sent
        ∧ later.session.sender? handle = some (credit.onward sent)
  /-- By a flow that names the link, all that may be sent on it is sent, and nothing while the
  window is closed.  Then the credit that is left is given back if the peer wants that, and kept if
  not.  If it is given back, no message waits, unless the link is not attached or the window is
  closed. -/
  asked : ∀ flow payload endpoint, flow.handle = some handle →
    member.session.endpoints.get? handle = some endpoint → endpoint.kind.isSending = true →
      ∃ sent count left later,
        sent = (Serving.credited ⟨member.session, world.store⟩ flow handle endpoint).exhausted handle
        ∧ (Operation.windowAfter flow member.session.nextOutgoingId = 0 →
            sent = Serving.credited ⟨member.session, world.store⟩ flow handle endpoint)
        ∧ sent.session.begunOn handle = member.session.begunOn handle + count
        ∧ sent.session.endpoints.get? handle = some left
        ∧ (endpoint.credited flow).Spent count left
        ∧ (world.step (.flow index flow payload)).members[index]? = some later
        ∧ later.session = ((if left.Surrenders then sent.surrendered handle left else sent).echo
            flow handle).session
        ∧ (world.step (.flow index flow payload)).store = sent.store
        ∧ (left.Surrenders → left.link.isAttached = true →
            sent.session.remoteIncomingWindow ≠ 0 → left.Idle sent.store)

/-- Until a flow names a link, its credit is used for deliveries alone. -/
theorem onward_step (reachable : world.Reachable) (hget : world.members[index]? = some member)
    {action : Action} (unasked : ¬ action.Credits index handle)
    (lasting : ¬ action.Drops index handle) {credit : LinkCredit}
    (hsender : member.session.sender? handle = some credit) :
  ∃ later sent, (world.step action).members[index]? = some later
    ∧ later.sentOn handle = member.sentOn handle + sent
    ∧ later.session.sender? handle = some (credit.onward sent)
  := by
  obtain ⟨later, sent, hlater, hpasses⟩ := passes_step hget unasked
  obtain ⟨meter, hmeter, hsending, rfl⟩ := Session.sender?_eq_some_iff.mp hsender
  obtain ⟨attached, credit, hafter, hspends⟩ :=
    hpasses.goes lasting meter hmeter (reachable.detachReceived hget hmeter)
  obtain ⟨used, hsent, hused, rfl, hall⟩ := hspends.goes
  obtain rfl : used = sent := by
    rcases hall with hsame | ⟨drain, hwhole⟩
    · exact hsame
    · obtain ⟨endpoint, there, rfl⟩ := Option.map_eq_some_iff.mp hmeter
      have sending : endpoint.kind.isSending = true := hsending
      have rest := reachable.atRest member (List.mem_of_getElem? hget) handle endpoint there
      have same : endpoint.meter.credit = endpoint.link.credit := by
        rw [Endpoint.meter, sending]
        rfl
      rw [same] at drain hwhole
      rw [rest.spent drain id] at hwhole
      change used = 0 at hwhole
      omega
  exact ⟨later, used, hlater, hpasses.begun,
    Session.sender?_eq_some_iff.mpr ⟨_, hafter, hsending, rfl⟩⟩

/-- A session gives the credit of a link back only when a flow asks for it, and then no message
waits for the link, unless it is not attached or the window of the peer is closed. -/
theorem credit_given_back (reachable : world.Reachable)
    (hget : world.members[index]? = some member) (handle : UInt32) :
  GivesBack world index member handle
  := by
  constructor
  · intro action unasked lasting credit hsender
    exact onward_step reachable hget unasked lasting hsender
  · intro flow payload endpoint names there sending
    generalize hstart : Serving.credited ⟨member.session, world.store⟩ flow handle endpoint = start
    have hthere : start.session.endpoints.get? handle = some (endpoint.credited flow) := by
      rw [← hstart]
      exact Table.get?_put_self handle _ _
    have hwindow : start.session.remoteIncomingWindow
        = Operation.windowAfter flow member.session.nextOutgoingId := by
      rw [← hstart]
      rfl
    have hbegun : start.session.begunOn handle = member.session.begunOn handle := by
      rw [← hstart]
      rfl
    obtain ⟨count, left, hleft, spent, begun⟩ :=
      Serving.spent_sendAtMost (start.creditOf handle).toNat hthere
    have sends : left.kind.isSending = true := spent.sending.trans sending
    have handled := Operation.after_of_ok (Operation.handle_of_onFlow
      (Operation.onFlow_of_get? names (s := ⟨member.session, world.store⟩) there) payload)
    rw [if_pos sending] at handled
    change _ = ((Serving.credited ⟨member.session, world.store⟩ flow handle endpoint).pump
      handle).echo flow handle at handled
    rw [hstart, Serving.pump_eq hleft sends] at handled
    refine ⟨_, count, left, _, rfl, fun closed => ?_, by rw [← hbegun]; exact begun, hleft, spent,
      member_serve hget _, congrArg Serving.session handled, ?_, ?_⟩
    · exact Serving.exhausted_of_closed (hwindow.trans closed) handle
    · have store := congrArg Serving.store handled
      rw [step, serve, hget]
      apply store.trans
      rw [Serving.echo]
      split <;> split <;> rfl
    · exact Serving.idle_of_surrenders hleft sends

/-- While its window is closed, a peer gets its credit back though a message waits. -/
theorem credit_given_back_of_closed :
  ∃ world member later, world.members[0]? = some member ∧ GivesBack world 0 member 0
    ∧ (world.step (.flow 0 ⟨some 0, 0, 0, 9, some 0, some 0, some 1, none, true, false⟩
        [])).members[0]? = some later
    ∧ later.sentOn 0 = 0
    ∧ (later.session.sender? 0).map (·.credit) = some 0
    ∧ (later.told 0).map (·.performative.name) = ["attach", "flow"]
    ∧ (world.step (.flow 0 ⟨some 0, 0, 0, 9, some 0, some 0, some 1, none, true, false⟩
        [])).store.available 0 = 1
  := ⟨empty.run [.addQueue "q" .unlimited true, .enqueue 0 [0, 1],
      .begin ⟨none, 0, 9, 9, none⟩ ⟨9, 9, 0, true, 512⟩,
      .serve 0 (.handle (.attach
        ⟨"b", 0, .receiver, .mixed, .first,
          some ⟨some "q", none, none, none, false, none, .null, none, none, none⟩, none, none,
          none⟩) [])],
    _, _, rfl, credit_given_back ⟨_, rfl⟩ rfl 0, rfl, by decide +kernel, by decide +kernel,
    by decide +kernel, by decide +kernel⟩

end World

end MessageBroker
