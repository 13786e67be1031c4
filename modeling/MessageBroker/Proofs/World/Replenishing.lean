import MessageBroker.Proofs.Session.Replenishing
import MessageBroker.Proofs.World.Intake
import MessageBroker.Proofs.World.Parting

/-!
# Credit that lasts

When a delivery that is not aborted comes to its end on a link, more than half of the credit of the
peer is there, and the peer has been told if the credit was topped up.  From then on, whatever
happens in the world, more than half is there but for one that the delivery that is arriving has
used and one for every delivery that was aborted: what an aborted delivery has used is missing until
another delivery comes to its end.
-/

namespace MessageBroker

open Session

/-- By an act the peer aborts a delivery on a link. -/
def Session.Act.aborts (handle : UInt32) : Session.Act → Bool
  | .handle (.transfer transfer) _ => transfer.handle = handle && transfer.aborted
  | _ => false

/-- Credit is only ever topped up to the limit. -/
theorem Purse.Becomes.issued {limit handle : UInt32} {act : Session.Act}
    {purse purse' : Option Purse} (becomes : Becomes limit act handle purse purse')
    (issued : ∀ p ∈ purse, p.credit.issued = limit) :
  ∀ p ∈ purse', p.credit.issued = limit
  := by
  intro p hmem
  cases becomes with
  | same => exact issued p hmem
  | gone => contradiction
  | attached =>
      cases hmem
      rfl
  | @taken purse transfer =>
      cases hmem
      exact issued_next (issued purse rfl) transfer

/-- What the peer has lost of its credit it has lost by deliveries that were aborted. -/
theorem Purse.Becomes.keeps {limit handle : UInt32} {act : Session.Act}
    {purse purse' : Option Purse} (becomes : Becomes limit act handle purse purse')
    (positive : limit ≠ 0) {aborted : Nat} (keeps : ∀ p ∈ purse, p.Keeps limit aborted) :
  ∀ p ∈ purse', p.Keeps limit (aborted + if act.aborts handle then 1 else 0)
  := by
  intro p hmem
  cases becomes with
  | same => exact (keeps p hmem).mono (Nat.le_add_right _ _)
  | gone => contradiction
  | attached _ deliveryCount =>
      cases hmem
      exact keeps_full positive deliveryCount _
  | @taken purse transfer payload asked names may =>
      cases hmem
      rw [asked, Act.aborts, decide_eq_true names, Bool.true_and]
      exact (keeps purse rfl).next positive may

namespace World

/-- By an action the peer of a session aborts a delivery on a link. -/
def Action.aborts (index : Nat) (handle : UInt32) : Action → Bool
  | .serve other act => other = index && act.aborts handle
  | _ => false

variable {world : World} {index : Nat} {member : Member} {handle : UInt32} {aborted : Nat}

/-- The peer of a session keeps more than half of the credit of a link, but for what deliveries use
that are arriving or were aborted. -/
def Provided (world : World) (index : Nat) (handle limit : UInt32) (aborted : Nat) : Prop :=
  ∃ member, world.members[index]? = some member ∧ member.session.limits.linkCredit = limit
    ∧ ∀ purse ∈ member.session.purse? handle, purse.Keeps limit aborted

theorem provided_step (reachable : world.Reachable) {limit : UInt32} (positive : limit ≠ 0)
    (provided : world.Provided index handle limit aborted) (action : Action) :
  (world.step action).Provided index handle limit
    (aborted + if action.aborts index handle then 1 else 0)
  := by
  obtain ⟨member, hget, hlimit, keeps⟩ := provided
  rcases member_step hget action with ⟨act, rfl, hmember, -⟩ | ⟨-, hmember⟩
  · have rest := reachable.atRest member (List.mem_of_getElem? hget)
    have becomes := act.becomes_run (s := ⟨member.session, world.store⟩) rest handle
    have limits := (act.continues_run (s := ⟨member.session, world.store⟩)
      (fun _ h => h) handle).limits
    rw [hlimit] at becomes
    refine ⟨_, hmember, (congrArg _ limits).trans hlimit, ?_⟩
    rw [Action.aborts, decide_eq_true rfl, Bool.true_and]
    exact becomes.keeps positive keeps
  · refine ⟨member, hmember, hlimit, fun purse hmem => (keeps purse hmem).mono ?_⟩
    exact Nat.le_add_right _ _

theorem provided_run (reachable : world.Reachable) {limit : UInt32} (positive : limit ≠ 0)
    (provided : world.Provided index handle limit aborted) (actions : List Action) :
  (world.run actions).Provided index handle limit
    (aborted + actions.countP (Action.aborts index handle))
  := by
  induction actions generalizing world aborted with
  | nil => exact provided
  | cons action actions ih =>
      have first := provided_step reachable positive provided action
      rw [List.countP_cons, Nat.add_comm (List.countP _ _), ← Nat.add_assoc]
      exact ih (reachable.run [action]) first

/-- In every world that comes about, the credit of a link was topped up to the limit. -/
theorem Reachable.issued (reachable : world.Reachable) (handle : UInt32) :
  ∀ member ∈ world.members, member.session.AtRest
    ∧ ∀ purse ∈ member.session.purse? handle,
        purse.credit.issued = member.session.limits.linkCredit
  := by
  refine reachable.forall_members (P := fun member => member.session.AtRest
    ∧ ∀ purse ∈ member.session.purse? handle,
        purse.credit.issued = member.session.limits.linkCredit) ?_ ?_
  · intro terms limits
    refine ⟨fun key endpoint hget => ?_, fun purse hmem => ?_⟩
    · contradiction
    · contradiction
  · intro member store act ⟨rest, issued⟩
    have becomes := act.becomes_run (s := ⟨member.session, store⟩) rest handle
    have limits := (act.continues_run (s := ⟨member.session, store⟩) (fun _ h => h) handle).limits
    refine ⟨Member.rests_run rest store act, fun purse hmem => ?_⟩
    exact (becomes.issued issued purse hmem).trans (congrArg _ limits).symm

/-- A sound configuration gives links credit. -/
theorem linkCredit_of_validate {config : BrokerConfig} (valid : config.validate = .ok ()) :
  config.linkCredit ≠ 0
  := by
  rw [BrokerConfig.validate] at valid
  split at valid
  · contradiction
  · split at valid
    · contradiction
    · split at valid
      · contradiction
      · next hcredit => exact hcredit

/-- From now on, whatever happens, more than half of the credit of a link is there while the broker
has not detached it, but for one that the delivery that is arriving has used and one for every
delivery that was aborted since. -/
def Endures (world : World) (index : Nat) (handle limit : UInt32) : Prop :=
  ∀ actions member endpoint, (world.run actions).members[index]? = some member →
    member.session.endpoints.get? handle = some endpoint → endpoint.kind.isReceiving = true →
    endpoint.link.detachSent = false →
      limit.toNat / 2 < endpoint.link.credit.credit.toNat
        + (if endpoint.assembly.isSome then 1 else 0)
        + actions.countP (Action.aborts index handle)

theorem Provided.endures (reachable : world.Reachable) {limit : UInt32} (positive : limit ≠ 0)
    (provided : world.Provided index handle limit 0) :
  world.Endures index handle limit
  := by
  intro actions member endpoint hget there receives attached
  obtain ⟨member', hget', -, keeps⟩ := provided_run reachable positive provided actions
  obtain rfl := Option.some.inj (hget.symm.trans hget')
  have half := (keeps ⟨endpoint.link.credit, endpoint.assembly.isSome⟩ (by
    rw [purse?_of_get? there]
    exact Endpoint.purse_eq_some_iff.mpr ⟨receives, attached, rfl⟩)).half
  rwa [Nat.zero_add] at half

/-- What is left of the credit of a link, of which the endpoint was the first, when a transfer has
been handled and the link is attached still, at the second endpoint. -/
structure Recredits (world : World) (index : Nat) (transfer : Transfer) (payload : Bytes)
    (endpoint endpoint' : Endpoint) (session session' : Session) : Prop where
  /-- The end of a delivery tops the credit up and tells the peer, unless the delivery is
  aborted. -/
  ends : session.Ends transfer ⟨endpoint.link.credit, endpoint.assembly.isSome⟩
    endpoint'.link.credit session'
  /-- More than half of the credit is there. -/
  half : transfer.aborted = false → transfer.more = false →
    session.limits.linkCredit / 2 < endpoint'.link.credit.credit
  /-- It lasts until deliveries are aborted. -/
  endures : transfer.aborted = false → transfer.more = false →
    (world.step (.serve index (.handle (.transfer transfer) payload))).Endures index transfer.handle
      session.limits.linkCredit

/-- When a transfer has been handled with which a delivery comes to its end, and the link is still
attached, more than half of its credit is there and lasts, and the peer has been told if it was
topped up; only what an aborted delivery has used is not given back. -/
theorem recredited (reachable : world.Reachable) {config : BrokerConfig} {size : UInt32}
    (valid : config.validate = .ok ()) (hget : world.members[index]? = some member)
    (limits : member.session.limits = config.sessionLimits size) {transfer : Transfer}
    {payload : Bytes} {endpoint endpoint' : Endpoint} {s' : Serving}
    (there : member.session.endpoints.get? transfer.handle = some endpoint)
    (receives : endpoint.kind.isReceiving = true) (attached : endpoint.link.detachSent = false)
    (handled : Operation.handle (.transfer transfer) payload ⟨member.session, world.store⟩
      = .ok () s')
    (there' : s'.session.endpoints.get? transfer.handle = some endpoint')
    (attached' : endpoint'.link.detachSent = false) :
  world.Recredits index transfer payload endpoint endpoint' member.session s'.session
  := by
  have hmem := List.mem_of_getElem? hget
  have positive : member.session.limits.linkCredit ≠ 0 := by
    rw [limits]
    exact linkCredit_of_validate valid
  have window : member.session.incomingWindow ≠ 0 := by
    apply (reachable.housed member hmem).window
    rw [limits]
    exact incomingWindow_of_validate valid
  obtain ⟨rest, issued⟩ := reachable.issued transfer.handle member hmem
  have purse : member.session.purse? transfer.handle
      = some ⟨endpoint.link.credit, endpoint.assembly.isSome⟩ := by
    rw [purse?_of_get? there]
    exact Endpoint.purse_eq_some_iff.mpr ⟨receives, attached, rfl⟩
  obtain ⟨next, ends⟩ := Operation.ends_handle_transfer (s := ⟨member.session, world.store⟩)
    (fun endpoint hget => (rest _ _ hget).handle) window purse (issued _ purse) positive handled
    there' attached'
  have half (unaborted : transfer.aborted = false) (last : transfer.more = false) :=
    (ends.last unaborted last).half_lt positive
  refine ⟨ends, half, fun unaborted last => ?_⟩
  have serves := Session.Act.continues_run (.handle (.transfer transfer) payload)
    (s := ⟨member.session, world.store⟩) (fun _ h => h) transfer.handle
  rw [Session.Act.run, Operation.after_of_ok handled] at serves
  have provided : (world.step (.serve index (.handle (.transfer transfer) payload))).Provided index
      transfer.handle member.session.limits.linkCredit 0 := by
    refine ⟨_, (step_of_handled hget handled).1, congrArg _ serves.limits, fun p hmem => ?_⟩
    have same : p = _ := Option.some.inj (hmem.symm.trans ((purse?_of_get? there').trans next))
    have credit := (Endpoint.purse_eq_some_iff.mp next).2.2
    apply Purse.keeps_of_half
    · rw [same]
      exact Purse.issued_next (issued _ purse) transfer
    · rw [same, credit]
      exact half unaborted last
  have reached : (world.step (.serve index (.handle (.transfer transfer) payload))).Reachable :=
    reachable.run [.serve index (.handle (.transfer transfer) payload)]
  exact provided.endures reached positive

/-- On a link with a single credit, a delivery that is accepted is paid for anew, and one that is
aborted leaves the link dry. -/
theorem recredited_of_single_credit :
  ∃ (world : World) (member : Member) (last abort : Transfer) (endpoint endpoint' dry : Endpoint)
      (s s' : Serving),
    world.Recredits 0 last [0x00, 0x53, 0x77, 0x40] endpoint endpoint' member.session s.session
      ∧ last.aborted = false ∧ last.more = false ∧ endpoint'.link.credit.credit = 1
      ∧ world.Recredits 0 abort [] endpoint dry member.session s'.session
      ∧ abort.aborted = true ∧ dry.link.credit.credit = 0
  := by
  have reachable : (empty.run [.addQueue "q" .unlimited true,
      .begin ⟨none, 0, 9, 9, none⟩
        ({ BrokerConfig.standard with linkCredit := 1 }.sessionLimits 512),
      .serve 0 (.handle (.attach
        ⟨"a", 0, .sender, .mixed, .first, none,
          some (.node ⟨some "q", none, none, none, false, none⟩), some 0, none⟩) [])]).Reachable :=
    ⟨_, rfl⟩
  have valid : { BrokerConfig.standard with linkCredit := 1 }.validate = .ok () := rfl
  refine ⟨_, _, ⟨0, some 0, some [0], none, none, false, none, none, false, false, false⟩,
    ⟨0, some 0, some [0], none, none, false, none, none, false, true, false⟩, _, _, _, _, _,
    recredited reachable valid rfl rfl rfl rfl rfl rfl (by exact rfl) (by exact rfl), rfl, rfl, ?_,
    recredited reachable valid rfl rfl rfl rfl rfl rfl (by exact rfl) (by exact rfl), rfl, ?_⟩
  · rfl
  · rfl

end World

end MessageBroker
