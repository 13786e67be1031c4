import MessageBroker.Link.Credit

/-!
# The ends of a link agree on its credit

The sender and the receiver of a link each keep account of its credit, and hear of each other only
by transfers and flows that are on their way for some time.  A flow counts its credit from what the
receiver had received when it sent the flow, so that a flow that is out of date grants no more than
the receiver expects, however the counts wrap.  Once nothing is on its way the ends agree, and
there is credit left.
-/

namespace MessageBroker

namespace LinkCredit

/-- A delivery may be sent, or is accepted, if there is credit for one. -/
theorem maySend_iff (c : LinkCredit) :
  c.maySend = true ↔ 0 < c.credit.toNat
  := by
  rw [maySend, decide_eq_true_iff, Nat.pos_iff_ne_zero, ne_eq, ne_eq, ← UInt32.toNat_inj]
  rfl

/-- What is left of credit is what was granted less what was used since, as long as no more was
used than was granted. -/
theorem remaining_ofNat {reference count : Nat} {credit : UInt32}
    (from_reference : reference ≤ count) (within : count ≤ reference + credit.toNat) :
  remaining (.ofNat reference) credit (.ofNat count) = .ofNat (reference + credit.toNat - count)
  := by
  have hlt := credit.toNat_lt
  have hleft : UInt32.ofNat reference + credit - UInt32.ofNat count
      = .ofNat (reference + credit.toNat - count) := by
    apply UInt32.toNat_inj.mp
    rw [UInt32.toNat_sub, UInt32.toNat_add, UInt32.toNat_ofNat', UInt32.toNat_ofNat',
      UInt32.toNat_ofNat']
    omega
  rw [remaining, hleft]
  apply if_neg
  rw [gt_iff_lt, UInt32.lt_iff_toNat_lt, UInt32.toNat_ofNat']
  omega

end LinkCredit

/-! ### Links between two ends -/

/-- What a flow tells of a link: how much credit there is, and from which delivery count. -/
structure CreditFlow where
  /-- How many deliveries the receiver had received. -/
  deliveryCount : UInt32
  /-- How many more it accepts. -/
  credit : UInt32
  deriving DecidableEq, Repr

/-- The ends of a link, and what is on its way between them. -/
structure CreditedLink where
  /-- The end that sends deliveries. -/
  sender : LinkCredit
  /-- The end that receives them. -/
  receiver : LinkCredit
  /-- How many transfers are on their way to the receiver; they do not differ. -/
  transfers : Nat
  /-- The flows that are on their way to the sender, in the order they were sent. -/
  flows : List CreditFlow
  deriving DecidableEq, Repr

namespace CreditedLink

/-- What happens on a link. -/
inductive Event where
  /-- The sender sends a delivery, if it may. -/
  | send
  /-- The next transfer arrives. -/
  | receive
  /-- The next flow arrives. -/
  | learn
  deriving DecidableEq, Repr

/-- The receiver grants credit, and tells the sender. -/
def grant (link : CreditedLink) (credit : UInt32) : CreditedLink :=
  let receiver := link.receiver.grant credit
  { link with receiver, flows := link.flows ++ [⟨receiver.deliveryCount, receiver.credit⟩] }

/-- A link whose receiver has granted credit, with both ends at a delivery count. -/
def start (deliveryCount credit : UInt32) : CreditedLink :=
  grant ⟨.start deliveryCount, .start deliveryCount, 0, []⟩ credit

/-- What becomes of a link with a handle, whose receiver grants so much credit at a time.  What
cannot happen leaves the link as it is. -/
def step (credit handle : UInt32) (link : CreditedLink) : Event → Except Fault CreditedLink
  | .send =>
    if link.sender.maySend then do
      let sender ← link.sender.consume handle
      return { link with sender, transfers := link.transfers + 1 }
    else return link
  | .receive =>
    match link.transfers with
    | 0 => return link
    | transfers + 1 => do
      let receiver ← link.receiver.onTransfer handle
      let link := { link with receiver, transfers }
      return if receiver.needsReplenish then link.grant credit else link
  | .learn =>
    match link.flows with
    | [] => return link
    | flow :: flows =>
      return { link with
        sender := link.sender.onFlow (some flow.deliveryCount) flow.credit false
        flows }

/-- What becomes of a link by one event after another, up to the first fault. -/
def run (credit handle : UInt32) (link : CreditedLink) (events : List Event) :
    Except Fault CreditedLink :=
  events.foldlM (step credit handle) link

/-! ### What the ends know -/

/-- Flows let a sender that may send up to one limit send up to another.  Limits are numbers of
deliveries that do not wrap, and no flow takes back what the one before it granted. -/
inductive Raises (credit : UInt32) : Nat → List CreditFlow → Nat → Prop where
  /-- Without a flow the limit stays. -/
  | none (limit : Nat) : Raises credit limit [] limit
  /-- A flow sets a limit that is no lower. -/
  | flow {limit reference limit' : Nat} {flows : List CreditFlow}
    (raises : limit ≤ reference + credit.toNat)
    (others : Raises credit (reference + credit.toNat) flows limit') :
    Raises credit limit (⟨.ofNat reference, credit⟩ :: flows) limit'

theorem Raises.le {credit : UInt32} {limit limit' : Nat} {flows : List CreditFlow}
    (h : Raises credit limit flows limit') :
  limit ≤ limit'
  := by
  induction h with
  | none limit => exact Nat.le_refl limit
  | flow raises _ ih => exact Nat.le_trans raises ih

/-- One more flow may follow that sets a limit that is no lower. -/
theorem Raises.append {credit : UInt32} {limit limit' reference : Nat} {flows : List CreditFlow}
    (h : Raises credit limit flows limit') (raises : limit' ≤ reference + credit.toNat) :
  Raises credit limit (flows ++ [⟨.ofNat reference, credit⟩]) (reference + credit.toNat)
  := by
  induction h with
  | none limit => exact .flow raises (.none _)
  | flow raises' _ ih => exact .flow raises' (ih raises)

/-- The ends of a link agree but for what is on its way, when the receiver has received so many
deliveries: what the sender may send, with the flows on their way, is what the receiver accepts. -/
structure Agrees (credit : UInt32) (received : Nat) (link : CreditedLink) : Prop where
  /-- The receiver has counted what it received. -/
  receiver : link.receiver.deliveryCount = .ofNat received
  /-- The sender has counted what is on its way too. -/
  sender : link.sender.deliveryCount = .ofNat (received + link.transfers)
  /-- The receiver tops its credit up to the same amount every time. -/
  issued : link.receiver.issued = credit
  /-- The receiver accepts a delivery. -/
  positive : 0 < link.receiver.credit.toNat
  /-- The receiver accepts no more deliveries than it grants at a time. -/
  within : link.receiver.credit.toNat ≤ credit.toNat
  /-- The flows let the sender send what the receiver accepts. -/
  limit : Raises credit (received + link.transfers + link.sender.credit.toNat) link.flows
    (received + link.receiver.credit.toNat)

namespace Agrees

variable {credit : UInt32} {received : Nat} {link : CreditedLink}

/-- The receiver may grant credit anew whenever it has received no more than it accepted. -/
theorem of_grant {limit : Nat} (receiver : link.receiver.deliveryCount = .ofNat received)
    (sender : link.sender.deliveryCount = .ofNat (received + link.transfers))
    (positive : credit ≠ 0)
    (raises : Raises credit (received + link.transfers + link.sender.credit.toNat) link.flows limit)
    (le : limit ≤ received + credit.toNat) :
  (link.grant credit).Agrees credit received
  := by
  constructor
  · exact receiver
  · exact sender
  · rfl
  · exact Nat.pos_of_ne_zero fun h => positive (UInt32.toNat_inj.mp h)
  · exact Nat.le_refl _
  · change Raises credit _ (link.flows ++ [⟨link.receiver.deliveryCount, credit⟩]) _
    rw [receiver]
    exact raises.append le

theorem start (deliveryCount : UInt32) (positive : credit ≠ 0) :
  (CreditedLink.start deliveryCount credit).Agrees credit deliveryCount.toNat
  := of_grant UInt32.ofNat_toNat.symm UInt32.ofNat_toNat.symm positive (.none _)
    (Nat.le_add_right _ _)

/-- The sender has no more credit than the receiver grants at a time. -/
theorem credit_le (agrees : link.Agrees credit received) :
  link.sender.credit ≤ credit
  := by
  have hlimit := agrees.limit.le
  have hwithin := agrees.within
  apply UInt32.le_iff_toNat_le.mpr
  omega

/-- The sender sends a delivery. -/
theorem send (agrees : link.Agrees credit received) (may : link.sender.maySend = true) :
  Agrees credit received { link with sender := link.sender.spend, transfers := link.transfers + 1 }
  := by
  have hone : (1 : UInt32) ≤ link.sender.credit :=
    UInt32.le_iff_toNat_le.mpr (link.sender.maySend_iff.mp may)
  have hspent : received + (link.transfers + 1) + (link.sender.credit - 1).toNat
      = received + link.transfers + link.sender.credit.toNat := by
    have hnat := UInt32.le_iff_toNat_le.mp hone
    rw [UInt32.toNat_sub_of_le _ _ hone]
    simp only [UInt32.toNat_one] at hnat ⊢
    omega
  constructor
  · exact agrees.receiver
  · change link.sender.deliveryCount + 1 = _
    rw [agrees.sender, ← Nat.add_assoc, UInt32.ofNat_add (received + link.transfers)]
    rfl
  · exact agrees.issued
  · exact agrees.positive
  · exact agrees.within
  · have hlimit := agrees.limit
    rw [← hspent] at hlimit
    exact hlimit

/-- A flow arrives.  The sender has used no more than the flow grants, and no less than the
receiver had received when it sent it. -/
theorem learn (agrees : link.Agrees credit received) {flow : CreditFlow} {flows : List CreditFlow}
    (arrives : link.flows = flow :: flows) :
  Agrees credit received { link with
    sender := link.sender.onFlow (some flow.deliveryCount) flow.credit false, flows }
  := by
  have hlimit := agrees.limit
  rw [arrives] at hlimit
  obtain _ | @⟨_, reference, _, _, raises, others⟩ := hlimit
  have hwithin := agrees.within
  have hothers := others.le
  have hcredit : LinkCredit.remaining (.ofNat reference) credit link.sender.deliveryCount
      = .ofNat (reference + credit.toNat - (received + link.transfers)) := by
    rw [agrees.sender]
    apply LinkCredit.remaining_ofNat
    · omega
    · omega
  constructor
  · exact agrees.receiver
  · exact agrees.sender
  · exact agrees.issued
  · exact agrees.positive
  · exact hwithin
  · have hleft : received + link.transfers
          + (LinkCredit.remaining (.ofNat reference) credit link.sender.deliveryCount).toNat
        = reference + credit.toNat := by
      have hlt := credit.toNat_lt
      rw [hcredit, UInt32.toNat_ofNat']
      omega
    change Raises credit (received + link.transfers
      + (LinkCredit.remaining (.ofNat reference) credit link.sender.deliveryCount).toNat) flows _
    rw [hleft]
    exact others

/-- A transfer arrives, and is accepted.  The receiver grants credit anew before it has none. -/
theorem receive (agrees : link.Agrees credit received) (positive : credit ≠ 0) {transfers : Nat}
    (arrives : link.transfers = transfers + 1) :
  let link' := { link with receiver := link.receiver.spend, transfers }
  Agrees credit (received + 1)
    (if link.receiver.spend.needsReplenish then link'.grant credit else link')
  := by
  intro link'
  have hone : (1 : UInt32) ≤ link.receiver.credit := UInt32.le_iff_toNat_le.mpr agrees.positive
  have hspent : (link.receiver.credit - 1).toNat = link.receiver.credit.toNat - 1 :=
    UInt32.toNat_sub_of_le _ _ hone
  have hpositive := agrees.positive
  have hwithin := agrees.within
  have hsent : received + link.transfers = received + 1 + transfers := by omega
  have hcount : link'.receiver.deliveryCount = .ofNat (received + 1) := by
    change link.receiver.deliveryCount + 1 = _
    rw [agrees.receiver, UInt32.ofNat_add]
    rfl
  have hsender : link'.sender.deliveryCount = .ofNat (received + 1 + transfers) := by
    rw [← hsent]
    exact agrees.sender
  have hlimit := agrees.limit
  rw [hsent] at hlimit
  split
  · apply of_grant hcount hsender positive hlimit
    omega
  · next hkept =>
      constructor
      · exact hcount
      · exact hsender
      · exact agrees.issued
      · change 0 < (link.receiver.credit - 1).toNat
        have hhalf : ¬ link.receiver.credit - 1 ≤ credit / 2 := by
          intro hle
          apply hkept
          have hissued : link.receiver.spend.issued = credit := agrees.issued
          have hcredit : link.receiver.spend.credit = link.receiver.credit - 1 := rfl
          simp [LinkCredit.needsReplenish, hissued, hcredit, positive, hle]
        rw [UInt32.le_iff_toNat_le] at hhalf
        omega
      · change (link.receiver.credit - 1).toNat ≤ credit.toNat
        omega
      · have hkeeps : received + 1 + (link.receiver.credit - 1).toNat
            = received + link.receiver.credit.toNat := by omega
        change Raises credit _ _ (received + 1 + (link.receiver.credit - 1).toNat)
        rw [hkeeps]
        exact hlimit

/-- Whatever happens on a link, there is no fault, and the ends agree but for what is on its way. -/
theorem step (agrees : link.Agrees credit received) (positive : credit ≠ 0) (handle : UInt32)
    (event : Event) :
  ∃ link' received', link.step credit handle event = .ok link' ∧ link'.Agrees credit received'
  := by
  cases event with
  | send =>
      rw [CreditedLink.step]
      split
      · next may =>
          rw [LinkCredit.consume, if_pos may]
          exact ⟨_, received, rfl, agrees.send may⟩
      · exact ⟨link, received, rfl, agrees⟩
  | receive =>
      rw [CreditedLink.step]
      split
      · exact ⟨link, received, rfl, agrees⟩
      · next transfers arrives =>
          rw [LinkCredit.onTransfer, if_pos (link.receiver.maySend_iff.mpr agrees.positive)]
          exact ⟨_, received + 1, rfl, agrees.receive positive arrives⟩
  | learn =>
      rw [CreditedLink.step]
      split
      · exact ⟨link, received, rfl, agrees⟩
      · next flow flows arrives => exact ⟨_, received, rfl, agrees.learn arrives⟩

/-- The ends agree but for what is on its way after any events. -/
theorem run (agrees : link.Agrees credit received) (positive : credit ≠ 0) (handle : UInt32)
    (events : List Event) :
  ∃ link' received', link.run credit handle events = .ok link' ∧ link'.Agrees credit received'
  := by
  induction events generalizing link received with
  | nil => exact ⟨link, received, rfl, agrees⟩
  | cons event events ih =>
      obtain ⟨link', received', hstep, hagrees⟩ := agrees.step positive handle event
      rw [CreditedLink.run, List.foldlM_cons, hstep]
      exact ih hagrees

end Agrees

/-! ### Agreement -/

/-- What the ends of a link with a handle know of its credit, whatever has happened on it. -/
structure Settled (credit handle : UInt32) (link : CreditedLink) : Prop where
  /-- A transfer is accepted whenever one arrives. -/
  accepts : ∃ receiver, link.receiver.onTransfer handle = .ok receiver
  /-- The sender may not send more than the receiver grants at a time. -/
  within : link.sender.credit ≤ credit
  /-- Once nothing is on its way the ends agree. -/
  agree : link.transfers = 0 → link.flows = [] → link.sender.credit = link.receiver.credit
    ∧ link.sender.deliveryCount = link.receiver.deliveryCount
  /-- Once nothing is on its way the sender may send. -/
  goes_on : link.transfers = 0 → link.flows = [] → link.sender.maySend = true

theorem Agrees.settled {credit : UInt32} {received : Nat} {link : CreditedLink}
    (agrees : link.Agrees credit received) (handle : UInt32) :
  link.Settled credit handle
  := by
  have hcredit (empty : link.transfers = 0) (flows : link.flows = []) :
      link.sender.credit = link.receiver.credit := by
    have hlimit := agrees.limit
    rw [flows] at hlimit
    generalize hfrom : received + link.transfers + link.sender.credit.toNat = sent at hlimit
    generalize hto : received + link.receiver.credit.toNat = accepted at hlimit
    obtain _ | _ := hlimit
    apply UInt32.toNat_inj.mp
    omega
  constructor
  · exact ⟨link.receiver.spend, if_pos (link.receiver.maySend_iff.mpr agrees.positive)⟩
  · exact agrees.credit_le
  · intro empty flows
    refine ⟨hcredit empty flows, ?_⟩
    rw [agrees.sender, agrees.receiver, empty, Nat.add_zero]
  · intro empty flows
    rw [LinkCredit.maySend_iff, hcredit empty flows]
    exact agrees.positive

/-- Whatever happens on a link between two ends that start at the same delivery count, and in
whatever order, no transfer is refused, and once nothing is on its way the ends agree and the
sender may send. -/
theorem ends_agree (deliveryCount handle : UInt32) {credit : UInt32} (positive : credit ≠ 0)
    (events : List Event) :
  ∃ link, (start deliveryCount credit).run credit handle events = .ok link
    ∧ link.Settled credit handle
  := by
  obtain ⟨link, received, hrun, agrees⟩ :=
    (Agrees.start deliveryCount positive).run positive handle events
  exact ⟨link, hrun, agrees.settled handle⟩

/-- The counts of a link wrap while a transfer and a flow pass each other. -/
theorem ends_agree_of_wrapped :
  ∃ link, (start 4294967295 3).run 3 0
      [.learn, .send, .receive, .send, .receive, .send, .learn, .receive] = .ok link
    ∧ link.transfers = 0 ∧ link.flows = [] ∧ link.sender.deliveryCount = 2
    ∧ link.sender.credit = 2 ∧ link.Settled 3 0
  := by
  have positive : (3 : UInt32) ≠ 0 := by decide
  obtain ⟨link, hrun, settled⟩ := ends_agree 4294967295 0 positive
    [.learn, .send, .receive, .send, .receive, .send, .learn, .receive]
  obtain rfl : ⟨⟨2, 2, 0, false⟩, ⟨2, 2, 3, false⟩, 0, []⟩ = link := Except.ok.inj hrun
  exact ⟨_, hrun, rfl, rfl, rfl, rfl, settled⟩

end CreditedLink

end MessageBroker
