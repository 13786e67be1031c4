import MessageBroker.Proofs.Session.Parting
import MessageBroker.Proofs.Session.Tagging

/-!
# What the peer may send on a link

The peer has credit on a link that messages come on.  A delivery uses one of it when it begins.
When a delivery comes to its end the credit is topped up, if at most half of it is left, and the
peer is told; but an aborted delivery leaves the credit as it is.  Nothing else that is done with a
session bears on the credit, but for attaching the link and detaching it.
-/

namespace MessageBroker

open Session

/-! ### Credit -/

namespace LinkCredit

/-- The credit, topped up if at most half of it is left. -/
def toppedUp (c : LinkCredit) (limit : UInt32) : LinkCredit :=
  if c.needsReplenish then c.grant limit else c

variable {c : LinkCredit} {limit : UInt32}

theorem needsReplenish_iff (issued : c.issued = limit) (positive : limit ≠ 0) :
  c.needsReplenish = true ↔ c.credit ≤ limit / 2
  := by
  simp [needsReplenish, issued, positive]

theorem half_lt (positive : limit ≠ 0) :
  limit / 2 < limit
  := by
  rw [UInt32.lt_iff_toNat_lt, UInt32.toNat_div]
  exact Nat.div_lt_self (Nat.pos_of_ne_zero fun h => positive (UInt32.toNat_inj.mp h)) (by decide)

/-- More than half of the credit is there once it has been topped up. -/
theorem half_lt_toppedUp (issued : c.issued = limit) (positive : limit ≠ 0) :
  limit / 2 < (c.toppedUp limit).credit
  := by
  rw [toppedUp]
  split
  · exact half_lt positive
  · next enough =>
      rw [needsReplenish_iff issued positive] at enough
      exact UInt32.not_le.mp enough

theorem issued_toppedUp (issued : c.issued = limit) :
  (c.toppedUp limit).issued = limit
  := by
  rw [toppedUp]
  split
  · rfl
  · exact issued

theorem toNat_spend (may : c.maySend = true) :
  c.spend.credit.toNat + 1 = c.credit.toNat
  := by
  have positive : c.credit ≠ 0 := of_decide_eq_true may
  have one : (1 : UInt32) ≤ c.credit := by
    rw [UInt32.le_iff_toNat_le]
    exact Nat.pos_of_ne_zero fun h => positive (UInt32.toNat_inj.mp h)
  rw [spend, UInt32.toNat_sub_of_le _ _ one]
  exact Nat.sub_add_cancel (UInt32.le_iff_toNat_le.mp one)

end LinkCredit

/-! ### Purses -/

/-- What the peer may send on a link. -/
structure Purse where
  /-- The credit. -/
  credit : LinkCredit
  /-- Whether a delivery is arriving, which has used its share of the credit. -/
  arriving : Bool

namespace Purse

/-- The purse of the peer on a link that is just attached. -/
def full (deliveryCount limit : UInt32) : Purse :=
  ⟨(LinkCredit.start deliveryCount).grant limit, false⟩

/-- The credit, once the delivery that a transfer belongs to has used its share. -/
def charged (purse : Purse) : LinkCredit :=
  if purse.arriving then purse.credit else purse.credit.spend

/-- What a transfer leaves of a purse, where the credit is topped up to a limit. -/
def next (limit : UInt32) (transfer : Transfer) (purse : Purse) : Purse :=
  if transfer.aborted then ⟨purse.charged, false⟩
  else if transfer.more then ⟨purse.charged, true⟩
  else ⟨purse.charged.toppedUp limit, false⟩

/-- What an act makes of the purse of the peer on a link, where the credit is topped up to a
limit. -/
inductive Becomes (limit : UInt32) (act : Session.Act) (handle : UInt32) :
    Option Purse → Option Purse → Prop where
  /-- The purse is the same, or there is none as before. -/
  | same (purse : Option Purse) : Becomes limit act handle purse purse
  /-- The link is detached, or dropped. -/
  | gone (purse : Option Purse) : Becomes limit act handle purse none
  /-- A link is attached. -/
  | attached (purse : Option Purse) (deliveryCount : UInt32) :
    Becomes limit act handle purse (some (full deliveryCount limit))
  /-- The peer has sent a transfer on the link, and there was credit if it begins a delivery. -/
  | taken {purse : Purse} {transfer : Transfer} {payload : Bytes}
    (asked : act = .handle (.transfer transfer) payload) (names : transfer.handle = handle)
    (may : purse.arriving = false → purse.credit.maySend = true) :
    Becomes limit act handle (some purse) (some (purse.next limit transfer))

/-- More than half of the credit is left, but for what the delivery that is arriving has used, and
deliveries that were aborted. -/
structure Keeps (limit : UInt32) (aborted : Nat) (purse : Purse) : Prop where
  /-- The credit was topped up to the limit. -/
  issued : purse.credit.issued = limit
  /-- More than half of it is accounted for. -/
  half : limit.toNat / 2
    < purse.credit.credit.toNat + (if purse.arriving then 1 else 0) + aborted

variable {limit : UInt32} {aborted : Nat} {purse : Purse}

theorem Keeps.mono (keeps : purse.Keeps limit aborted) {aborted' : Nat} (le : aborted ≤ aborted') :
  purse.Keeps limit aborted'
  := ⟨keeps.issued, Nat.lt_of_lt_of_le keeps.half (Nat.add_le_add_left le _)⟩

theorem keeps_of_half (issued : purse.credit.issued = limit)
    (half : limit / 2 < purse.credit.credit) (aborted : Nat) :
  purse.Keeps limit aborted
  := by
  rw [UInt32.lt_iff_toNat_lt, UInt32.toNat_div] at half
  refine ⟨issued, Nat.lt_of_lt_of_le half ?_⟩
  rw [Nat.add_assoc]
  exact Nat.le_add_right _ _

theorem keeps_full (positive : limit ≠ 0) (deliveryCount : UInt32) (aborted : Nat) :
  (full deliveryCount limit).Keeps limit aborted
  := by
  apply keeps_of_half
  · rfl
  · exact LinkCredit.half_lt positive

theorem issued_charged (purse : Purse) :
  purse.charged.issued = purse.credit.issued
  := by
  rw [charged]
  split <;> rfl

/-- The delivery that a transfer belongs to has used one of the credit. -/
theorem toNat_charged (may : purse.arriving = false → purse.credit.maySend = true) :
  purse.charged.credit.toNat + 1
    = purse.credit.credit.toNat + if purse.arriving then 1 else 0
  := by
  rw [charged]
  cases harriving : purse.arriving with
  | true => rfl
  | false => exact LinkCredit.toNat_spend (may harriving)

theorem issued_next (issued : purse.credit.issued = limit) (transfer : Transfer) :
  (purse.next limit transfer).credit.issued = limit
  := by
  have charged := purse.issued_charged.trans issued
  rw [next]
  split
  · exact charged
  · split
    · exact charged
    · exact LinkCredit.issued_toppedUp charged

/-- A transfer that aborts its delivery is one more. -/
theorem Keeps.next (keeps : purse.Keeps limit aborted) (positive : limit ≠ 0) {transfer : Transfer}
    (may : purse.arriving = false → purse.credit.maySend = true) :
  (purse.next limit transfer).Keeps limit (aborted + if transfer.aborted then 1 else 0)
  := by
  have issued := issued_next keeps.issued transfer
  have charged := toNat_charged may
  have half := keeps.half
  refine ⟨issued, ?_⟩
  rw [Purse.next]
  cases haborted : transfer.aborted with
  | true =>
      simp only [Bool.false_eq_true, if_false, if_true]
      omega
  | false =>
      cases hmore : transfer.more with
      | true =>
          simp only [Bool.false_eq_true, if_false, if_true]
          omega
      | false =>
          have toppedUp := LinkCredit.half_lt_toppedUp
            (purse.issued_charged.trans keeps.issued) positive
          rw [UInt32.lt_iff_toNat_lt, UInt32.toNat_div] at toppedUp
          exact Nat.lt_of_lt_of_le toppedUp (Nat.le_trans (Nat.le_add_right _ _)
            (Nat.le_add_right _ _))

end Purse

/-- The purse of the peer on the end of a link, if messages come on the link and the broker has not
detached it. -/
def Endpoint.purse (endpoint : Endpoint) : Option Purse :=
  if endpoint.kind.isReceiving && !endpoint.link.detachSent then
    some ⟨endpoint.link.credit, endpoint.assembly.isSome⟩
  else none

namespace Endpoint

variable {endpoint : Endpoint}

theorem purse_eq_some_iff {purse : Purse} :
  endpoint.purse = some purse
    ↔ endpoint.kind.isReceiving = true ∧ endpoint.link.detachSent = false
        ∧ purse = ⟨endpoint.link.credit, endpoint.assembly.isSome⟩
  := by
  rw [Endpoint.purse]
  split
  · next h =>
      simp only [Bool.and_eq_true, Bool.not_eq_true'] at h
      simp [h, eq_comm]
  · next h =>
      simp only [Bool.and_eq_true, Bool.not_eq_true'] at h
      simp only [reduceCtorEq, false_iff, not_and]
      intro receives attached
      exact absurd ⟨receives, attached⟩ h

/-- Only where messages come from the peer it has a purse. -/
theorem purse_of_not_receiving (h : endpoint.kind.isReceiving = false) :
  endpoint.purse = none
  := by
  rw [purse, h]
  rfl

theorem purse_of_detachSent (h : endpoint.link.detachSent = true) :
  endpoint.purse = none
  := by
  rw [purse, h, Bool.not_true, Bool.and_false]
  rfl

theorem isReceiving_of_isSending {kind : EndpointKind} (h : kind.isSending = true) :
  kind.isReceiving = false
  := by
  cases hreceiving : kind.isReceiving with
  | false => rfl
  | true =>
      rw [isSending_of_isReceiving hreceiving] at h
      contradiction

end Endpoint

namespace Session

/-- The purse of the peer on the link with a handle. -/
def purse? (session : Session) (handle : UInt32) : Option Purse :=
  (session.endpoints.get? handle).bind Endpoint.purse

variable {session session' : Session} {key : UInt32} {endpoint : Endpoint}

theorem purse?_of_endpoints (h : session'.endpoints = session.endpoints) :
  session'.purse? = session.purse?
  := by
  funext handle
  rw [purse?, h, purse?]

theorem purse?_of_get? (h : session.endpoints.get? key = some endpoint) :
  session.purse? key = endpoint.purse
  := by
  rw [purse?, h, Option.bind_some]

theorem purse?_putEndpoint (session : Session) (key : UInt32) (endpoint : Endpoint)
    (handle : UInt32) :
  (session.putEndpoint key endpoint).purse? handle
    = if handle = key then endpoint.purse else session.purse? handle
  := by
  rw [purse?, putEndpoint]
  dsimp only
  rw [Table.get?_put]
  split
  · rfl
  · rfl

/-- An endpoint is put in place of one on which the peer has the same purse. -/
theorem purse?_putEndpoint_of_same (h : session.purse? key = endpoint.purse) :
  (session.putEndpoint key endpoint).purse? = session.purse?
  := by
  funext handle
  rw [purse?_putEndpoint]
  split
  · next same => rw [same, h]
  · rfl

theorem purse?_erase (session : Session) (key handle : UInt32) :
  { session with endpoints := session.endpoints.erase key }.purse? handle
    = if handle = key then none else session.purse? handle
  := by
  rw [purse?]
  dsimp only
  rw [Table.get?_erase]
  split
  · rfl
  · rfl

/-- The purses after the end of a link was changed. -/
theorem purse?_update (session : Session) (key handle : UInt32) (change : Endpoint → Endpoint) :
  { session with endpoints := session.endpoints.update key change }.purse? handle
    = if handle = key then (session.endpoints.get? key).bind fun endpoint => (change endpoint).purse
      else session.purse? handle
  := by
  rw [purse?]
  dsimp only
  rw [Table.get?_update]
  split
  · next same => rw [same, Option.bind_map]; rfl
  · rfl

theorem purse?_settle (session : Session) (key id : UInt32) :
  (session.settle key id).purse? = session.purse?
  := by
  funext handle
  rw [settle, purse?_update]
  split
  · next same => rw [same]; rfl
  · rfl

theorem purse?_forget (session : Session) (id : UInt32) :
  (session.forget id).purse? = session.purse?
  := by
  rw [forget]
  split
  · exact session.purse?_settle _ id
  · rfl

theorem purse?_onSenderDisposition (session : Session) (disposition : Disposition) :
  (session.onSenderDisposition disposition).purse? = session.purse?
  := by
  apply related_onSenderDisposition (motive := fun session session' => session'.purse? = session.purse?)
  · exact fun _ => rfl
  · exact fun before after => after.trans before
  · exact purse?_forget

theorem endpoints_emitLinkFlow (session : Session) (store : QueueStore) (key : UInt32) :
  (session.emitLinkFlow store key).endpoints = session.endpoints
  := by
  rw [emitLinkFlow]
  split <;> rfl

/-- The peer has not asked for its own credit to be given back. -/
def Undrained (session : Session) : Prop :=
  ∀ key, ∀ purse ∈ session.purse? key, purse.credit.drain = false

/-- Credit is given back only where messages go to the peer. -/
theorem Tidy.undrained {draining : UInt32 → Prop} (tidy : session.Tidy draining) :
  session.Undrained
  := by
  intro key purse hmem
  obtain ⟨endpoint, hget, hpurse⟩ := Option.bind_eq_some_iff.mp hmem
  obtain ⟨receives, -, rfl⟩ := Endpoint.purse_eq_some_iff.mp hpurse
  apply Bool.eq_false_iff.mpr
  intro drain
  have sending := (tidy key endpoint hget).sending drain
  rw [Endpoint.isSending_of_isReceiving receives] at sending
  contradiction

theorem Undrained.of_same (undrained : session.Undrained) (h : session'.purse? = session.purse?) :
  session'.Undrained
  := by
  rw [Undrained, h]
  exact undrained

theorem purse?_trans {session'' : Session} (first : session.Undrained → session'.purse? = session.purse?)
    (second : session'.Undrained → session''.purse? = session'.purse?)
    (undrained : session.Undrained) :
  session''.purse? = session.purse?
  := by
  have same := first undrained
  exact (second (undrained.of_same same)).trans same

end Session

/-! ### Deliveries to the peer -/

namespace Serving

variable (s : Serving) (key : UInt32)

theorem purse?_sendNext? {s s' : Serving} {key : UInt32} (h : s.sendNext? key = some s') :
  s'.session.purse? = s.session.purse?
  := by
  obtain ⟨endpoint, pick, hget, hpick, -, -, rfl⟩ := sendNext?_eq_some h
  obtain ⟨hbefore, hafter⟩ := Endpoint.pick?_kind hpick
  have put : (s.session.putEndpoint key { endpoint with
      kind := pick.kind
      link := { endpoint.link with credit := endpoint.link.credit.spend } }).purse?
        = s.session.purse? := by
    apply purse?_putEndpoint_of_same
    rw [purse?_of_get? hget, Endpoint.purse_of_not_receiving hbefore,
      Endpoint.purse_of_not_receiving (by exact hafter)]
  exact (purse?_of_endpoints (s.endpoints_send key endpoint pick)).trans put

/-- The peer keeps its own credit. -/
theorem purse?_giveBackCredit (undrained : s.session.Undrained) :
  (s.giveBackCredit key).session.purse? = s.session.purse?
  := by
  rw [giveBackCredit]
  split
  · rfl
  · next endpoint hget =>
      split
      · rfl
      · next credit hgives =>
          have drain := (LinkCredit.of_giveBack (congrArg Prod.fst hgives)).1
          apply Eq.trans (purse?_of_endpoints (endpoints_emitLinkFlow _ _ _))
          apply purse?_putEndpoint_of_same
          rw [purse?_of_get? hget]
          cases hpurse : endpoint.purse with
          | some purse =>
              have kept := undrained key purse ((purse?_of_get? hget).trans hpurse)
              obtain ⟨-, -, rfl⟩ := Endpoint.purse_eq_some_iff.mp hpurse
              rw [drain] at kept
              contradiction
          | none =>
              rw [Endpoint.purse] at hpurse ⊢
              change none = if endpoint.kind.isReceiving && !endpoint.link.detachSent then _ else _
              split at hpurse
              · contradiction
              · next h => rw [if_neg h]

theorem purse?_pump (undrained : s.session.Undrained) :
  (s.pump key).session.purse? = s.session.purse?
  := by
  revert undrained s
  apply related_pump (motive := fun s s' => s.session.Undrained →
    s'.session.purse? = s.session.purse?)
  · exact fun _ _ => rfl
  · exact purse?_trans
  · exact fun hnext _ => purse?_sendNext? hnext
  · exact fun s => s.purse?_giveBackCredit key

theorem purse?_pumpAll (undrained : s.session.Undrained) :
  s.pumpAll.session.purse? = s.session.purse?
  := by
  revert undrained s
  apply related_pumpAll (motive := fun s s' => s.session.Undrained →
    s'.session.purse? = s.session.purse?)
  · exact fun _ _ => rfl
  · exact purse?_trans
  · exact purse?_pump

theorem purse?_recover (undrained : s.session.Undrained) :
  s.recover.2.session.purse? = s.session.purse?
  := by
  rw [recover]
  exact purse?_pumpAll ⟨{ s.session with outgoingUnsettled := [] }, _⟩ undrained

theorem purse?_echo (flow : Flow) :
  (s.echo flow key).session.purse? = s.session.purse?
  := by
  rw [echo]
  split
  · exact purse?_of_endpoints (endpoints_emitLinkFlow _ _ _)
  · rfl

end Serving

namespace Operation

/-! ### Dispositions and flows -/

/-- Outcomes are carried out on the queues and the transactions. -/
theorem endpoints_carryOutEach (decided : List (UInt32 × OutgoingDelivery × DeliveryState))
    (s : Serving) :
  ((carryOutEach decided).after s).session.endpoints = s.session.endpoints
  := by
  obtain ⟨_, _, hcarried⟩ := session_carryOutEach decided s
  rw [hcarried]

theorem purse?_onReceiverDisposition {s : Serving} (undrained : s.session.Undrained)
    (disposition : Disposition) :
  ((onReceiverDisposition disposition).after s).session.purse? = s.session.purse?
  := by
  revert undrained
  apply related_onReceiverDisposition (motive := fun s s' => s.session.Undrained →
    s'.session.purse? = s.session.purse?)
  · exact fun _ _ => rfl
  · exact purse?_trans
  · exact fun _ => purse?_of_endpoints (endpoints_carryOutEach _ s)
  · exact fun _ _ => rfl
  · exact Serving.purse?_pumpAll

theorem purse?_onFlow {s : Serving} (undrained : s.session.Undrained) (flow : Flow) :
  ((onFlow flow).after s).session.purse? = s.session.purse?
  := by
  generalize ht : s.onSession (tellWindows flow) = t
  have same : t.session.purse? = s.session.purse? := by
    rw [← ht]
    rfl
  rw [← same]
  replace undrained := undrained.of_same same
  cases hflow : flow.handle with
  | none =>
      rw [after_of_ok (onFlow_of_none hflow s), ht]
      split
      · exact Serving.purse?_pumpAll (t.onSession (·.emitSessionFlow)) undrained
      · exact t.purse?_pumpAll undrained
  | some key =>
      cases hget : s.session.endpoints.get? key with
      | none => rw [after_of_error (onFlow_of_unattached hflow hget), ht]
      | some endpoint =>
          rw [after_of_ok (onFlow_of_get? hflow hget), ht, Serving.purse?_echo]
          have there : t.session.endpoints.get? key = some endpoint := by
            rw [← ht]
            exact hget
          split
          · next sending =>
              have receives := Endpoint.isReceiving_of_isSending sending
              have put : (t.session.putEndpoint key (endpoint.credited flow)).purse?
                  = t.session.purse? := by
                apply purse?_putEndpoint_of_same
                rw [purse?_of_get? there, Endpoint.purse_of_not_receiving receives,
                  Endpoint.purse_of_not_receiving (by exact receives)]
              exact (Serving.purse?_pump (t.onSession (·.putEndpoint key _)) key
                (undrained.of_same put)).trans put
          · rfl

/-! ### Detaching and attaching -/

/-- The peer has no purse on a link that the broker detaches. -/
theorem purse?_detachWith (key : UInt32) (report : ErrorReport) (s : Serving) (handle : UInt32) :
  ((detachWith key report).after s).session.purse? handle
    = if handle = key then none else s.session.purse? handle
  := by
  obtain ⟨same, detached⟩ | ⟨endpoint, -, -, parted⟩ := detachWith_cases key report s
  · have none : s.session.purse? key = none := by
      cases hget : s.session.endpoints.get? key with
      | none => rw [purse?, hget, Option.bind_none]
      | some endpoint =>
          rw [purse?_of_get? hget, Endpoint.purse_of_detachSent (detached endpoint hget)]
    rw [same]
    split
    · next same => rw [same, none]
    · rfl
  · rw [parted]
    change (ite _ _ _ : Session).purse? handle = _
    split
    · exact s.session.purse?_erase key handle
    · rw [purse?_putEndpoint, Endpoint.purse_of_detachSent endpoint.detachSent_givenUp]

/-- The peer has no purse on a link that it detaches. -/
theorem purse?_onDetach (detach : Detach) (s : Serving) (handle : UInt32) :
  ((onDetach detach).after s).session.purse? handle
    = if handle = detach.handle then none else s.session.purse? handle
  := by
  have gone := s.session.purse?_erase detach.handle handle
  obtain ⟨hget, same⟩ | ⟨endpoint, -, parted⟩ := onDetach_cases detach s
  · rw [same]
    split
    · next names => rw [names, purse?, hget, Option.bind_none]
    · rfl
  · rw [parted]
    dsimp only [Serving.onSession]
    split
    · exact gone
    · exact gone

/-- The peer has a full purse on a link that it attaches to send messages on, and none on another one
that it attaches. -/
theorem purse?_openLink (session : Session) (attach : Attach) (kind : EndpointKind)
    (source : Option Source) (target : Option Target) (handle : UInt32) :
  (session.openLink attach kind source target).purse? handle
    = if handle = attach.handle then
        if kind.isReceiving then
          some (.full (attach.initialDeliveryCount.getD 0) session.limits.linkCredit)
        else none
      else session.purse? handle
  := by
  have purse : (Endpoint.opened attach session.limits kind source target).purse
      = if kind.isReceiving then
          some (.full (attach.initialDeliveryCount.getD 0) session.limits.linkCredit)
        else none := by
    cases kind <;> rfl
  rw [openLink, purse?_putEndpoint, purse]
  rfl

theorem purse?_onAttach (attach : Attach) (s : Serving) (handle : UInt32) :
  ((onAttach attach).after s).session.purse? handle = s.session.purse? handle
    ∨ ((onAttach attach).after s).session.purse? handle = none
    ∨ ∃ deliveryCount, ((onAttach attach).after s).session.purse? handle
        = some (.full deliveryCount s.session.limits.linkCredit)
  := by
  obtain ⟨-, same⟩ | ⟨-, ⟨kind, -, accepted⟩ | ⟨report, source, target, -, refused⟩⟩ :=
    onAttach_cases attach s
  · rw [same]
    exact .inl rfl
  · have attached : ((onAttach attach).after s).session.purse? handle
        = (s.session.openLink attach kind attach.source attach.target).purse? handle := by
      rw [accepted]
      dsimp only [Serving.onSession]
      split
      · exact congrFun (purse?_of_endpoints (endpoints_emitLinkFlow _ _ _)) handle
      · rfl
    rw [attached, purse?_openLink]
    split
    · split
      · exact .inr (.inr ⟨_, rfl⟩)
      · exact .inr (.inl rfl)
    · exact .inl rfl
  · rw [refused, purse?_detachWith]
    change (if handle = attach.handle then none else (openLink _ _ _ _ _).purse? handle) = _ ∨ _ ∨ _
    rw [purse?_openLink]
    split
    · exact .inr (.inl rfl)
    · exact .inl rfl

end Operation

end MessageBroker
