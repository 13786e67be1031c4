import MessageBroker.Proofs.Session.Purse

/-!
# Credit at the end of a delivery

The first transfer of a delivery is paid for with credit.  With its last transfer the credit is
topped up, whether the delivery is accepted, refused or dropped, and the peer is told the new credit
if there is one.  A transfer that aborts its delivery passes that by.
-/

namespace MessageBroker

open Session

/-! ### Deliveries are paid for -/

namespace Endpoint

variable {endpoint endpoint' : Endpoint} {transfer : Transfer}

/-- A delivery that begins uses one of the credit, if there is some. -/
theorem credit_of_startDelivery {link link' : Link} {assembly : Assembly}
    (h : startDelivery link transfer = (.ok assembly, link')) :
  link.credit.maySend = true ∧ link'.credit = link.credit.spend
  := by
  rw [startDelivery] at h
  split at h
  · split at h
    · cases h
    · next credit hcredit =>
        have paid : link.credit.maySend = true ∧ credit = link.credit.spend := by
          rw [LinkCredit.onTransfer] at hcredit
          split at hcredit
          · next may => exact ⟨may, (Except.ok.inj hcredit).symm⟩
          · contradiction
        dsimp only at h
        split at h
        · cases h
        · split at h
          · cases h
            exact paid
          · split at h
            · cases h
            · cases h
              exact paid
  · cases h

/-- A delivery that does not begin is the fault of its link, or leaves the link as it is. -/
theorem fault_of_startDelivery {link link' : Link} {fault : Fault}
    (h : startDelivery link transfer = (.error fault, link')) :
  (∃ report, fault = .link link.handle report)
    ∨ (∀ key report, fault ≠ .link key report) ∧ link' = link
  := by
  rw [startDelivery] at h
  split at h
  · left
    split at h
    · next hcredit =>
        rw [LinkCredit.onTransfer] at hcredit
        split at hcredit
        · contradiction
        · cases hcredit
          cases h
          exact ⟨_, rfl⟩
    · dsimp only at h
      split at h
      · cases h
        exact ⟨_, rfl⟩
      · split at h
        · cases h
        · split at h
          · cases h
            exact ⟨_, rfl⟩
          · cases h
  · right
    cases h
    exact ⟨by rintro key report ⟨⟩, rfl⟩

/-- A transfer changes neither the number of its link nor what stands behind the endpoint. -/
theorem takeAssembly_same {result : Except Fault Assembly}
    (h : endpoint.takeAssembly transfer = (result, endpoint')) :
  endpoint'.link.handle = endpoint.link.handle ∧ endpoint'.kind = endpoint.kind
  := by
  obtain ⟨credit, unsettled, assembly, hsnd⟩ := endpoint.takeAssembly_snd transfer
  rw [h] at hsnd
  dsimp only at hsnd
  rw [hsnd]
  exact ⟨rfl, rfl⟩

/-- A delivery that is not taken off a link is the fault of the link, or the endpoint stays as it
is. -/
theorem fault_of_takeAssembly {fault : Fault}
    (h : endpoint.takeAssembly transfer = (.error fault, endpoint')) :
  (∃ report, fault = .link endpoint.link.handle report)
    ∨ (∀ key report, fault ≠ .link key report) ∧ endpoint.assembly = none ∧ endpoint' = endpoint
  := by
  have belongs := endpoint.belongs_takeAssembly transfer
  rw [h] at belongs
  cases belongs with
  | fault idle failed =>
      rcases fault_of_startDelivery failed with hlink | ⟨unlinked, rfl⟩
      · exact .inl hlink
      · exact .inr ⟨unlinked, idle, rfl⟩

/-- The purse of the peer once the delivery that a transfer belongs to has been taken off the link
and paid for. -/
theorem purse_of_taken {purse : Purse} {taken : Assembly} (h : endpoint.purse = some purse)
    (htake : endpoint.takeAssembly transfer = (.ok taken, endpoint')) :
  endpoint'.purse = some ⟨purse.charged, false⟩
    ∧ (purse.arriving = false → purse.credit.maySend = true)
  := by
  obtain ⟨receives, attached, rfl⟩ := purse_eq_some_iff.mp h
  have belongs := endpoint.belongs_takeAssembly transfer
  rw [htake] at belongs
  cases belongs with
  | resume arriving =>
      rw [purse_eq_some_iff, arriving]
      exact ⟨⟨receives, attached, rfl⟩, fun idle => by contradiction⟩
  | start idle started =>
      obtain ⟨may, paid⟩ := credit_of_startDelivery started
      have attached' := (startDelivery_eq_ok started).2.1.trans attached
      rw [purse_eq_some_iff, idle]
      exact ⟨⟨receives, attached', congrArg (Purse.mk · false) paid.symm⟩, fun _ => may⟩

end Endpoint

/-- A transfer is paid for: on its link the delivery has used its share of the credit.  Nothing is
told. -/
structure Session.Pays (transfer : Transfer) (purse : Purse) (arriving : Bool)
    (session session' : Session) : Prop where
  /-- There was credit for a delivery that begins. -/
  may : purse.arriving = false → purse.credit.maySend = true
  /-- The limits are the same. -/
  limits : session'.limits = session.limits
  /-- Nothing is told. -/
  outbox : session'.outbox = session.outbox
  /-- The purses on other links are the same. -/
  purse : ∀ handle, session'.purse? handle
    = if handle = transfer.handle then some ⟨purse.charged, arriving⟩ else session.purse? handle

namespace Session.Pays

variable {transfer : Transfer} {purse : Purse} {arriving : Bool}
  {session session' session'' : Session}

theorem of_same (pays : session.Pays transfer purse arriving session')
    (limits : session''.limits = session'.limits) (outbox : session''.outbox = session'.outbox)
    (same : session''.purse? = session'.purse?) :
  session.Pays transfer purse arriving session''
  := by
  refine ⟨pays.may, limits.trans pays.limits, outbox.trans pays.outbox, fun handle => ?_⟩
  rw [same, pays.purse]

theorem settle (pays : session.Pays transfer purse arriving session') (key id : UInt32) :
  session.Pays transfer purse arriving (session'.settle key id)
  := pays.of_same rfl rfl (session'.purse?_settle key id)

theorem other (pays : session.Pays transfer purse arriving session') {handle : UInt32}
    (hne : handle ≠ transfer.handle) :
  session'.purse? handle = session.purse? handle
  := by
  rw [pays.purse, if_neg hne]

/-- The delivery is put back to wait for more. -/
theorem holding (pays : session.Pays transfer purse arriving session') (assembly : Assembly) :
  session.Pays transfer purse true { session' with
    endpoints := session'.endpoints.update transfer.handle ({ · with assembly := some assembly }) }
  := by
  refine ⟨pays.may, pays.limits, pays.outbox, fun handle => ?_⟩
  rw [purse?_update]
  have key := pays.purse transfer.handle
  rw [if_pos rfl] at key
  split
  · obtain ⟨endpoint, hget, hpurse⟩ := Option.bind_eq_some_iff.mp key
    obtain ⟨receives, attached, same⟩ := Endpoint.purse_eq_some_iff.mp hpurse
    rw [hget, Option.bind_some, Endpoint.purse_eq_some_iff, (Purse.mk.inj same).1]
    exact ⟨receives, attached, rfl⟩
  · next other => rw [pays.purse, if_neg other]

end Session.Pays

/-- A flow tells the credit of a link. -/
structure Flow.Tells (handle : UInt32) (credit : LinkCredit) (flow : Flow) : Prop where
  /-- It names the link. -/
  handle : flow.handle = some handle
  /-- It tells how many deliveries may be sent. -/
  linkCredit : flow.linkCredit = some credit.credit
  /-- It tells after how many deliveries. -/
  deliveryCount : flow.deliveryCount = some credit.deliveryCount

/-- How the credit of a link goes on when it may be topped up, and what the peer is told about the
link. -/
inductive Session.Replenishes (handle : UInt32) (credit : LinkCredit) (session session' : Session) :
    LinkCredit → Prop where
  /-- More than half of the credit is left. -/
  | left (more : session.limits.linkCredit / 2 < credit.credit)
    (untold : session'.told handle = session.told handle) :
    Replenishes handle credit session session' credit
  /-- At most half of the credit is left, so that it is topped up, and the peer is told. -/
  | toppedUp {flow : Flow} (half : credit.credit ≤ session.limits.linkCredit / 2)
    (tells : flow.Tells handle (credit.grant session.limits.linkCredit))
    (told : session'.told handle = session.told handle ++ [⟨.flow flow, none⟩]) :
    Replenishes handle credit session session' (credit.grant session.limits.linkCredit)

/-- It matters only how much credit there is, and what has been told. -/
theorem Session.Replenishes.of_told {handle : UInt32} {credit credit' : LinkCredit}
    {session session' before after : Session}
    (replenishes : session.Replenishes handle credit session' credit')
    (limits : session.limits = before.limits)
    (told : session.told handle = before.told handle)
    (told' : after.told handle = session'.told handle) :
  before.Replenishes handle credit after credit'
  := by
  cases replenishes with
  | left more untold =>
      rw [limits] at more
      exact .left more (told'.trans (untold.trans told))
  | toppedUp half tells toppedUp =>
      rw [limits] at half tells ⊢
      rw [told] at toppedUp
      exact .toppedUp half tells (told'.trans toppedUp)

theorem Session.Replenishes.half_lt {handle : UInt32} {credit credit' : LinkCredit}
    {session session' : Session}
    (replenishes : session.Replenishes handle credit session' credit')
    (positive : session.limits.linkCredit ≠ 0) :
  session.limits.linkCredit / 2 < credit'.credit
  := by
  cases replenishes with
  | left more => exact more
  | toppedUp => exact LinkCredit.half_lt positive

namespace Operation

/-! ### Transfers on one link -/

/-- What comes of a transfer on a link on which the peer has a purse. -/
inductive Uses (transfer : Transfer) (purse : Purse) (s : Serving) :
    EStateM.Result Fault Serving Unit → Prop where
  /-- The link is at fault. -/
  | fault {report : ErrorReport} {s' : Serving}
    (others : ∀ other, other ≠ transfer.handle →
      s'.session.purse? other = s.session.purse? other) :
    Uses transfer purse s (.error (.link transfer.handle report) s')
  /-- The transfer belongs to no delivery. -/
  | apart {fault : Fault} {s' : Serving} (unlinked : ∀ key report, fault ≠ .link key report)
    (idle : purse.arriving = false) (same : s'.session.purse? = s.session.purse?) :
    Uses transfer purse s (.error fault s')
  /-- The delivery is aborted. -/
  | aborted {s' : Serving} (aborted : transfer.aborted = true)
    (pays : s.session.Pays transfer purse false s'.session) : Uses transfer purse s (.ok () s')
  /-- The delivery goes on. -/
  | more {s' : Serving} (unaborted : transfer.aborted = false) (more : transfer.more = true)
    (pays : s.session.Pays transfer purse true s'.session) : Uses transfer purse s (.ok () s')
  /-- The delivery is at its end, and the credit is topped up. -/
  | last {s' : Serving} (unaborted : transfer.aborted = false) (last : transfer.more = false)
    (pays : s.session.Pays transfer purse false s'.session) :
    Uses transfer purse s (.ok () ((replenishCredit transfer.handle).after s'))

section Uses

variable {s s' : Serving} {transfer : Transfer} {purse : Purse} {endpoint : Endpoint}
  {assembly : Assembly} {arriving : Bool}

/-- A delivery that is within the size limit, or refused for its size, has been paid for. -/
theorem pays_limitSize (pays : s.session.Pays transfer purse arriving s'.session) :
  (∃ report, limitSize endpoint assembly s' = .error (.link endpoint.link.handle report) s')
    ∨ ∃ assembly' s'', limitSize endpoint assembly s' = .ok assembly' s''
        ∧ s.session.Pays transfer purse arriving s''.session
  := by
  cases hexceeds : !assembly.discarding && endpoint.link.exceedsMaxMessageSize assembly.size with
  | true =>
      obtain ⟨report, -, h | h⟩ := limitSize_of_exceeds hexceeds s'
      · exact .inl ⟨report, h⟩
      · exact .inr ⟨_, _, h, (pays.settle _ _).of_same rfl rfl rfl⟩
  | false => exact .inr ⟨_, _, limitSize_of_within hexceeds s', pays⟩

/-- A delivery that is completed has been paid for. -/
theorem pays_complete (receives : endpoint.kind.isReceiving = true)
    (pays : s.session.Pays transfer purse arriving s'.session) :
  (∃ report, complete endpoint assembly s' = .error (.link endpoint.link.handle report) s')
    ∨ ∃ s'', complete endpoint assembly s' = .ok () s''
        ∧ s.session.Pays transfer purse arriving s''.session
  := by
  have completes := completes_complete endpoint assembly s' receives
  generalize complete endpoint assembly s' = result at completes
  have recorded (transactions : Ledger) :
      s.session.Pays transfer purse arriving { s'.session with transactions } :=
    pays.of_same rfl rfl rfl
  cases completes with
  | fault => exact .inl ⟨_, rfl⟩
  | settled transactions store => exact .inr ⟨_, rfl, (recorded transactions).settle _ _⟩
  | told transactions store state =>
      exact .inr ⟨_, rfl, ((recorded transactions).settle _ _).of_same rfl rfl rfl⟩
  | awaited transactions store state =>
      exact .inr ⟨_, rfl, (recorded transactions).of_same rfl rfl rfl⟩

/-- A transfer that belongs to a delivery pays for it, and tops the credit up at the end of it. -/
theorem uses_receiveOn_of_taken {endpoint' : Endpoint} {taken : Assembly}
    (htake : endpoint.takeAssembly transfer = (.ok taken, endpoint'))
    (receives : endpoint'.kind.isReceiving = true) (names : endpoint'.link.handle = transfer.handle)
    (pays : s.session.Pays transfer purse false
      (s.session.putEndpoint transfer.handle endpoint')) (payload : Bytes) :
  Uses transfer purse s (receiveOn endpoint transfer payload s)
  := by
  cases haborted : transfer.aborted with
  | true =>
      rw [receiveOn_of_aborted htake haborted]
      exact .aborted haborted (pays.settle _ _)
  | false =>
      rw [receiveOn_of_taken htake haborted]
      have paid : s.session.Pays transfer purse false
          (s.onSession (·.putEndpoint transfer.handle endpoint')).session := pays
      revert paid
      generalize s.onSession (·.putEndpoint transfer.handle endpoint') = s'
      intro paid
      rcases pays_limitSize paid with ⟨report, hlimit⟩ | ⟨assembly, s'', hlimit, within⟩
      · rw [run_bind_of_error hlimit, names]
        exact .fault fun _ => paid.other
      · rw [run_bind_of_ok hlimit]
        cases hmore : transfer.more with
        | true => exact .more haborted hmore (within.holding assembly)
        | false =>
            rw [if_neg Bool.false_ne_true]
            cases assembly.discarding with
            | true => exact .last haborted hmore within
            | false =>
                rw [if_neg Bool.false_ne_true]
                rcases pays_complete receives within with ⟨report, hfault⟩ | ⟨s₃, hok, completed⟩
                · rw [run_bind_of_error hfault, names]
                  exact .fault fun _ => within.other
                · rw [run_bind_of_ok hok]
                  exact .last haborted hmore completed

/-- A transfer on a link pays for its delivery, or the link is at fault, or the transfer belongs to
no delivery. -/
theorem uses_receiveOn (there : s.session.endpoints.get? transfer.handle = some endpoint)
    (names : endpoint.link.handle = transfer.handle) (hpurse : endpoint.purse = some purse)
    (payload : Bytes) :
  Uses transfer purse s (receiveOn endpoint transfer payload s)
  := by
  have put (endpoint' : Endpoint) := s.session.purse?_putEndpoint transfer.handle endpoint'
  rcases htake : endpoint.takeAssembly transfer with ⟨result, endpoint'⟩
  obtain ⟨names', kind⟩ := Endpoint.takeAssembly_same htake
  cases result with
  | error fault =>
      rw [receiveOn_of_error htake]
      rcases Endpoint.fault_of_takeAssembly htake with ⟨report, rfl⟩ | ⟨unlinked, idle, rfl⟩
      · rw [names]
        exact .fault fun other hne => (put endpoint' other).trans (if_neg hne)
      · obtain ⟨-, -, rfl⟩ := Endpoint.purse_eq_some_iff.mp hpurse
        exact .apart unlinked (by rw [idle]; rfl)
          (purse?_putEndpoint_of_same (purse?_of_get? there))
  | ok taken =>
      obtain ⟨paid, may⟩ := Endpoint.purse_of_taken hpurse htake
      apply uses_receiveOn_of_taken htake
      · rw [kind]
        exact (Endpoint.purse_eq_some_iff.mp hpurse).1
      · exact names'.trans names
      · exact ⟨may, rfl, rfl, fun handle => paid ▸ put endpoint' handle⟩

end Uses

/-! ### Credit is topped up -/

section Replenish

variable {s : Serving} {key : UInt32} {purse : Purse}

/-- What becomes of a link on which the peer has a purse when its credit is topped up. -/
theorem after_replenishCredit (h : s.session.purse? key = some purse) :
  ∃ endpoint, s.session.endpoints.get? key = some endpoint ∧ endpoint.purse = some purse
    ∧ (replenishCredit key).after s
      = if purse.credit.needsReplenish then
          s.onSession fun session => (session.putEndpoint key (endpoint.onLink fun link =>
            { link with credit := link.credit.grant session.limits.linkCredit })).emitLinkFlow
              s.store key
        else s
  := by
  obtain ⟨endpoint, hget, hpurse⟩ := Option.bind_eq_some_iff.mp h
  refine ⟨endpoint, hget, hpurse, ?_⟩
  obtain ⟨-, attached, rfl⟩ := Endpoint.purse_eq_some_iff.mp hpurse
  rw [replenishCredit, after_modify, hget]
  dsimp only
  rw [attached, Bool.false_or]
  cases endpoint.link.credit.needsReplenish <;> rfl

theorem purse?_replenishCredit (h : s.session.purse? key = some purse) (handle : UInt32) :
  ((replenishCredit key).after s).session.purse? handle
    = if handle = key then
        some ⟨purse.credit.toppedUp s.session.limits.linkCredit, purse.arriving⟩
      else s.session.purse? handle
  := by
  obtain ⟨endpoint, hget, hpurse, hafter⟩ := after_replenishCredit h
  obtain ⟨receives, attached, rfl⟩ := Endpoint.purse_eq_some_iff.mp hpurse
  rw [hafter, LinkCredit.toppedUp]
  split
  · change (emitLinkFlow _ _ _).purse? handle = _
    rw [purse?_of_endpoints (endpoints_emitLinkFlow _ _ _), purse?_putEndpoint]
    congr 1
    exact Endpoint.purse_eq_some_iff.mpr ⟨receives, attached, rfl⟩
  · split
    · next same => rw [same, h]
    · rfl

/-- A flow that names a link is told about it. -/
theorem told_emit_flow (session : Session) {flow : Flow} (names : flow.handle = some key) :
  (session.emit (.flow flow) none).told key = session.told key ++ [⟨.flow flow, none⟩]
  := by
  rw [told_emit]
  congr 1
  exact if_pos names

/-- The peer is told the credit if it is topped up. -/
theorem replenishes_replenishCredit (h : s.session.purse? key = some purse)
    (issued : purse.credit.issued = s.session.limits.linkCredit)
    (positive : s.session.limits.linkCredit ≠ 0) :
  s.session.Replenishes key purse.credit ((replenishCredit key).after s).session
    (purse.credit.toppedUp s.session.limits.linkCredit)
  := by
  obtain ⟨endpoint, hget, hpurse, hafter⟩ := after_replenishCredit h
  rw [hafter, LinkCredit.toppedUp]
  split
  · next half =>
      rw [LinkCredit.needsReplenish_iff issued positive] at half
      obtain ⟨-, -, rfl⟩ := Endpoint.purse_eq_some_iff.mp hpurse
      rw [Serving.onSession, emitLinkFlow_putEndpoint]
      refine .toppedUp half ?_ (told_emit_flow _ rfl)
      exact ⟨rfl, rfl, rfl⟩
  · next enough =>
      rw [LinkCredit.needsReplenish_iff issued positive] at enough
      exact .left (UInt32.not_le.mp enough) rfl

end Replenish

/-! ### Transfers -/

section Transfer

variable {s s' : Serving} {transfer : Transfer} {purse : Purse} {endpoint : Endpoint}

/-- What comes of a transfer on a link is what the transfer makes of the purse of the peer. -/
theorem Uses.next {result : EStateM.Result Fault Serving Unit}
    (uses : Uses transfer purse s result) (h : result = .ok () s') :
  (purse.arriving = false → purse.credit.maySend = true)
    ∧ ∀ handle, s'.session.purse? handle
      = if handle = transfer.handle then some (purse.next s.session.limits.linkCredit transfer)
        else s.session.purse? handle
  := by
  cases uses with
  | fault | apart => contradiction
  | aborted aborted pays =>
      cases h
      refine ⟨pays.may, fun handle => ?_⟩
      rw [pays.purse, Purse.next, if_pos aborted]
  | more unaborted more pays =>
      cases h
      refine ⟨pays.may, fun handle => ?_⟩
      rw [pays.purse, Purse.next, unaborted, if_pos more]
      rfl
  | @last s₁ unaborted last pays =>
      cases h
      have key := pays.purse transfer.handle
      rw [if_pos rfl] at key
      refine ⟨pays.may, fun handle => ?_⟩
      rw [purse?_replenishCredit key, pays.limits, Purse.next, unaborted, last, pays.purse]
      split <;> rfl

theorem purse?_replenishWindow (s : Serving) :
  (replenishWindow s).session.purse? = s.session.purse?
  := purse?_of_endpoints (endpoints_replenishWindow s)

/-- A transfer is received on its link, if the broker has not detached it. -/
theorem dispatch_transfer {endpoint : Endpoint} (window : s.session.incomingWindow ≠ 0)
    (hget : s.session.endpoints.get? transfer.handle = some endpoint)
    (receives : endpoint.kind.isReceiving = true) (attached : endpoint.link.detachSent = false)
    (payload : Bytes) :
  dispatch (.transfer transfer) payload s
    = mapState replenishWindow (receiveOn endpoint transfer payload (s.onSession (·.count)))
  := by
  rw [dispatch, onTransfer_of_admitted window, receive_of_get? (by exact hget) attached receives]

/-- What is left once the link that is at fault, if there is one, has been detached. -/
def detaching : EStateM.Result Fault Serving Unit → Serving
  | .error (.link key report) s => (detachWith key report).after s
  | result => leaving result

theorem after_handle (p : Performative) (payload : Bytes) (s : Serving) :
  (handle p payload).after s = detaching (dispatch p payload s)
  := by
  rw [after, handle]
  cases dispatch p payload s with
  | ok _ s' => rfl
  | error fault s' => cases fault <;> rfl

theorem detaching_of_unlinked {fault : Fault} (unlinked : ∀ key report, fault ≠ .link key report)
    (s : Serving) :
  detaching (.error fault s) = s
  := by
  cases fault with
  | link key report => exact absurd rfl (unlinked key report)
  | _ => rfl

/-- What a transfer on a link makes of the purses of the peer, once the link that is at fault, if
there is one, has been detached. -/
theorem Uses.becomes {result : EStateM.Result Fault Serving Unit}
    (uses : Uses transfer purse s result) (there : s.session.purse? transfer.handle = some purse)
    (payload : Bytes) (handle : UInt32) :
  Purse.Becomes s.session.limits.linkCredit (.handle (.transfer transfer) payload) handle
    (s.session.purse? handle)
    ((detaching (mapState replenishWindow result)).session.purse? handle)
  := by
  cases result with
  | ok _ s' =>
      obtain ⟨may, next⟩ := uses.next rfl
      change Purse.Becomes _ _ _ _ ((replenishWindow s').session.purse? handle)
      rw [purse?_replenishWindow, next]
      split
      · next same =>
          rw [same, there]
          exact .taken rfl rfl may
      · exact .same _
  | error fault s' =>
      cases uses with
      | @fault report _ others =>
          change Purse.Becomes _ _ _ _
            (((detachWith transfer.handle report).after (replenishWindow s')).session.purse? handle)
          rw [purse?_detachWith, purse?_replenishWindow]
          split
          · exact .gone _
          · next other =>
              rw [others handle other]
              exact .same _
      | apart unlinked _ same =>
          rw [mapState, detaching_of_unlinked unlinked, purse?_replenishWindow, same]
          exact .same _

/-- What a transfer makes of the purses of the peer. -/
theorem becomes_handle_transfer
    (names : ∀ endpoint, s.session.endpoints.get? transfer.handle = some endpoint →
      endpoint.link.handle = transfer.handle)
    (payload : Bytes) (handle : UInt32) :
  Purse.Becomes s.session.limits.linkCredit (.handle (.transfer transfer) payload) handle
    (s.session.purse? handle)
    (((Operation.handle (.transfer transfer) payload).after s).session.purse? handle)
  := by
  rw [after_handle, dispatch]
  by_cases window : s.session.incomingWindow = 0
  · rw [onTransfer, if_pos window]
    exact .same _
  · rw [onTransfer_of_admitted window]
    have counted : (s.onSession (·.count)).session.purse? = s.session.purse? := rfl
    cases hget : s.session.endpoints.get? transfer.handle with
    | none =>
        rw [receive_of_none (by exact hget)]
        change Purse.Becomes _ _ _ _ ((replenishWindow _).session.purse? handle)
        rw [purse?_replenishWindow, counted]
        exact .same _
    | some endpoint =>
        cases hpurse : endpoint.purse with
        | some purse =>
            obtain ⟨receives, attached, -⟩ := Endpoint.purse_eq_some_iff.mp hpurse
            rw [receive_of_get? (by exact hget) attached receives]
            have there : (s.onSession (·.count)).session.endpoints.get? transfer.handle
                = some endpoint := hget
            exact (uses_receiveOn there (names endpoint hget) hpurse payload).becomes
              ((purse?_of_get? there).trans hpurse) payload handle
        | none =>
            rw [receive_of_some (by exact hget)]
            split
            · change Purse.Becomes _ _ _ _ ((replenishWindow _).session.purse? handle)
              rw [purse?_replenishWindow, counted]
              exact .same _
            · next attached =>
                have receives : ¬ endpoint.kind.isReceiving = true := by
                  intro receives
                  rw [Endpoint.purse, receives, Bool.eq_false_iff.mpr attached] at hpurse
                  contradiction
                rw [if_neg receives]
                change Purse.Becomes _ _ _ _
                  (((detachWith transfer.handle _).after (replenishWindow _)).session.purse? handle)
                rw [purse?_detachWith, purse?_replenishWindow, counted]
                split
                · exact .gone _
                · exact .same _

end Transfer

end Operation

/-! ### The end of a delivery -/

/-- What the end of a delivery comes to on its link, on which the peer had a purse: an aborted
delivery has used its share of the credit, and nothing is told; otherwise the credit may be topped
up. -/
structure Session.Ends (transfer : Transfer) (purse : Purse) (session : Session)
    (credit : LinkCredit) (session' : Session) : Prop where
  /-- The delivery is aborted. -/
  aborted : transfer.aborted = true →
    credit = purse.charged ∧ session'.told transfer.handle = session.told transfer.handle
  /-- The delivery comes to its end with its last transfer. -/
  last : transfer.aborted = false → transfer.more = false →
    session.Replenishes transfer.handle purse.charged session' credit

theorem Session.Ends.of_told {transfer : Transfer} {purse : Purse} {credit : LinkCredit}
    {session session' before after : Session} (ends : session.Ends transfer purse credit session')
    (limits : session.limits = before.limits)
    (told : session.told transfer.handle = before.told transfer.handle)
    (told' : after.told transfer.handle = session'.told transfer.handle) :
  before.Ends transfer purse credit after
  := by
  refine ⟨fun aborted => ?_, fun unaborted last => ?_⟩
  · obtain ⟨charged, untold⟩ := ends.aborted aborted
    exact ⟨charged, told'.trans (untold.trans told)⟩
  · exact (ends.last unaborted last).of_told limits told told'

namespace Operation

variable {s s' : Serving} {transfer : Transfer} {payload : Bytes} {purse purse' : Purse}

/-- What a transfer tells about its link is what is told when the credit is topped up. -/
theorem Uses.ends {result : EStateM.Result Fault Serving Unit}
    (uses : Uses transfer purse s result) (h : result = .ok () s')
    (issued : purse.credit.issued = s.session.limits.linkCredit)
    (positive : s.session.limits.linkCredit ≠ 0)
    (left : s'.session.purse? transfer.handle = some purse') :
  s.session.Ends transfer purse purse'.credit s'.session
  := by
  have told {session : Session} (h : session.outbox = s.session.outbox) :
      session.told transfer.handle = s.session.told transfer.handle := by
    rw [Session.told, h, Session.told]
  cases uses with
  | fault | apart => contradiction
  | aborted aborted pays =>
      cases h
      rw [pays.purse, if_pos rfl] at left
      cases left
      exact ⟨fun _ => ⟨rfl, told pays.outbox⟩, fun unaborted => by simp [aborted] at unaborted⟩
  | more unaborted more pays =>
      cases h
      refine ⟨fun aborted => ?_, fun _ last => ?_⟩
      · simp [unaborted] at aborted
      · simp [more] at last
  | @last s₁ unaborted last pays =>
      cases h
      have key := pays.purse transfer.handle
      rw [if_pos rfl] at key
      rw [purse?_replenishCredit key, if_pos rfl] at left
      cases left
      refine ⟨fun aborted => by simp [unaborted] at aborted, fun _ _ => ?_⟩
      rw [← pays.limits] at positive
      have replenishes := replenishes_replenishCredit key
        ((purse.issued_charged.trans issued).trans (congrArg _ pays.limits.symm)) positive
      exact replenishes.of_told pays.limits (told pays.outbox) rfl

/-- A link that is at fault is detached, if it is there. -/
theorem parted_detachWith (key : UInt32) (report : ErrorReport) (s : Serving) :
  ((detachWith key report).after s).session.Parted key
  := by
  intro endpoint' hget'
  obtain ⟨same, detached⟩ | ⟨endpoint, -, -, parted⟩ := detachWith_cases key report s
  · rw [same] at hget'
    exact detached endpoint' hget'
  · rw [parted] at hget'
    change (ite _ _ _ : Session).endpoints.get? key = _ at hget'
    split at hget'
    · rw [Table.get?_erase, if_pos rfl] at hget'
      contradiction
    · rw [putEndpoint, Table.get?_put_self] at hget'
      cases hget'
      exact endpoint.detachSent_givenUp

/-- What the end of a delivery comes to, if its link stays attached. -/
theorem ends_handle_transfer
    (names : ∀ endpoint, s.session.endpoints.get? transfer.handle = some endpoint →
      endpoint.link.handle = transfer.handle)
    (window : s.session.incomingWindow ≠ 0)
    (there : s.session.purse? transfer.handle = some purse)
    (issued : purse.credit.issued = s.session.limits.linkCredit)
    (positive : s.session.limits.linkCredit ≠ 0)
    (handled : handle (.transfer transfer) payload s = .ok () s') {endpoint' : Endpoint}
    (there' : s'.session.endpoints.get? transfer.handle = some endpoint')
    (attached' : endpoint'.link.detachSent = false) :
  endpoint'.purse = some (purse.next s.session.limits.linkCredit transfer)
    ∧ s.session.Ends transfer purse endpoint'.link.credit s'.session
  := by
  obtain ⟨endpoint, hget, hpurse⟩ := Option.bind_eq_some_iff.mp there
  obtain ⟨receives, attached, -⟩ := Endpoint.purse_eq_some_iff.mp hpurse
  have counted : (s.onSession (·.count)).session.endpoints.get? transfer.handle
      = some endpoint := hget
  have uses := uses_receiveOn counted (names endpoint hget) hpurse payload
  have dispatched := dispatch_transfer window hget receives attached payload
  revert dispatched uses
  generalize receiveOn endpoint transfer payload (s.onSession (·.count)) = result
  intro uses dispatched
  cases result with
  | ok _ s₁ =>
      rw [handle, dispatched] at handled
      cases handled
      have left := ((uses.next rfl).2 transfer.handle).trans (if_pos rfl)
      have same := purse?_of_get? there'
      rw [purse?_replenishWindow, left] at same
      obtain ⟨-, -, hnext⟩ := Endpoint.purse_eq_some_iff.mp same.symm
      have ends := uses.ends rfl issued positive left
      rw [show (purse.next _ transfer).credit = endpoint'.link.credit from congrArg _ hnext] at ends
      exact ⟨same.symm, ends.of_told rfl rfl ((alike_replenishWindow s₁).told transfer.handle)⟩
  | error fault s₁ =>
      cases uses with
      | @fault report _ others =>
          have after := after_of_ok handled
          rw [after_handle, dispatched] at after
          have parted := parted_detachWith transfer.handle report (replenishWindow s₁)
          rw [show (detachWith transfer.handle report).after (replenishWindow s₁) = s' from after]
            at parted
          rw [parted endpoint' there'] at attached'
          contradiction
      | apart unlinked _ same =>
          rw [handle, dispatched, mapState] at handled
          split at handled
          · next h =>
              cases h
              exact absurd rfl (unlinked _ _)
          · contradiction

end Operation

/-! ### Everything that is done with a session -/

/-- The peer has no purse on a link that is at fault. -/
theorem Operation.becomes_detaching {limit : UInt32} {act : Session.Act} {handle : UInt32}
    {purse : Option Purse} {result : EStateM.Result Fault Serving Unit}
    (becomes : Purse.Becomes limit act handle purse ((leaving result).session.purse? handle)) :
  Purse.Becomes limit act handle purse ((detaching result).session.purse? handle)
  := by
  cases result with
  | ok _ s => exact becomes
  | error fault s =>
      cases fault with
      | link key report =>
          rw [detaching, purse?_detachWith]
          split
          · exact .gone _
          · exact becomes
      | _ => exact becomes

/-- Whatever is done with a session, the purse of the peer on a link is the same, or gone, or full
because a link is attached, or the peer has used it for a transfer. -/
theorem Session.Act.becomes_run {s : Serving} (rest : s.session.AtRest) (act : Session.Act)
    (handle : UInt32) :
  Purse.Becomes s.session.limits.linkCredit act handle (s.session.purse? handle)
    ((act.run s).2.session.purse? handle)
  := by
  have undrained := rest.undrained
  have same {s' : Serving} (h : s'.session.purse? = s.session.purse?) :
      Purse.Becomes s.session.limits.linkCredit act handle (s.session.purse? handle)
        (s'.session.purse? handle) := by
    rw [h]
    exact .same _
  cases act with
  | handle p payload =>
      rw [run]
      dsimp only
      cases p with
      | transfer transfer =>
          exact Operation.becomes_handle_transfer (fun endpoint hget => (rest _ _ hget).handle)
            payload handle
      | attach attach =>
          rw [Operation.after_handle]
          apply Operation.becomes_detaching
          rcases Operation.purse?_onAttach attach s handle with h | h | ⟨deliveryCount, h⟩
          · exact h ▸ .same _
          · exact h ▸ .gone _
          · exact h ▸ .attached _ deliveryCount
      | detach detach =>
          rw [Operation.after_handle]
          apply Operation.becomes_detaching
          change Purse.Becomes _ _ _ _ (((Operation.onDetach detach).after s).session.purse? handle)
          rw [Operation.purse?_onDetach]
          split
          · exact .gone _
          · exact .same _
      | flow flow =>
          rw [Operation.after_handle]
          exact Operation.becomes_detaching (same (Operation.purse?_onFlow undrained flow))
      | disposition disposition =>
          rw [Operation.after_handle]
          apply Operation.becomes_detaching
          apply same
          change ((Operation.onDisposition disposition).after s).session.purse? = _
          rw [Operation.onDisposition]
          split
          · exact Operation.purse?_onReceiverDisposition undrained disposition
          · exact s.session.purse?_onSenderDisposition disposition
      | _ => exact .same _
  | pumpAll => exact same (s.purse?_pumpAll undrained)
  | recover => exact same (s.purse?_recover undrained)
  | finish => exact .gone _
  | takeOutput => exact .same _

end MessageBroker
