import MessageBroker.Proofs.Session.Parting
import MessageBroker.Proofs.Session.Reuse

/-!
# Tags that are refused

The first transfer of a delivery that is not settled is refused, by detaching its link, if the tag
of the delivery is in use on the link, and only then: a link that is detached for another reason is
not detached because of its state.
-/

namespace MessageBroker

open Session Operation

/-- A transfer is the first of an unsettled delivery with a tag on an attached link that messages
come on and that has credit, and the link allows the mode that it asks for. -/
structure Endpoint.Opens (transfer : Transfer) (tag : Bytes) (endpoint : Endpoint) : Prop where
  /-- The link is attached. -/
  attached : endpoint.link.isAttached = true
  /-- Messages come on the link. -/
  receives : endpoint.kind.isReceiving = true
  /-- No delivery is arriving. -/
  idle : endpoint.assembly = none
  /-- The delivery has a number. -/
  id : transfer.deliveryId.isSome = true
  /-- The delivery has the tag. -/
  tag : transfer.deliveryTag = some tag
  /-- The delivery is not settled. -/
  unsettled : transfer.settled ≠ some true
  /-- There is credit for the delivery. -/
  credit : endpoint.link.credit.maySend = true
  /-- The link allows the mode. -/
  mode : ∃ mode, endpoint.link.settleMode transfer.rcvSettleMode = .ok mode

/-- A link is detached because of its state, and besides only flows are told. -/
structure Session.Refuses (handle : UInt32) (session session' : Session) : Prop where
  /-- The link is detached. -/
  detached : ∃ endpoint, session'.endpoints.get? handle = some endpoint
    ∧ endpoint.link.detachSent = true
  /-- The peer is told so. -/
  told : ∃ flows report, report.condition = Condition.illegalState.symbol
    ∧ session'.pending = session.pending ++ outgoingFlows flows ++ [outgoingDetach handle report]

section Used

variable {endpoint : Endpoint} {transfer : Transfer} {tag : Bytes}

/-- No delivery is begun with a tag that is in use. -/
theorem Endpoint.Opens.takeAssembly (opens : endpoint.Opens transfer tag)
    (used : endpoint.link.unsettled.hasTag tag = true) :
  ∃ report, report.condition = Condition.illegalState.symbol
    ∧ (endpoint.takeAssembly transfer).1 = .error (.link endpoint.link.handle report)
  := by
  obtain ⟨id, hid⟩ := Option.isSome_iff_exists.mp opens.id
  obtain ⟨mode, hmode⟩ := opens.mode
  obtain ⟨report, condition, hinsert⟩ := Unsettled.insert_of_used used id
  refine ⟨report, condition, ?_⟩
  have hmode' : ({ endpoint.link with credit := endpoint.link.credit.spend } : Link).settleMode
      transfer.rcvSettleMode = .ok mode := hmode
  have unsettled : transfer.settled.getD false = false := by
    cases hsettled : transfer.settled with
    | none => rfl
    | some settled =>
        cases settled with
        | false => rfl
        | true => exact absurd hsettled opens.unsettled
  rw [Endpoint.takeAssembly, opens.idle]
  dsimp only
  rw [startDelivery, hid, opens.tag]
  dsimp only
  rw [LinkCredit.onTransfer, if_pos opens.credit]
  dsimp only
  rw [hmode']
  dsimp only
  rw [unsettled, hinsert]
  rfl

theorem Endpoint.Opens.starts (opens : endpoint.Opens transfer tag)
    (unused : endpoint.link.unsettled.hasTag tag = false) :
  ∃ id mode, endpoint.Starts transfer id mode
  := by
  obtain ⟨id, hid⟩ := Option.isSome_iff_exists.mp opens.id
  obtain ⟨mode, hmode⟩ := opens.mode
  exact ⟨id, mode, opens.idle, hid, ⟨tag, opens.tag, fun _ => unused⟩, opens.credit, hmode⟩

end Used

namespace Operation

variable {s : Serving} {transfer : Transfer} {payload : Bytes} {endpoint : Endpoint} {tag : Bytes}
  {known : QueueId → Prop}

/-- A link that is at fault is detached, and that is the last that is told. -/
theorem parts_of_fault {p : Performative} {key : UInt32} {report : ErrorReport} {s' : Serving}
    (fault : dispatch p payload s = .error (.link key report) s')
    (there : s'.session.endpoints.get? key = some endpoint) (under : endpoint.Under known key)
    (attached : endpoint.link.detachSent = false) :
  ((handle p payload).after s).store = s'.store
    ∧ ((handle p payload).after s).session.endpoints.get? key = some endpoint.givenUp
    ∧ ((handle p payload).after s).session.pending
      = s'.session.pending ++ [outgoingDetach key report]
  := by
  have left : (handle p payload).after s = (detachWith key report).after s' := by
    rw [after, handle, fault]
    rfl
  rw [left, after_of_ok (detachWith_of_get? there attached report), under.detachReceived,
    under.handle]
  exact ⟨rfl, Table.get?_put_self _ _ _, pending_emit _ _ _⟩

/-- A delivery with a tag that is in use is refused, and no queue changes. -/
theorem refuses_of_used (attached : s.session.Attached known)
    (admitted : s.session.incomingWindow ≠ 0)
    (there : s.session.endpoints.get? transfer.handle = some endpoint)
    (opens : endpoint.Opens transfer tag) (used : endpoint.link.unsettled.hasTag tag = true)
    (payload : Bytes) :
  s.session.Refuses transfer.handle ((handle (.transfer transfer) payload).after s).session
    ∧ ((handle (.transfer transfer) payload).after s).store = s.store
  := by
  obtain ⟨report, condition, htake⟩ := opens.takeAssembly used
  have under := attached _ _ there
  have sent := Link.detachSent_of_isAttached opens.attached
  have under' := under.takeAssembly transfer
  obtain ⟨credit, unsettled, assembly, hsnd⟩ := endpoint.takeAssembly_snd transfer
  have sent' : (endpoint.takeAssembly transfer).2.link.detachSent = false := by
    rw [hsnd]
    exact sent
  generalize hother : (endpoint.takeAssembly transfer).2 = other at under' sent'
  have received : receive transfer payload (s.onSession (·.count))
      = .error (.link endpoint.link.handle report)
          (s.onSession fun session => session.count.putEndpoint transfer.handle other) := by
    rw [receive_of_get? (by exact there) sent opens.receives,
      receiveOn_of_error (Prod.ext htake hother)]
    rfl
  rw [under.handle] at received
  have fault : dispatch (.transfer transfer) payload s
      = .error (.link transfer.handle report) (replenishWindow
          (s.onSession fun session => session.count.putEndpoint transfer.handle other)) := by
    rw [dispatch, onTransfer_of_admitted admitted, received]
    rfl
  have there' : (replenishWindow (s.onSession fun session =>
      session.count.putEndpoint transfer.handle other)).session.endpoints.get? transfer.handle
        = some other := by
    rw [endpoints_replenishWindow]
    exact Table.get?_put_self _ _ _
  obtain ⟨store, gone, told⟩ := parts_of_fault fault there' under' sent'
  refine ⟨⟨⟨_, gone, other.detachSent_givenUp⟩, ?_⟩, store⟩
  obtain ⟨flows, hflows⟩ := flows_replenishWindow
    (s.onSession fun session => session.count.putEndpoint transfer.handle other)
  refine ⟨flows, report, condition, ?_⟩
  rw [told, hflows]
  rfl

/-! ### Links that are spared -/

end Operation

/-- The broker has not detached a link, which is there. -/
def Session.Stands (handle : UInt32) (session : Session) : Prop :=
  ∃ account, session.account? handle = some account ∧ account.detached = false

namespace Session.Stands

variable {handle : UInt32} {session session' : Session}

theorem of_same (stands : session.Stands handle)
    (same : session'.account? handle = session.account? handle) :
  session'.Stands handle
  := by
  obtain ⟨account, there, attached⟩ := stands
  exact ⟨account, same.trans there, attached⟩

theorem settle (stands : session.Stands handle) (key id : UInt32) :
  (session.settle key id).Stands handle
  := by
  obtain ⟨account, there, attached⟩ := stands
  rw [Stands, account?_settle]
  split
  · exact ⟨_, congrArg (Option.map _) there, attached⟩
  · exact ⟨account, there, attached⟩

theorem holding (stands : session.Stands handle) (key : UInt32) (assembly : Assembly) :
  (session.holding key assembly).Stands handle
  := by
  obtain ⟨account, there, attached⟩ := stands
  rw [Stands, account?_holding]
  split
  · exact ⟨_, congrArg (Option.map _) there, attached⟩
  · exact ⟨account, there, attached⟩

end Session.Stands

namespace Operation

variable {s : Serving} {transfer : Transfer} {payload : Bytes} {endpoint : Endpoint} {tag : Bytes}
  {known : QueueId → Prop} {handle : UInt32} {assembly : Assembly}
  {result : EStateM.Result Fault Serving Unit}

/-- A link stands in what an operation leaves, and if it is at fault, then not because of its
state. -/
def Spares (handle : UInt32) (result : EStateM.Result Fault Serving Unit) : Prop :=
  (leaving result).session.Stands handle
    ∧ ∀ key report s, result = .error (.link key report) s →
      key = handle ∧ report.condition ≠ Condition.illegalState.symbol

theorem spares_ok (stands : s.session.Stands handle) :
  Spares handle (.ok () s)
  := ⟨stands, fun _ _ _ h => by contradiction⟩

theorem spares_fault (stands : s.session.Stands handle) {report : ErrorReport}
    (apart : report.condition ≠ Condition.illegalState.symbol) :
  Spares handle (.error (.link handle report) s)
  := by
  refine ⟨stands, ?_⟩
  rintro key report' s' ⟨⟩
  exact ⟨rfl, apart⟩

/-- A transfer that completes no delivery spares its link. -/
theorem Receives.spares (receives : Receives endpoint transfer assembly s result)
    (names : endpoint.link.handle = transfer.handle) (stands : s.session.Stands transfer.handle) :
  Spares transfer.handle result
  := by
  cases receives with
  | aborted => exact spares_ok (stands.settle _ _)
  | fault apart =>
      rw [names]
      exact spares_fault stands apart
  | more => exact spares_ok (stands.holding _ _)
  | refused =>
      have told := (stands.settle endpoint.link.handle assembly.id).of_same rfl
      exact spares_ok (told.holding _ _)
  | refusedLast =>
      have told := (stands.settle endpoint.link.handle assembly.id).of_same rfl
      exact spares_ok (told.of_same ((leaves_replenishCredit _ _).account _))
  | dropped => exact spares_ok (stands.of_same ((leaves_replenishCredit _ _).account _))

/-- A complete delivery spares its link. -/
theorem Completes.spares (completes : Completes endpoint assembly s result)
    (names : endpoint.link.handle = handle) (stands : s.session.Stands handle) :
  Spares handle result
  := by
  cases completes with
  | fault apart =>
      rw [names]
      exact spares_fault stands apart
  | settled => exact spares_ok ((stands.settle _ _).of_same rfl)
  | told => exact spares_ok ((stands.settle _ _).of_same rfl)
  | awaited => exact spares_ok (stands.of_same rfl)

theorem Spares.replenishWindow (spares : Spares handle result) :
  Spares handle (mapState replenishWindow result)
  := by
  obtain ⟨stands, unparted⟩ := spares
  have stands' : (Operation.replenishWindow (leaving result)).session.Stands handle := by
    apply stands.of_same
    rw [account?, account?, endpoints_replenishWindow]
  cases result with
  | ok _ s => exact spares_ok stands'
  | error fault s =>
      refine ⟨stands', ?_⟩
      rintro key report s' ⟨⟩
      exact unparted key report s rfl

/-- A transfer that belongs to a delivery, or begins one, spares its link. -/
theorem spares_onTransfer (attached : s.session.Attached known)
    (there : s.session.endpoints.get? transfer.handle = some endpoint)
    (sent : endpoint.link.detachSent = false) (receives : endpoint.kind.isReceiving = true)
    {taken : Assembly} (htake : (endpoint.takeAssembly transfer).1 = .ok taken) (payload : Bytes) :
  Spares transfer.handle (onTransfer transfer payload s)
  := by
  by_cases admitted : s.session.incomingWindow = 0
  · rw [onTransfer, if_pos admitted]
    refine ⟨⟨_, account?_of_get? there, sent⟩, ?_⟩
    rintro key report s' ⟨⟩
  · have under := (attached _ _ there).takeAssembly transfer
    obtain ⟨credit, unsettled, assembly, hsnd⟩ := endpoint.takeAssembly_snd transfer
    have sent' : (endpoint.takeAssembly transfer).2.link.detachSent = false := by
      rw [hsnd]
      exact sent
    have receives' : (endpoint.takeAssembly transfer).2.kind.isReceiving = true := by
      rw [hsnd]
      exact receives
    generalize hother : (endpoint.takeAssembly transfer).2 = other at under sent' receives'
    have htake' : endpoint.takeAssembly transfer = (.ok taken, other) := Prod.ext htake hother
    have stands : (s.session.count.putEndpoint transfer.handle other).Stands transfer.handle :=
      ⟨_, account?_of_get? (Table.get?_put_self _ _ _), sent'⟩
    rw [onTransfer_of_admitted admitted, receive_of_get? (by exact there) sent receives]
    apply Spares.replenishWindow
    cases hcompleted : endpoint.completed? transfer payload with
    | none => exact (receives_receiveOn hcompleted htake' _).spares under.handle stands
    | some completed =>
        obtain ⟨other', assembly⟩ := completed
        obtain ⟨taken', htaken, -⟩ := Endpoint.completed?_eq_some_iff.mp hcompleted
        obtain ⟨-, rfl⟩ := Prod.mk.inj (htake'.symm.trans htaken)
        rw [receiveOn_of_completed hcompleted, run_bind]
        have completes := completes_complete other assembly
          ((s.onSession (·.count)).onSession (·.putEndpoint transfer.handle other)) receives'
        have spared := completes.spares under.handle stands
        generalize complete other assembly _ = result at spared
        cases result with
        | ok _ s' =>
            have leaves := leaves_replenishCredit transfer.handle s'
            exact spares_ok (spared.1.of_same (leaves.account _))
        | error fault s' => exact spared

/-- A link that is spared is not detached because of its state. -/
theorem not_refuses_of_spares {p : Performative}
    (attached : ((dispatch p payload).after s).session.Attached known)
    (spares : Spares handle (dispatch p payload s)) :
  ¬ s.session.Refuses handle ((Operation.handle p payload).after s).session
  := by
  rintro ⟨⟨other, hother, sent⟩, flows, report, condition, told⟩
  obtain ⟨⟨account, there, unsent⟩, unparted⟩ := spares
  have standing {session : Session} (there : session.account? handle = some account) :
      session.endpoints.get? handle ≠ some other := by
    intro h
    rw [account?_of_get? h] at there
    cases there
    rw [Endpoint.account, sent] at unsent
    contradiction
  cases hresult : dispatch p payload s with
  | ok _ s' =>
      rw [hresult] at there
      apply standing there
      rw [after, Operation.handle, hresult] at hother
      exact hother
  | error fault s' =>
      rw [after_of_error hresult] at attached
      rw [hresult] at there
      cases fault with
      | link key report' =>
          obtain ⟨rfl, apart⟩ := unparted key report' s' hresult
          obtain ⟨endpoint, hget, rfl⟩ := Option.map_eq_some_iff.mp there
          obtain ⟨-, -, told'⟩ := parts_of_fault hresult hget (attached _ _ hget) unsent
          have last := congrArg lastTold (told'.symm.trans told)
          rw [lastTold_detach, lastTold_detach] at last
          cases last
          exact apart condition
      | _ =>
          apply standing there
          rw [after, Operation.handle, hresult] at hother
          exact hother

/-! ### Refused exactly if in use -/

/-- The first transfer of an unsettled delivery is refused exactly if its tag is in use on the link,
and then no queue changes. -/
theorem refuses_iff_used (attached : s.session.Attached known)
    (there : s.session.endpoints.get? transfer.handle = some endpoint)
    (opens : endpoint.Opens transfer tag)
    (admitted : endpoint.link.unsettled.hasTag tag = true → s.session.incomingWindow ≠ 0)
    (payload : Bytes) :
  let s' := (Operation.handle (.transfer transfer) payload).after s
  (s.session.Refuses transfer.handle s'.session ↔ endpoint.link.unsettled.hasTag tag = true)
    ∧ (s.session.Refuses transfer.handle s'.session → s'.store = s.store)
  := by
  intro s'
  have sent := Link.detachSent_of_isAttached opens.attached
  cases hused : endpoint.link.unsettled.hasTag tag with
  | true =>
      obtain ⟨refuses, store⟩ :=
        refuses_of_used attached (admitted hused) there opens hused payload
      exact ⟨iff_of_true refuses rfl, fun _ => store⟩
  | false =>
      obtain ⟨id, mode, starts⟩ := opens.starts hused
      have takes : endpoint.Takes endpoint.link id mode [] transfer := starts.takes
      obtain ⟨taken, htake, -⟩ := takes
      have spares := spares_onTransfer attached there sent opens.receives htake payload
      have attached' := attached.of_continues (continues_onTransfer known transfer payload s)
      have no : ¬ s.session.Refuses transfer.handle s'.session :=
        not_refuses_of_spares attached' spares
      exact ⟨iff_of_false no Bool.false_ne_true, fun refuses => absurd refuses no⟩

end Operation

/-- On a link that stands and that no delivery is arriving on, the tags in use are those of the
deliveries that the peer is to settle. -/
theorem Session.Keeps.hasTag_iff {awaited : Awaited} {begun : List UInt32} {session : Session}
    {handle : UInt32} {endpoint : Endpoint} (keeps : session.Keeps awaited begun)
    (there : session.endpoints.get? handle = some endpoint)
    (attached : endpoint.link.detachSent = false) (idle : endpoint.assembly = none) (tag : Bytes) :
  endpoint.link.unsettled.hasTag tag = true ↔ ∃ id, awaited handle id tag
  := by
  have sound := keeps.sound handle endpoint.account (account?_of_get? there)
  rw [show endpoint.link.unsettled = endpoint.account.unsettled from rfl, sound.agrees.used]
  constructor
  · rintro ⟨id, h⟩
    rcases sound.owed attached id tag h with awaits | ⟨assembly, hassembly, -⟩
    · exact ⟨id, awaits⟩
    · rw [Endpoint.account, idle] at hassembly
      contradiction
  · rintro ⟨id, awaits⟩
    exact ⟨id, sound.held id tag awaits⟩

end MessageBroker
