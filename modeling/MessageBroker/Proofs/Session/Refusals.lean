import MessageBroker.Proofs.Session.Refusing
import MessageBroker.Proofs.Session.Replenishing

/-!
# Refusals

A delivery to a queue is refused when it becomes larger than its link accepts, or when it is
complete and its message is durable on a broker that keeps none, or part of a transaction that is
not open.  If the source of the link lets deliveries be rejected and the delivery is not settled,
its outcome is that it is rejected: the link goes on, the tag is free, and what is left of the
delivery is dropped.  Otherwise the broker detaches the link.
-/

namespace MessageBroker

open Session Parcel

/-! ### Why a delivery is refused -/

/-- The report that a delivery is larger than a link accepts. -/
def Link.oversize (link : Link) (size : Nat) : ErrorReport :=
  .of .messageSizeExceeded
    (s!"delivery of at least {size} bytes exceeds the link limit of " ++ s!"{link.maxMessageSize}")

/-- Why a delivery to a queue, of which transfers have arrived, is refused with one more, and the
error that is reported. -/
inductive Refusal (limits : SessionLimits) (ledger : Ledger) (link : Link) (parcels : List Parcel)
    (parcel : Parcel) : ErrorReport → Prop where
  /-- The delivery becomes larger than the link accepts. -/
  | oversize (before : link.exceedsMaxMessageSize (contents parcels).length = false)
      (exceeds : link.exceedsMaxMessageSize (contents (parcels ++ [parcel])).length = true) :
    Refusal limits ledger link parcels parcel
      (link.oversize (contents (parcels ++ [parcel])).length)
  /-- The message is durable, and the broker keeps none. -/
  | durable {sections : MessageSections} (last : parcel.1.more = false)
      (within : link.exceedsMaxMessageSize (contents (parcels ++ [parcel])).length = false)
      (parsed : MessageSections.parse (contents (parcels ++ [parcel])) = .ok sections)
      (durable : sections.durable = true) (unkept : limits.persistence = false) :
    Refusal limits ledger link parcels parcel
      (.of .preconditionFailed "durable messages cannot be accepted without persistence")
  /-- The message is part of a transaction that is not open. -/
  | unknown {sections : MessageSections} {transaction : Bytes} (last : parcel.1.more = false)
      (within : link.exceedsMaxMessageSize (contents (parcels ++ [parcel])).length = false)
      (parsed : MessageSections.parse (contents (parcels ++ [parcel])) = .ok sections)
      (acceptable : sections.Acceptable limits)
      (part : (lastState (parcels ++ [parcel])).bind DeliveryState.transaction? = some transaction)
      (unknown : ledger.find? transaction = none) :
    Refusal limits ledger link parcels parcel (Ledger.unknown transaction)

/-- A delivery of which transfers have arrived may be rejected: the source of the link lets
deliveries be rejected, and the delivery is not settled. -/
def Link.Rejects (link : Link) (parcels : List Parcel) : Prop :=
  link.supportsRejected = true ∧ settled parcels = false

theorem Link.supportsRejected_of_eq {link link' : Link} (h : link'.source = link.source) :
  link'.supportsRejected = link.supportsRejected
  := by
  rw [supportsRejected, supportsRejected, h]

/-- What is too large stays so with what comes after. -/
theorem Link.exceedsMaxMessageSize_append {link : Link} {parcels : List Parcel}
    (exceeds : link.exceedsMaxMessageSize (contents parcels).length = true) (parcel : Parcel) :
  link.exceedsMaxMessageSize (contents (parcels ++ [parcel])).length = true
  := by
  apply link.exceedsMaxMessageSize_mono _ exceeds
  rw [contents_append, List.length_append]
  exact Nat.le_add_right _ _

/-- What is refused with a transfer was not too large before. -/
theorem Refusal.before {limits : SessionLimits} {ledger : Ledger} {link : Link}
    {parcels : List Parcel} {parcel : Parcel} {report : ErrorReport}
    (refusal : Refusal limits ledger link parcels parcel report) :
  link.exceedsMaxMessageSize (contents parcels).length = false
  := by
  have fits (within : link.exceedsMaxMessageSize (contents (parcels ++ [parcel])).length = false) :
      link.exceedsMaxMessageSize (contents parcels).length = false := by
    by_contra exceeds
    rw [link.exceedsMaxMessageSize_append (by simpa using exceeds)] at within
    contradiction
  cases refusal with
  | oversize before => exact before
  | durable _ within => exact fits within
  | unknown _ within => exact fits within

/-! ### The end of a link while a delivery arrives -/

namespace Endpoint

/-- The end of a link to a queue goes by the terms of the link. -/
structure Serves (queue : QueueId) (link : Link) (endpoint : Endpoint) : Prop where
  /-- Messages from the peer go to the queue. -/
  kind : endpoint.kind = .receiving queue
  /-- The largest message has the same size. -/
  limit : endpoint.link.maxMessageSize = link.maxMessageSize
  /-- Messages come from the same source. -/
  source : endpoint.link.source = link.source

/-- The end of a link gathers a delivery and keeps its tag for it, unless the broker has detached
the link.  What is gathered is dropped, and the tag is free, from when the link does not accept the
size. -/
structure Checks (queue : QueueId) (link : Link) (id : UInt32) (mode : ReceiverSettleMode)
    (tag : Bytes) (parcels : List Parcel) (endpoint : Endpoint) : Prop where
  /-- The terms are those of the link. -/
  serves : endpoint.Serves queue link
  /-- What the transfers carried is gathered, or dropped, and the tag is kept for the delivery. -/
  gathered : endpoint.link.detachSent = false → ∃ assembly, endpoint.assembly = some assembly
    ∧ assembly.Gathers link id mode parcels
    ∧ assembly.discarding = link.exceedsMaxMessageSize (contents parcels).length
    ∧ endpoint.link.unsettled.Reserves assembly.discarding assembly.settled id tag

/-- A transfer is taken as the next one of a delivery, which the end of a link checks. -/
structure TakesNext (link : Link) (id : UInt32) (mode : ReceiverSettleMode) (tag : Bytes)
    (parcels : List Parcel) (transfer : Transfer) (endpoint : Endpoint) (taken : Assembly)
    (endpoint' : Endpoint) : Prop where
  /-- The delivery is taken off the link. -/
  take : endpoint.takeAssembly transfer = (.ok taken, endpoint')
  /-- What the transfers carried is gathered. -/
  gathers : ∀ payload, (taken.push payload).Gathers link id mode (parcels ++ [(transfer, payload)])
  /-- What is gathered is dropped if it was too large. -/
  dropped : taken.discarding = link.exceedsMaxMessageSize (contents parcels).length
  /-- The tag is kept for the delivery. -/
  reserves : endpoint'.link.unsettled.Reserves taken.discarding taken.settled id tag
  /-- Nothing of the link changes but its credit and what is unsettled. -/
  link : ∃ credit unsettled, endpoint'.link = { endpoint.link with credit, unsettled }
  /-- The same stands behind the link. -/
  kind : endpoint'.kind = endpoint.kind
  /-- No delivery is left on the link. -/
  idle : endpoint'.assembly = none

variable {queue : QueueId} {link : Link} {id : UInt32} {mode : ReceiverSettleMode} {tag : Bytes}
  {parcels : List Parcel} {endpoint endpoint' : Endpoint} {transfer : Transfer}

theorem Serves.of_continues (serves : endpoint.Serves queue link)
    (continues : endpoint.Continues endpoint') :
  endpoint'.Serves queue link
  := by
  have receives : endpoint.kind.isReceiving = true := by
    rw [serves.kind]
    rfl
  exact ⟨(continues.kind receives).trans serves.kind,
    continues.maxMessageSize.trans serves.limit, continues.source.trans serves.source⟩

/-- A delivery is checked as long as the peer leaves its link alone. -/
theorem Checks.of_continues (checks : endpoint.Checks queue link id mode tag parcels)
    (continues : endpoint.Continues endpoint') :
  endpoint'.Checks queue link id mode tag parcels
  := by
  refine ⟨checks.serves.of_continues continues, fun attached => ?_⟩
  have before : endpoint.link.detachSent = false := by
    by_contra sent
    rw [continues.detachSent (by simpa using sent)] at attached
    contradiction
  rw [continues.assembly attached]
  obtain ⟨assembly, arriving, gathers, dropped, reserves⟩ := checks.gathered before
  exact ⟨assembly, arriving, gathers, dropped, reserves.of_fades continues.unsettled⟩

theorem exceedsMaxMessageSize_nothing (link : Link) :
  link.exceedsMaxMessageSize (contents []).length = false
  := by
  simp [Link.exceedsMaxMessageSize, contents]

/-- The first transfer of a delivery is taken. -/
theorem Starts.takesNext (starts : endpoint.Starts transfer id mode)
    (htag : transfer.deliveryTag = some tag) :
  ∃ taken endpoint', endpoint.TakesNext link id mode tag [] transfer taken endpoint'
  := by
  obtain ⟨tag', unsettled, htag', htake, inserted⟩ := starts.takeAssembly
  obtain rfl := Option.some.inj (htag.symm.trans htag')
  refine ⟨_, _, htake, fun payload => Assembly.gathers_start link id tag mode transfer payload, ?_,
    ?_, ⟨_, _, rfl⟩, rfl, starts.idle⟩
  · exact (exceedsMaxMessageSize_nothing link).symm
  · cases hsettled : transfer.settled.getD false with
    | true => exact ⟨fun _ h => by contradiction, fun h => by contradiction⟩
    | false => exact Unsettled.reserves_insert (inserted hsettled)

/-- One more transfer of a delivery is taken. -/
theorem Checks.takesNext (checks : endpoint.Checks queue link id mode tag parcels)
    (attached : endpoint.link.detachSent = false) (transfer : Transfer) :
  ∃ taken endpoint', endpoint.TakesNext link id mode tag parcels transfer taken endpoint'
  := by
  obtain ⟨assembly, arriving, gathers, dropped, reserves⟩ := checks.gathered attached
  refine ⟨assembly.resume transfer, { endpoint with assembly := none }, ?_,
    fun payload => gathers.next transfer payload, dropped, ?_, ⟨_, _, rfl⟩, rfl, rfl⟩
  · rw [takeAssembly, arriving]
  · apply reserves.of_settled
    intro unsettled
    exact (Bool.or_eq_false_iff.mp unsettled).1

/-- The end of a link goes on: nothing changes but its credit, what is unsettled, and the delivery
that arrives. -/
structure Remains (endpoint endpoint' : Endpoint) : Prop where
  /-- The same stands behind the link. -/
  kind : endpoint'.kind = endpoint.kind
  /-- Nothing of the link changes but its credit and what is unsettled. -/
  link : ∃ credit unsettled, endpoint'.link = { endpoint.link with credit, unsettled }

theorem Remains.trans {endpoint'' : Endpoint} (h : endpoint.Remains endpoint')
    (h' : endpoint'.Remains endpoint'') :
  endpoint.Remains endpoint''
  := by
  obtain ⟨_, _, hlink⟩ := h.link
  obtain ⟨credit, unsettled, hlink'⟩ := h'.link
  refine ⟨h'.kind.trans h.kind, credit, unsettled, ?_⟩
  rw [hlink', hlink]

/-- The terms of a link that goes on are the same. -/
theorem Remains.terms (h : endpoint.Remains endpoint') :
  endpoint'.link.handle = endpoint.link.handle ∧ endpoint'.link.source = endpoint.link.source
    ∧ endpoint'.link.maxMessageSize = endpoint.link.maxMessageSize
    ∧ endpoint'.link.detachSent = endpoint.link.detachSent
    ∧ endpoint'.link.detachReceived = endpoint.link.detachReceived
  := by
  obtain ⟨_, _, hlink⟩ := h.link
  rw [hlink]
  exact ⟨rfl, rfl, rfl, rfl, rfl⟩

theorem Serves.of_remains (serves : endpoint.Serves queue link) (h : endpoint.Remains endpoint') :
  endpoint'.Serves queue link
  := by
  obtain ⟨-, source, limit, -⟩ := h.terms
  exact ⟨h.kind.trans serves.kind, limit.trans serves.limit, source.trans serves.source⟩

theorem TakesNext.remains {taken : Assembly}
    (takes : endpoint.TakesNext link id mode tag parcels transfer taken endpoint') :
  endpoint.Remains endpoint'
  := ⟨takes.kind, takes.link⟩

theorem remains_settle (endpoint : Endpoint) (id : UInt32) :
  endpoint.Remains (endpoint.settle id)
  := ⟨rfl, endpoint.link.credit, _, rfl⟩

end Endpoint

/-! ### Transfers that leave their link attached -/

namespace Operation

section Conclude

variable {s : Serving} {transfer : Transfer} {endpoint endpoint' : Endpoint} {assembly : Assembly}
  {payload : Bytes}

/-- The state in which the delivery of a transfer is taken off its link. -/
def takenOff (transfer : Transfer) (endpoint : Endpoint) (s : Serving) : Serving :=
  (s.onSession (·.count)).onSession (·.putEndpoint transfer.handle endpoint)

theorem quiet_takenOff (transfer : Transfer) (endpoint : Endpoint) (s : Serving) :
  s.Quiet (takenOff transfer endpoint s)
  := (quiet_count s).trans (.onSession (Session.quiet_putEndpoint _ _ _))

theorem get?_takenOff (transfer : Transfer) (endpoint : Endpoint) (s : Serving) :
  (takenOff transfer endpoint s).session.endpoints.get? transfer.handle = some endpoint
  := Table.get?_put_self _ _ _

/-- What is left once a transfer was taken in: its delivery is put back to wait for more, or the
credit is topped up, and then the window. -/
def concluded (transfer : Transfer) (assembly : Assembly) (s : Serving) : Serving :=
  replenishWindow (if transfer.more then putAssembly transfer.handle assembly s
    else (replenishCredit transfer.handle).after s)

/-- Topping credit up changes nothing but the credit. -/
theorem get?_replenishCredit {handle : UInt32}
    (there : s.session.endpoints.get? handle = some endpoint) :
  ∃ credit, ((replenishCredit handle).after s).session.endpoints.get? handle
    = some { endpoint with link := { endpoint.link with credit } }
  := by
  rw [replenishCredit, after_modify, there]
  dsimp only
  split
  · exact ⟨_, there⟩
  · refine ⟨endpoint.link.credit.grant s.session.limits.linkCredit, ?_⟩
    rw [Serving.onSession, endpoints_emitLinkFlow]
    exact Table.get?_put_self _ _ _

/-- Once a transfer was taken in, nothing changes but its delivery and its credit, and only flows
are told. -/
theorem concluded_spec (there : s.session.endpoints.get? transfer.handle = some endpoint)
    (idle : endpoint.assembly = none) (assembly : Assembly) :
  s.Quiet (concluded transfer assembly s) ∧ s.session.Flows (concluded transfer assembly s).session
    ∧ ∃ credit, (concluded transfer assembly s).session.endpoints.get? transfer.handle
      = some { endpoint with
          link := { endpoint.link with credit }
          assembly := if transfer.more then some assembly else none }
  := by
  rw [concluded, endpoints_replenishWindow]
  cases transfer.more with
  | true =>
      rw [if_pos rfl, if_pos rfl]
      refine ⟨Serving.Quiet.trans (.onSession ⟨rfl, rfl, rfl, rfl⟩) (quiet_replenishWindow _),
        Flows.trans (.of_same rfl) (flows_replenishWindow _), endpoint.link.credit, ?_⟩
      change (s.session.endpoints.update transfer.handle
        ({ · with assembly := some assembly })).get? transfer.handle = _
      rw [Table.get?_update, if_pos rfl, there]
      rfl
  | false =>
      rw [if_neg Bool.false_ne_true, if_neg Bool.false_ne_true]
      obtain ⟨credit, there'⟩ := get?_replenishCredit there
      refine ⟨(quiet_replenishCredit _ s).trans (quiet_replenishWindow _),
        (flows_replenishCredit _ s).trans (flows_replenishWindow _), credit, ?_⟩
      rw [← idle]
      exact there'

/-- A transfer is handled once it was taken in. -/
theorem handle_of_concluded (window : s.session.incomingWindow ≠ 0)
    (there : s.session.endpoints.get? transfer.handle = some endpoint)
    (receives : endpoint.kind.isReceiving = true) (attached : endpoint.link.detachSent = false)
    {s' : Serving}
    (received : receiveOn endpoint transfer payload (s.onSession (·.count))
      = (if transfer.more then modify (putAssembly transfer.handle assembly)
          else replenishCredit transfer.handle : Operation Unit) s') :
  handle (.transfer transfer) payload s = .ok () (concluded transfer assembly s')
  := by
  rw [handle, dispatch_transfer window there receives attached, received, concluded]
  cases transfer.more <;> rfl

end Conclude

section Takes

variable {s : Serving} {transfer : Transfer} {endpoint endpoint' : Endpoint} {queue : QueueId}
  {link : Link} {id : UInt32} {mode : ReceiverSettleMode} {tag : Bytes} {parcels : List Parcel}
  {taken : Assembly} {payload : Bytes} {report : ErrorReport}

/-- A transfer is gathered if its delivery is dropped, or goes on and is not too large. -/
theorem receiveOn_of_kept (htake : endpoint.takeAssembly transfer = (.ok taken, endpoint'))
    (aborted : transfer.aborted = false)
    (within : (!(taken.push payload).discarding
      && endpoint'.link.exceedsMaxMessageSize (taken.push payload).size) = false)
    (goes : transfer.more = true ∨ (taken.push payload).discarding = true) (s : Serving) :
  receiveOn endpoint transfer payload s
    = (if transfer.more then modify (putAssembly transfer.handle (taken.push payload))
        else replenishCredit transfer.handle : Operation Unit)
      (s.onSession (·.putEndpoint transfer.handle endpoint'))
  := by
  rw [receiveOn_of_taken htake aborted, run_bind_of_ok (limitSize_of_within within _)]
  rcases goes with more | dropped
  · rw [more]
    rfl
  · rw [dropped]
    rfl

/-- The limit of a link refuses what is larger. -/
theorem limitSize_of_oversize {assembly : Assembly} (kept : assembly.discarding = false)
    (exceeds : endpoint.link.exceedsMaxMessageSize assembly.size = true) :
  limitSize endpoint assembly
    = (refuse endpoint assembly (endpoint.link.oversize assembly.size) >>= fun _ =>
        pure assembly.discard)
  := by
  rw [limitSize, kept, exceeds]
  rfl

/-- A complete message that is not delivered but refused is refused where its size is looked at. -/
theorem limited_of_undelivered {assembly : Assembly} (last : transfer.more = false)
    (kind : endpoint.kind = .receiving queue) (kept : assembly.discarding = false)
    (within : endpoint.link.exceedsMaxMessageSize assembly.size = false)
    (refused : deliver endpoint queue assembly s = refuse endpoint assembly report s) :
  (limitSize endpoint assembly >>= fun assembly =>
      if transfer.more then modify (putAssembly transfer.handle assembly)
      else
        (if assembly.discarding then pure () else complete endpoint assembly) >>= fun _ =>
          replenishCredit transfer.handle : Operation Unit) s
    = (refuse endpoint assembly report >>= fun _ =>
        if transfer.more then modify (putAssembly transfer.handle assembly.discard)
        else replenishCredit transfer.handle : Operation Unit) s
  := by
  have fits : limitSize endpoint assembly s = .ok assembly s := by
    apply limitSize_of_within
    rw [within, Bool.and_false]
  have completing : complete endpoint assembly = deliver endpoint queue assembly := by
    rw [complete, kind]
  rw [run_bind_of_ok fits, last, kept, completing]
  simp only [Bool.false_eq_true, if_false]
  rw [run_bind, refused, ← run_bind]

variable (takes : endpoint.TakesNext link id mode tag parcels transfer taken endpoint')
  (serves : endpoint.Serves queue link)

include takes serves

/-- What is gathered is what was carried, unless it is dropped. -/
theorem kept_of_takesNext (kept : taken.discarding = false) (payload : Bytes) :
  (taken.push payload).discarding = false
    ∧ (taken.push payload).payload = contents (parcels ++ [(transfer, payload)])
    ∧ (taken.push payload).size = (contents (parcels ++ [(transfer, payload)])).length
    ∧ endpoint'.link.maxMessageSize = link.maxMessageSize
  := by
  have dropped := (Assembly.push_other taken payload).2.2.2.2.trans kept
  obtain ⟨same, size⟩ := (takes.gathers payload).kept dropped
  exact ⟨dropped, same, size, (serves.of_remains takes.remains).limit⟩

/-- A transfer is too large when what was carried with it is, and was not before. -/
theorem oversize_of_takesNext (payload : Bytes) :
  (!(taken.push payload).discarding
      && endpoint'.link.exceedsMaxMessageSize (taken.push payload).size)
    = (!link.exceedsMaxMessageSize (contents parcels).length
      && link.exceedsMaxMessageSize (contents (parcels ++ [(transfer, payload)])).length)
  := by
  rw [← takes.dropped]
  cases hdropped : taken.discarding with
  | true =>
      rw [(Assembly.push_other taken payload).2.2.2.2, hdropped]
      rfl
  | false =>
      obtain ⟨kept, -, size, limit⟩ := kept_of_takesNext takes serves hdropped payload
      rw [kept, size, Link.exceedsMaxMessageSize_of_eq limit]

/-- What is to be refused is refused when the transfer is received. -/
theorem receiveOn_of_refusal (aborted : transfer.aborted = false)
    (refusal : Refusal s.session.limits s.session.transactions link parcels (transfer, payload)
      report) :
  receiveOn endpoint transfer payload (s.onSession (·.count))
    = (refuse endpoint' (taken.push payload) report >>= fun _ =>
        if transfer.more then modify (putAssembly transfer.handle (taken.push payload).discard)
        else replenishCredit transfer.handle : Operation Unit) (takenOff transfer endpoint' s)
  := by
  obtain ⟨kept, same, size, limit'⟩ :=
    kept_of_takesNext takes serves (takes.dropped.trans refusal.before) payload
  have state := (takes.gathers payload).state
  have exceeds := Link.exceedsMaxMessageSize_of_eq limit' (taken.push payload).size
  have kind' := takes.kind.trans serves.kind
  have counted : (s.onSession (·.count)).onSession (·.putEndpoint transfer.handle endpoint')
      = takenOff transfer endpoint' s := rfl
  rw [receiveOn_of_taken takes.take aborted, counted]
  have limits : (takenOff transfer endpoint' s).session.limits = s.session.limits := rfl
  have ledger : (takenOff transfer endpoint' s).session.transactions = s.session.transactions := rfl
  generalize takenOff transfer endpoint' s = s' at limits ledger ⊢
  generalize taken.push payload = assembly at kept same size state exceeds ⊢
  cases refusal with
  | oversize _ large =>
      rw [size, large, ← size] at exceeds
      rw [limitSize_of_oversize kept exceeds, Link.oversize, limit', ← Link.oversize, size]
      rw [run_bind, run_bind, run_bind]
      cases refuse endpoint' assembly _ s' <;> rfl
  | @durable sections last within parsed durable unkept =>
      rw [← size, ← exceeds] at within
      apply limited_of_undelivered last kind' kept within
      rw [deliver, run_get_bind, same, parsed]
      dsimp only
      rw [limits, durable, unkept]
      rfl
  | @unknown sections transaction last within parsed acceptable part unknown =>
      rw [← size, ← exceeds] at within
      apply limited_of_undelivered last kind' kept within
      rw [← same] at parsed
      rw [← state] at part
      rw [← limits] at acceptable
      rw [deliver_of_some parsed acceptable part, ledger, Ledger.record, Ledger.contains, unknown]
      rfl

omit takes serves

/-! ### How the peer is told -/

/-- A delivery that may be rejected is settled, and the peer is told that it is rejected. -/
theorem refuse_of_rejects {assembly : Assembly} (supports : endpoint.link.supportsRejected = true)
    (unsettled : assembly.settled = false) (report : ErrorReport) (s : Serving) :
  refuse endpoint assembly report s
    = .ok () (s.onSession fun session =>
        (session.settle endpoint.link.handle assembly.id).tell
          ⟨assembly.id, true, .rejected (some report)⟩)
  := by
  rw [refuse, supports, unsettled]
  rfl

/-- A delivery that may not be rejected is the fault of its link. -/
theorem refuse_of_not_rejects {assembly : Assembly}
    (unfit : ¬ (endpoint.link.supportsRejected = true ∧ assembly.settled = false))
    (report : ErrorReport) (s : Serving) :
  refuse endpoint assembly report s = .error (.link endpoint.link.handle report) s
  := by
  rw [refuse, if_pos]
  · rfl
  · grind

end Takes

end Operation

end MessageBroker
