import MessageBroker.Proofs.Session.Recording

/-!
# Deliveries that arrive in several transfers

The transfers of a delivery are gathered on the end of its link.  As long as they are no larger
than the link accepts, what is gathered is what they carried, in order.  The last of them completes
the delivery, and then, if it is a message that is no part of a transaction, it is put into the
queue of the link.
-/

namespace MessageBroker

/-! ### What transfers carry -/

/-- A transfer and its payload. -/
abbrev Parcel := Transfer × Bytes

namespace Parcel

/-- What transfers carry, in order. -/
def contents (parcels : List Parcel) : Bytes :=
  (parcels.map (·.2)).flatten

/-- The state that transfers told last. -/
def lastState (parcels : List Parcel) : Option DeliveryState :=
  parcels.foldl (fun state parcel => parcel.1.state.or state) none

/-- Whether one of the transfers is settled. -/
def settled (parcels : List Parcel) : Bool :=
  parcels.any fun parcel => parcel.1.settled = some true

theorem contents_append (parcels : List Parcel) (parcel : Parcel) :
  contents (parcels ++ [parcel]) = contents parcels ++ parcel.2
  := by
  simp [contents]

theorem lastState_append (parcels : List Parcel) (parcel : Parcel) :
  lastState (parcels ++ [parcel]) = parcel.1.state.or (lastState parcels)
  := by
  rw [lastState, List.foldl_append]
  rfl

theorem settled_append (parcels : List Parcel) (parcel : Parcel) :
  settled (parcels ++ [parcel]) = (settled parcels || decide (parcel.1.settled = some true))
  := by
  simp [settled]

end Parcel

open Session Parcel

namespace Link

variable {link : Link}

/-- What is larger than what a link does not accept is not accepted either. -/
theorem exceedsMaxMessageSize_mono {size size' : Nat} (h : size ≤ size')
    (exceeds : link.exceedsMaxMessageSize size = true) :
  link.exceedsMaxMessageSize size' = true
  := by
  simp only [exceedsMaxMessageSize, decide_eq_true_eq] at exceeds ⊢
  exact ⟨exceeds.1, Nat.lt_of_lt_of_le exceeds.2 h⟩

theorem exceedsMaxMessageSize_of_eq {link' : Link} (h : link'.maxMessageSize = link.maxMessageSize)
    (size : Nat) :
  link'.exceedsMaxMessageSize size = link.exceedsMaxMessageSize size
  := by
  rw [exceedsMaxMessageSize, exceedsMaxMessageSize, h]

end Link

/-! ### What is gathered -/

/-- An assembly gathers transfers of a delivery of a link. -/
structure Assembly.Gathers (link : Link) (id : UInt32) (mode : ReceiverSettleMode)
    (parcels : List Parcel) (assembly : Assembly) : Prop where
  /-- The number of the delivery. -/
  id : assembly.id = id
  /-- How the delivery is to be settled. -/
  settleMode : assembly.settleMode = mode
  /-- The delivery is settled if one of the transfers is. -/
  settled : assembly.settled = Parcel.settled parcels
  /-- The state is that of the last transfer that told one. -/
  state : assembly.state = lastState parcels
  /-- Payloads are dropped only if the link does not accept them. -/
  dropped : assembly.discarding = true →
    link.exceedsMaxMessageSize (contents parcels).length = true
  /-- What is gathered is what the transfers carried. -/
  kept : assembly.discarding = false →
    assembly.payload = contents parcels ∧ assembly.size = (contents parcels).length

namespace Assembly

variable {link : Link} {id : UInt32} {mode : ReceiverSettleMode} {parcels : List Parcel}
  {assembly : Assembly}

/-- A payload that is gathered comes after the others. -/
theorem push_of_kept (h : assembly.discarding = false) (payload : Bytes) :
  (assembly.push payload).payload = assembly.payload ++ payload
    ∧ (assembly.push payload).size = assembly.size + payload.length
    ∧ (assembly.push payload).discarding = false
  := by
  cases payload with
  | nil =>
      rw [push, h]
      exact ⟨(List.append_nil _).symm, rfl, h⟩
  | cons first others =>
      rw [push, h]
      refine ⟨?_, rfl, rfl⟩
      simp [Assembly.payload]

/-- What a payload does not change. -/
theorem push_other (assembly : Assembly) (payload : Bytes) :
  (assembly.push payload).id = assembly.id
    ∧ (assembly.push payload).settleMode = assembly.settleMode
    ∧ (assembly.push payload).settled = assembly.settled
    ∧ (assembly.push payload).state = assembly.state
    ∧ (assembly.push payload).discarding = assembly.discarding
  := by
  rw [push]
  split
  · exact ⟨rfl, rfl, rfl, rfl, rfl⟩
  · exact ⟨rfl, rfl, rfl, rfl, rfl⟩

/-- The first transfer of a delivery is gathered. -/
theorem gathers_start (link : Link) (id : UInt32) (tag : Bytes) (mode : ReceiverSettleMode)
    (transfer : Transfer) (payload : Bytes) :
  ((start id tag (transfer.settled.getD false) mode transfer.state).push payload).Gathers link id
    mode [(transfer, payload)]
  := by
  obtain ⟨hid, hmode, hsettled, hstate, hdiscarding⟩ :=
    push_other (start id tag (transfer.settled.getD false) mode transfer.state) payload
  have hkept : (start id tag (transfer.settled.getD false) mode transfer.state).discarding = false :=
    rfl
  constructor
  · exact hid
  · exact hmode
  · rw [hsettled, Parcel.settled, List.any_cons, List.any_nil, Bool.or_false]
    change transfer.settled.getD false = _
    cases transfer.settled with
    | none => rfl
    | some settled => cases settled <;> rfl
  · rw [hstate]
    exact (Option.or_none).symm
  · intro h
    rw [hdiscarding] at h
    contradiction
  · intro _
    obtain ⟨hpayload, hsize, -⟩ := push_of_kept hkept payload
    rw [hpayload, hsize]
    simp [contents, start, Assembly.payload]

/-- One more transfer of a delivery is gathered. -/
theorem Gathers.next (gathers : assembly.Gathers link id mode parcels) (transfer : Transfer)
    (payload : Bytes) :
  ((assembly.resume transfer).push payload).Gathers link id mode (parcels ++ [(transfer, payload)])
  := by
  obtain ⟨hid, hmode, hsettled, hstate, hdiscarding⟩ :=
    push_other (assembly.resume transfer) payload
  have hlength : (contents parcels).length
      ≤ (contents (parcels ++ [(transfer, payload)])).length := by
    rw [contents_append, List.length_append]
    exact Nat.le_add_right _ _
  constructor
  · exact hid.trans gathers.id
  · exact hmode.trans gathers.settleMode
  · rw [hsettled, settled_append, ← gathers.settled]
    rfl
  · rw [hstate, lastState_append, ← gathers.state]
    rfl
  · intro h
    rw [hdiscarding] at h
    exact link.exceedsMaxMessageSize_mono hlength (gathers.dropped h)
  · intro h
    rw [hdiscarding] at h
    have hkept : (assembly.resume transfer).discarding = false := h
    obtain ⟨hpayload, hsize, -⟩ := push_of_kept hkept payload
    obtain ⟨hpayload', hsize'⟩ := gathers.kept h
    rw [hpayload, hsize, contents_append, List.length_append]
    exact ⟨congrArg (· ++ payload) hpayload', congrArg (· + payload.length) hsize'⟩

/-- What is larger than its link accepts may be dropped. -/
theorem Gathers.discard (gathers : assembly.Gathers link id mode parcels)
    (exceeds : link.exceedsMaxMessageSize (contents parcels).length = true) :
  assembly.discard.Gathers link id mode parcels
  := ⟨gathers.id, gathers.settleMode, gathers.settled, gathers.state, fun _ => exceeds,
    fun h => by contradiction⟩

/-- What is gathered is dropped, or larger than its link accepts, if what was carried is. -/
theorem Gathers.exceeds_iff (gathers : assembly.Gathers link id mode parcels) :
  (assembly.discarding || link.exceedsMaxMessageSize assembly.size)
    = link.exceedsMaxMessageSize (contents parcels).length
  := by
  cases hdiscarding : assembly.discarding with
  | true => rw [gathers.dropped hdiscarding, Bool.true_or]
  | false => rw [(gathers.kept hdiscarding).2, Bool.false_or]

theorem Gathers.exceeds (gathers : assembly.Gathers link id mode parcels) {link' : Link}
    (limit : link'.maxMessageSize = link.maxMessageSize)
    (large : link'.exceedsMaxMessageSize assembly.size = true) :
  link.exceedsMaxMessageSize (contents parcels).length = true
  := by
  rw [← gathers.exceeds_iff, ← Link.exceedsMaxMessageSize_of_eq limit, large, Bool.or_true]

end Assembly

/-! ### The next transfer of a delivery -/

namespace Endpoint

/-- A transfer begins a delivery without a fault: it has the number and the tag that it needs,
there is credit, and neither how it is to be settled nor its tag stands in the way. -/
structure Starts (transfer : Transfer) (id : UInt32) (mode : ReceiverSettleMode)
    (endpoint : Endpoint) : Prop where
  /-- No delivery is arriving. -/
  idle : endpoint.assembly = none
  /-- The number of the delivery. -/
  id : transfer.deliveryId = some id
  /-- The delivery has a tag, which is not that of an unsettled one. -/
  tag : ∃ tag, transfer.deliveryTag = some tag
    ∧ (transfer.settled ≠ some true → endpoint.link.unsettled.hasTag tag = false)
  /-- There is credit for the delivery. -/
  credit : endpoint.link.credit.maySend = true
  /-- How the delivery is to be settled. -/
  mode : endpoint.link.settleMode transfer.rcvSettleMode = .ok mode

/-- A transfer is taken as the next one of a delivery, after the given ones. -/
def Takes (link : Link) (id : UInt32) (mode : ReceiverSettleMode) (parcels : List Parcel)
    (transfer : Transfer) (endpoint : Endpoint) : Prop :=
  ∃ taken, (endpoint.takeAssembly transfer).1 = .ok taken ∧ ∀ payload,
    (taken.push payload).Gathers link id mode (parcels ++ [(transfer, payload)])

variable {endpoint : Endpoint} {link : Link} {id : UInt32} {mode : ReceiverSettleMode}
  {transfer : Transfer}

/-- The transfer that begins a delivery uses credit, and the tag unless the delivery is settled. -/
theorem Starts.takeAssembly (starts : endpoint.Starts transfer id mode) :
  ∃ tag unsettled, transfer.deliveryTag = some tag
    ∧ endpoint.takeAssembly transfer
      = (.ok (.start id tag (transfer.settled.getD false) mode transfer.state),
          { endpoint with
            link := { endpoint.link with credit := endpoint.link.credit.spend, unsettled } })
    ∧ (transfer.settled.getD false = false →
        endpoint.link.unsettled.insert tag id = .ok unsettled)
  := by
  obtain ⟨tag, htag, hfresh⟩ := starts.tag
  have hmode : ({ endpoint.link with credit := endpoint.link.credit.spend } : Link).settleMode
      transfer.rcvSettleMode = .ok mode := starts.mode
  rw [Endpoint.takeAssembly, starts.idle]
  dsimp only
  rw [startDelivery, starts.id, htag]
  dsimp only
  rw [LinkCredit.onTransfer, if_pos starts.credit]
  dsimp only
  rw [hmode]
  dsimp only
  cases hsettled : transfer.settled.getD false with
  | true => exact ⟨tag, endpoint.link.unsettled, rfl, rfl, fun h => by contradiction⟩
  | false =>
      have hne : transfer.settled ≠ some true := by
        intro h
        rw [h] at hsettled
        contradiction
      have hinsert : ∃ unsettled, endpoint.link.unsettled.insert tag id = .ok unsettled := by
        rw [Unsettled.insert, hfresh hne]
        exact ⟨_, rfl⟩
      obtain ⟨unsettled, hinsert⟩ := hinsert
      rw [show ({ endpoint.link with credit := endpoint.link.credit.spend } : Link).unsettled.insert
        tag id = .ok unsettled from hinsert]
      exact ⟨tag, unsettled, rfl, rfl, fun _ => hinsert⟩

theorem Starts.takes (starts : endpoint.Starts transfer id mode) :
  endpoint.Takes link id mode [] transfer
  := by
  obtain ⟨tag, unsettled, -, htake, -⟩ := starts.takeAssembly
  refine ⟨.start id tag (transfer.settled.getD false) mode transfer.state, ?_,
    fun payload => Assembly.gathers_start link id tag mode transfer payload⟩
  rw [htake]

/-- A transfer that is taken leaves the terms of its link as they are. -/
theorem Takes.taken {parcels : List Parcel} (takes : endpoint.Takes link id mode parcels transfer) :
  ∃ taken endpoint', endpoint.takeAssembly transfer = (.ok taken, endpoint')
    ∧ endpoint'.kind = endpoint.kind
    ∧ endpoint'.link.maxMessageSize = endpoint.link.maxMessageSize
    ∧ endpoint'.link.detachSent = endpoint.link.detachSent
    ∧ ∀ payload, (taken.push payload).Gathers link id mode (parcels ++ [(transfer, payload)])
  := by
  obtain ⟨taken, htaken, hgathers⟩ := takes
  obtain ⟨credit, unsettled, gathered, hsnd⟩ := endpoint.takeAssembly_snd transfer
  exact ⟨taken, _, Prod.ext htaken hsnd, rfl, rfl, rfl, hgathers⟩

theorem takes_of_gathers {parcels : List Parcel} {assembly : Assembly}
    (h : endpoint.assembly = some assembly) (gathers : assembly.Gathers link id mode parcels) :
  endpoint.Takes link id mode parcels transfer
  := by
  refine ⟨assembly.resume transfer, ?_, fun payload => gathers.next transfer payload⟩
  rw [takeAssembly, h]

end Endpoint

/-! ### The delivery is completed -/

section Completed

variable {session : Session} {endpoint : Endpoint} {transfer : Transfer} {link : Link}
  {id : UInt32} {mode : ReceiverSettleMode} {parcels : List Parcel}

/-- A delivery is completed by its last transfer, unless that aborts it or the link does not accept
its size. -/
theorem Session.completed?_of_takes (window : session.incomingWindow ≠ 0)
    (hget : session.endpoints.get? transfer.handle = some endpoint)
    (receives : endpoint.kind.isReceiving = true) (attached : endpoint.link.detachSent = false)
    (limit : endpoint.link.maxMessageSize = link.maxMessageSize)
    (takes : endpoint.Takes link id mode parcels transfer) (payload : Bytes) :
  ∃ endpoint' assembly, endpoint'.kind = endpoint.kind
    ∧ assembly.Gathers link id mode (parcels ++ [(transfer, payload)])
    ∧ session.completed? (.transfer transfer) payload
      = if transfer.aborted || transfer.more
          || link.exceedsMaxMessageSize (contents (parcels ++ [(transfer, payload)])).length
        then none else some (endpoint', assembly)
  := by
  obtain ⟨taken, endpoint', htake, hkind, hlimit, -, hgathers⟩ := takes.taken
  have gathers := hgathers payload
  refine ⟨endpoint', taken.push payload, hkind, gathers, ?_⟩
  rw [completed?, if_neg window, hget]
  dsimp only
  rw [attached, receives, if_neg (by simp), Endpoint.completed?, htake]
  dsimp only
  rw [Bool.or_assoc, ← gathers.exceeds_iff,
    Link.exceedsMaxMessageSize_of_eq (hlimit.trans limit)]

end Completed

/-! ### The delivery goes on -/

/-- The end of a link gathers a delivery: what its transfers carried is gathered, unless the broker
has detached the link. -/
structure Endpoint.Gathering (queue : QueueId) (link : Link) (id : UInt32)
    (mode : ReceiverSettleMode) (parcels : List Parcel) (endpoint : Endpoint) : Prop where
  /-- Messages from the peer go to the queue. -/
  kind : endpoint.kind = .receiving queue
  /-- The largest message has the same size. -/
  limit : endpoint.link.maxMessageSize = link.maxMessageSize
  /-- What the transfers carried is gathered. -/
  gathered : endpoint.link.detachSent = false → ∃ assembly, endpoint.assembly = some assembly
    ∧ assembly.Gathers link id mode parcels

section Gathering

variable {queue : QueueId} {link : Link} {id : UInt32} {mode : ReceiverSettleMode}
  {parcels : List Parcel} {endpoint : Endpoint}

theorem Endpoint.Gathering.takes (gathering : endpoint.Gathering queue link id mode parcels)
    (transfer : Transfer) (attached : endpoint.link.detachSent = false) :
  endpoint.Takes link id mode parcels transfer
  := by
  obtain ⟨assembly, hassembly, gathers⟩ := gathering.gathered attached
  exact takes_of_gathers hassembly gathers

/-- Where the broker has detached a link, nothing is left to gather. -/
theorem Endpoint.gathering_of_detached (kind : endpoint.kind = .receiving queue)
    (limit : endpoint.link.maxMessageSize = link.maxMessageSize)
    (sent : endpoint.link.detachSent = true) :
  endpoint.Gathering queue link id mode parcels
  := by
  refine ⟨kind, limit, fun attached => ?_⟩
  rw [sent] at attached
  contradiction

/-- A delivery is gathered as long as the peer leaves its link alone. -/
theorem Endpoint.Gathering.of_continues {endpoint' : Endpoint}
    (gathering : endpoint.Gathering queue link id mode parcels)
    (continues : endpoint.Continues endpoint') :
  endpoint'.Gathering queue link id mode parcels
  := by
  have hreceives : endpoint.kind.isReceiving = true := by
    rw [gathering.kind]
    rfl
  refine ⟨(continues.kind hreceives).trans gathering.kind,
    continues.maxMessageSize.trans gathering.limit, ?_⟩
  intro hattached
  have hbefore : endpoint.link.detachSent = false := by
    by_contra hsent
    rw [continues.detachSent (by simpa using hsent)] at hattached
    contradiction
  rw [continues.assembly hattached]
  exact gathering.gathered hbefore

namespace Operation

variable {s : Serving} {transfer : Transfer}

theorem endpoints_replenishWindow (s : Serving) :
  (replenishWindow s).session.endpoints = s.session.endpoints
  := by
  rw [replenishWindow]
  change (ite _ _ _ : Session).endpoints = _
  split <;> rfl

/-- A transfer on a link that the broker has detached is passed over. -/
theorem handle_of_detached (window : s.session.incomingWindow ≠ 0)
    (hget : s.session.endpoints.get? transfer.handle = some endpoint)
    (detached : endpoint.link.detachSent = true) (payload : Bytes) :
  handle (.transfer transfer) payload s = .ok () (replenishWindow (s.onSession (·.count)))
  := by
  have hreceive : receive transfer payload (s.onSession (·.count))
      = .ok () (s.onSession (·.count)) := by
    rw [receive_of_some (by exact hget), if_pos detached]
    rfl
  rw [handle, dispatch, onTransfer_of_counted window, hreceive]

/-- A transfer that neither completes nor aborts its delivery is gathered, or its size is the fault
of the link. -/
theorem handle_of_more (window : s.session.incomingWindow ≠ 0)
    (hget : s.session.endpoints.get? transfer.handle = some endpoint)
    (receives : endpoint.kind.isReceiving = true) (attached : endpoint.link.detachSent = false)
    {taken : Assembly} {endpoint' : Endpoint}
    (htake : endpoint.takeAssembly transfer = (.ok taken, endpoint'))
    (more : transfer.more = true) (aborted : transfer.aborted = false) (payload : Bytes)
    {counted : Serving}
    (hcounted : counted = s.onSession fun session =>
      session.count.putEndpoint transfer.handle endpoint') :
  (∃ assembly s', limitSize endpoint' (taken.push payload) counted = .ok assembly s'
      ∧ handle (.transfer transfer) payload s
        = .ok () (replenishWindow (putAssembly transfer.handle assembly s')))
    ∨ ∃ report, limitSize endpoint' (taken.push payload) counted
        = .error (.link endpoint'.link.handle report) counted
      ∧ handle (.transfer transfer) payload s
        = detachWith endpoint'.link.handle report (replenishWindow counted)
  := by
  have hreceive : receive transfer payload (s.onSession (·.count))
      = (limitSize endpoint' (taken.push payload) >>= fun assembly =>
          modify (putAssembly transfer.handle assembly)) counted := by
    rw [receive_of_get? (by exact hget) attached receives, receiveOn_of_taken htake aborted, hcounted, more]
    rfl
  cases hlimit : limitSize endpoint' (taken.push payload) counted with
  | ok assembly s' =>
      refine .inl ⟨assembly, s', rfl, ?_⟩
      rw [run_bind_of_ok hlimit, run_modify] at hreceive
      rw [handle, dispatch, onTransfer_of_counted window, hreceive]
  | error fault s' =>
      obtain ⟨⟨report, rfl⟩, rfl, -⟩ := limitSize_eq_error hlimit
      refine .inr ⟨report, rfl, ?_⟩
      rw [run_bind_of_error hlimit] at hreceive
      rw [handle, dispatch, onTransfer_of_counted window, hreceive]

/-- What is gathered is still gathered once its size has been looked at, and nothing else is done if
the link accepts what was carried. -/
theorem gathers_of_limitSize {link : Link} {taken assembly : Assembly} {s' : Serving}
    (gathers : taken.Gathers link id mode parcels)
    (limit : endpoint.link.maxMessageSize = link.maxMessageSize)
    (h : limitSize endpoint taken s = .ok assembly s') :
  assembly.Gathers link id mode parcels
    ∧ (link.exceedsMaxMessageSize (contents parcels).length = false → s' = s)
  := by
  rcases limitSize_eq_ok h with ⟨rfl, rfl, -⟩ | ⟨rfl, large, -⟩
  · exact ⟨gathers, fun _ => rfl⟩
  · have exceeds := gathers.exceeds limit large
    refine ⟨gathers.discard exceeds, fun within => ?_⟩
    rw [exceeds] at within
    contradiction

/-- A delivery goes on to be gathered with a transfer that neither completes nor aborts it, and
unless the link does not accept its size the peer is told nothing but flows. -/
theorem gathering_of_more {known : QueueId → Prop} (knows : s.session.Attached known)
    (window : s.session.incomingWindow ≠ 0)
    (hget : s.session.endpoints.get? transfer.handle = some endpoint)
    (kind : endpoint.kind = .receiving queue)
    (limit : endpoint.link.maxMessageSize = link.maxMessageSize)
    (takes : endpoint.link.detachSent = false → endpoint.Takes link id mode parcels transfer)
    (more : transfer.more = true) (aborted : transfer.aborted = false) (payload : Bytes) :
  (∃ endpoint', ((handle (.transfer transfer) payload).after s).session.endpoints.get?
        transfer.handle = some endpoint'
      ∧ endpoint'.Gathering queue link id mode (parcels ++ [(transfer, payload)]))
    ∧ (link.exceedsMaxMessageSize (contents (parcels ++ [(transfer, payload)])).length = false →
        s.session.Flows ((handle (.transfer transfer) payload).after s).session)
  := by
  cases hsent : endpoint.link.detachSent with
  | true =>
      rw [after_of_ok (handle_of_detached window hget hsent payload), endpoints_replenishWindow]
      refine ⟨⟨endpoint, hget, Endpoint.gathering_of_detached kind limit hsent⟩, fun _ => ?_⟩
      exact Flows.trans (.of_same rfl) (flows_replenishWindow _)
  | false =>
      obtain ⟨taken, endpoint', htake, hkind, hlimit, hsent', hgathers⟩ := (takes hsent).taken
      have gathers := hgathers payload
      have hunder := (knows _ _ hget).takeAssembly transfer
      rw [htake] at hunder
      rw [kind] at hkind
      rw [limit] at hlimit
      rw [hsent] at hsent'
      have hreceives : endpoint'.kind.isReceiving = true := by
        rw [hkind]
        rfl
      obtain ⟨counted, hcounted⟩ : ∃ counted, counted = s.onSession fun session =>
          session.count.putEndpoint transfer.handle endpoint' := ⟨_, rfl⟩
      have hput : counted.session.endpoints.get? transfer.handle = some endpoint' := by
        rw [hcounted]
        exact Table.get?_put_self _ _ _
      rcases handle_of_more window hget (by rw [kind]; rfl) hsent htake more aborted payload
        hcounted with ⟨assembly, s', hok, hhandle⟩ | ⟨report, herror, hhandle⟩
      · -- The size is accepted, or the delivery was refused and the rest of it is dropped.
        have hcontinues := continues_limitSize known True transfer.handle endpoint'
          (taken.push payload) counted
        obtain ⟨other, hother, continues⟩ :=
          hcontinues.goes trivial endpoint' hput hunder.detachReceived
        obtain ⟨gathers', hsame⟩ := gathers_of_limitSize gathers hlimit hok
        rw [after_of_ok hok] at hother
        rw [after_of_ok hhandle, endpoints_replenishWindow]
        refine ⟨⟨{ other with assembly := some assembly }, ?_, ?_⟩, fun within => ?_⟩
        · change (s'.session.endpoints.update transfer.handle
            ({ · with assembly := some assembly })).get? transfer.handle = _
          rw [Table.get?_update, if_pos rfl, hother]
          rfl
        · exact ⟨(continues.kind hreceives).trans hkind, continues.maxMessageSize.trans hlimit,
            fun _ => ⟨assembly, rfl, gathers'⟩⟩
        · rw [hsame within]
          refine Flows.trans (.of_same ?_) (flows_replenishWindow _)
          rw [hcounted]
          rfl
      · -- The link is at fault, and the broker gives it up.
        have hput' : (replenishWindow counted).session.endpoints.get? endpoint'.link.handle
            = some endpoint' := by
          rw [endpoints_replenishWindow, hunder.handle]
          exact hput
        have hgone := endpoint'.continues_givenUp
        refine ⟨⟨endpoint'.givenUp, ?_, ?_⟩, fun within => ?_⟩
        · rw [after, hhandle, ← hunder.handle]
          exact get?_detachWith hput' hsent' hunder.detachReceived report
        · exact Endpoint.gathering_of_detached ((hgone.kind hreceives).trans hkind)
            (hgone.maxMessageSize.trans hlimit) endpoint'.detachSent_givenUp
        · rw [gathers.exceeds hlimit (limitSize_eq_error herror).2.2.1] at within
          contradiction

end Operation

end Gathering

/-! ### Messages are put into queues -/

/-- A message is to be put into its queue at once: it can be read, the broker takes it, and it is
no part of a transaction. -/
def SessionLimits.Deposits (limits : SessionLimits) (payload : Bytes)
    (state : Option DeliveryState) : Prop :=
  (∃ sections, MessageSections.parse payload = .ok sections ∧ sections.Acceptable limits)
    ∧ state.bind DeliveryState.transaction? = none

/-- A transfer has the message of its delivery put into its queue at once: it is the last one and
does not abort the delivery, the broker has not detached the link, the link accepts the size of the
message, and the message is to be put there at once. -/
structure Endpoint.Deposits (limits : SessionLimits) (link : Link) (transfer : Transfer)
    (parcels : List Parcel) (endpoint : Endpoint) : Prop where
  /-- The delivery is not aborted. -/
  aborted : transfer.aborted = false
  /-- The transfer is the last one. -/
  more : transfer.more = false
  /-- The broker has not detached the link. -/
  attached : endpoint.link.detachSent = false
  /-- The link accepts the size of the message. -/
  within : link.exceedsMaxMessageSize (contents parcels).length = false
  /-- The message is to be put into its queue at once. -/
  message : limits.Deposits (contents parcels) (lastState parcels)

/-- The peer is told once that a delivery is accepted, if it is not settled; besides only flows are
to be sent. -/
def Session.Accepts (id : UInt32) (settled : Bool) (mode : ReceiverSettleMode)
    (session session' : Session) : Prop :=
  if settled then session.Flows session'
  else
    ∃ flows, session'.pending
      = (session.tell ⟨id, mode = .first, .accepted⟩).pending ++ outgoingFlows flows

namespace Operation

variable {s : Serving} {transfer : Transfer} {payload : Bytes} {endpoint : Endpoint}
  {queue : QueueId} {assembly : Assembly}

/-- A complete delivery that is to be put into its queue at once is put there, and accepted. -/
theorem handle_of_deposited
    (completed : s.session.completed? (.transfer transfer) payload = some (endpoint, assembly))
    (kind : endpoint.kind = .receiving queue)
    (deposits : s.session.limits.Deposits assembly.payload assembly.state) :
  ((handle (.transfer transfer) payload).after s).store
      = (s.store.enqueue queue assembly.payload).2
    ∧ s.session.Accepts assembly.id assembly.settled assembly.settleMode
        ((handle (.transfer transfer) payload).after s).session
  := by
  obtain ⟨⟨sections, parsed, acceptable⟩, plain⟩ := deposits
  have hcomplete : complete endpoint assembly
      (s.onSession fun session => session.count.putEndpoint transfer.handle endpoint)
      = answer endpoint.link.handle assembly .accepted
          ((s.onSession fun session => session.count.putEndpoint transfer.handle endpoint).onStore
            fun store => (store.enqueue queue assembly.payload).2) := by
    rw [complete, kind]
    exact deliver_of_none parsed acceptable plain
  have hstore := (quiet_of_completed completed).store
  constructor
  · rw [(quiet_handle (.transfer transfer) payload s).store]
    refine hstore.trans ?_
    rw [after, hcomplete, ← after, (quiet_answer _ assembly .accepted _).store]
    rfl
  · rw [answer, run_onSession] at hcomplete
    obtain ⟨flows, hflows⟩ := flows_of_completed completed hcomplete
    rw [Session.Accepts]
    split
    · next hsettled =>
        refine ⟨flows, ?_⟩
        rw [hflows]
        simp only [hsettled, if_true]
        rfl
    · next hsettled =>
        refine ⟨flows, ?_⟩
        rw [hflows]
        simp only [hsettled]
        cases assembly.settleMode with
        | first => rfl
        | second => rfl

/-- A complete delivery that is not to be put into its queue at once changes no queue. -/
theorem store_of_not_deposited
    (completed : s.session.completed? (.transfer transfer) payload = some (endpoint, assembly))
    (kind : endpoint.kind = .receiving queue)
    (deposits : ¬ s.session.limits.Deposits assembly.payload assembly.state) :
  ((handle (.transfer transfer) payload).after s).store = s.store
  := by
  rw [(quiet_handle (.transfer transfer) payload s).store]
  refine (quiet_of_completed completed).store.trans ?_
  obtain ⟨counted, hcounted⟩ : ∃ counted, counted = s.onSession fun session =>
      session.count.putEndpoint transfer.handle endpoint := ⟨_, rfl⟩
  have hlimits : counted.session.limits = s.session.limits := by rw [hcounted]; rfl
  have hstore : counted.store = s.store := by rw [hcounted]; rfl
  rw [← hcounted, ← hstore, complete, kind]
  dsimp only
  rw [deliver, after_get_bind]
  dsimp only
  split
  · rfl
  · next sections parsed =>
      split
      · exact (quiet_refuse endpoint assembly _ counted).store
      · next hdurable =>
          split
          · split
            · exact (quiet_refuse endpoint assembly _ counted).store
            · rw [after_onSession_bind, (quiet_answer _ assembly _ _).store]
              rfl
          · next plain =>
              apply absurd _ deposits
              refine ⟨⟨sections, parsed, ?_⟩, plain⟩
              rw [MessageSections.Acceptable, ← hlimits]
              simpa using hdurable

/-- A transfer that completes no delivery changes no queue. -/
theorem store_of_not_completed
    (h : s.session.completed? (.transfer transfer) payload = none) :
  ((handle (.transfer transfer) payload).after s).store = s.store
  := ((quiet_onTransfer h).trans (quiet_handle (.transfer transfer) payload s)).store

/-- A transfer of a delivery has the message put into its queue, with what the transfers carried, or
changes no queue. -/
theorem handle_of_takes {link : Link} {id : UInt32} {mode : ReceiverSettleMode}
    {parcels : List Parcel} (window : s.session.incomingWindow ≠ 0)
    (hget : s.session.endpoints.get? transfer.handle = some endpoint)
    (kind : endpoint.kind = .receiving queue)
    (limit : endpoint.link.maxMessageSize = link.maxMessageSize)
    (takes : endpoint.link.detachSent = false → endpoint.Takes link id mode parcels transfer)
    (payload : Bytes) :
  (endpoint.Deposits s.session.limits link transfer (parcels ++ [(transfer, payload)]) →
      ((handle (.transfer transfer) payload).after s).store
          = (s.store.enqueue queue (contents (parcels ++ [(transfer, payload)]))).2
        ∧ s.session.Accepts id (settled (parcels ++ [(transfer, payload)])) mode
          ((handle (.transfer transfer) payload).after s).session)
    ∧ (¬ endpoint.Deposits s.session.limits link transfer (parcels ++ [(transfer, payload)]) →
      ((handle (.transfer transfer) payload).after s).store = s.store)
  := by
  have receives : endpoint.kind.isReceiving = true := by
    rw [kind]
    rfl
  cases hsent : endpoint.link.detachSent with
  | true =>
      constructor
      · intro deposits
        rw [deposits.attached] at hsent
        contradiction
      · intro _
        rw [after_of_ok (handle_of_detached window hget hsent payload)]
        rfl
  | false =>
      obtain ⟨endpoint', assembly, hkind, gathers, hcompleted⟩ :=
        completed?_of_takes window hget receives hsent limit (takes hsent) payload
      rw [kind] at hkind
      generalize parcels ++ [(transfer, payload)] = all at gathers hcompleted ⊢
      have hkept (within : link.exceedsMaxMessageSize (contents all).length = false) :
          assembly.payload = contents all := by
        have hexceeds := gathers.exceeds_iff
        rw [within, Bool.or_eq_false_iff] at hexceeds
        exact (gathers.kept hexceeds.1).1
      constructor
      · intro deposits
        rw [deposits.aborted, deposits.more, deposits.within, if_neg (by simp)] at hcompleted
        have hmessage := deposits.message
        rw [← hkept deposits.within, ← gathers.state] at hmessage
        have hhandle := handle_of_deposited hcompleted hkind hmessage
        rw [gathers.id, gathers.settled, gathers.settleMode, hkept deposits.within] at hhandle
        exact hhandle
      · intro hnot
        split at hcompleted
        · exact store_of_not_completed hcompleted
        · next hends =>
            simp only [Bool.or_eq_true, not_or, Bool.not_eq_true] at hends
            obtain ⟨⟨haborted, hmore⟩, hwithin⟩ := hends
            apply store_of_not_deposited hcompleted hkind
            rw [hkept hwithin, gathers.state]
            exact fun message => hnot ⟨haborted, hmore, hsent, hwithin, message⟩

end Operation

end MessageBroker
