import MessageBroker.Proofs.Frame.Readers
import MessageBroker.Proofs.Session.Parting
import MessageBroker.Proofs.Session.Splitting

/-!
# Deliveries that are put together again

The end of a link that takes messages puts together again what was cut.  If nothing stands in the
way of a delivery, its transfers build one delivery, which is the one that was cut.
-/

namespace MessageBroker

open Session

/-! ### Frames that arrive -/

namespace Serving

/-- The deliveries that frames build on a session, one after another, and what becomes of the
session. -/
def receive (s : Serving) : List DecodedFrame → List Assembly × Serving
  | [] => ([], s)
  | frame :: frames =>
    match frame.performative with
    | none => s.receive frames
    | some p =>
      let built := (s.session.completed? p frame.payload).map (·.2)
      let (others, s) := ((Operation.handle p frame.payload).after s).receive frames
      (built.toList ++ others, s)

end Serving

/-- What is read from the frame of a parcel. -/
def Parcel.decoded (channel : UInt16) (parcel : Parcel) : DecodedFrame :=
  ⟨channel, some (.transfer parcel.1), parcel.2,
    (Emission.frame channel parcel.outgoing).octets.length⟩

namespace Serving

variable {s : Serving} {channel : UInt16}

theorem receive_cons (parcel : Parcel) (parcels : List Parcel) :
  s.receive ((parcel :: parcels).map (Parcel.decoded channel))
    = (((s.session.completed? (.transfer parcel.1) parcel.2).map (·.2)).toList
        ++ (receive ((Operation.handle (.transfer parcel.1) parcel.2).after s)
          (parcels.map (Parcel.decoded channel))).1,
      (receive ((Operation.handle (.transfer parcel.1) parcel.2).after s)
        (parcels.map (Parcel.decoded channel))).2)
  := rfl

end Serving

/-! ### Pieces that arrive -/

/-- The end of a link is free for a delivery: messages go from it to a queue, it is attached, no
delivery is arriving, there is credit, and messages may have any size. -/
structure Endpoint.Free (queue : QueueId) (endpoint : Endpoint) : Prop where
  /-- Messages go to a queue. -/
  kind : endpoint.kind = .receiving queue
  /-- The link is attached. -/
  attached : endpoint.link.isAttached = true
  /-- No delivery is arriving. -/
  idle : endpoint.assembly = none
  /-- There is credit. -/
  credit : endpoint.link.credit.maySend = true
  /-- Messages may have any size. -/
  unlimited : endpoint.link.maxMessageSize = 0

namespace Operation

variable {s : Serving} {transfer : Transfer} {endpoint endpoint' : Endpoint} {taken : Assembly}

theorem incomingWindow_replenishWindow (limit : s.session.limits.incomingWindow ≠ 0) :
  (replenishWindow s).session.incomingWindow ≠ 0
  := by
  rw [replenishWindow]
  change (ite _ _ _ : Session).incomingWindow ≠ 0
  split
  · next h =>
      intro zero
      rw [zero] at h
      exact absurd h (by simp)
  · exact limit

/-- A transfer that is not the last of its delivery leaves what it carries with the end of its
link, and changes no queue. -/
theorem handle_of_piece (window : s.session.incomingWindow ≠ 0)
    (hget : s.session.endpoints.get? transfer.handle = some endpoint)
    (receives : endpoint.kind.isReceiving = true) (attached : endpoint.link.detachSent = false)
    (htake : endpoint.takeAssembly transfer = (.ok taken, endpoint'))
    (unlimited : endpoint'.link.maxMessageSize = 0) (more : transfer.more = true)
    (aborted : transfer.aborted = false) (payload : Bytes) :
  (handle (.transfer transfer) payload).after s
    = replenishWindow (putAssembly transfer.handle (taken.push payload)
        (s.onSession fun session => session.count.putEndpoint transfer.handle endpoint'))
  := by
  have within : (!(taken.push payload).discarding
      && endpoint'.link.exceedsMaxMessageSize (taken.push payload).size) = false := by
    simp [Link.exceedsMaxMessageSize, unlimited]
  rcases handle_of_more window hget receives attached htake more aborted payload rfl with
    ⟨assembly, s', hlimit, hhandle⟩ | ⟨report, hlimit, -⟩
  · rw [limitSize_of_within within] at hlimit
    cases hlimit
    rw [after_of_ok hhandle]
  · rw [limitSize_of_within within] at hlimit
    contradiction

end Operation

/-! ### All pieces arrive -/

namespace Assembly

theorem push_pieces (assembly : Assembly) (pieces : List Bytes) :
  (pieces.foldl push assembly).id = assembly.id
    ∧ (pieces.foldl push assembly).tag = assembly.tag
    ∧ (pieces.foldl push assembly).settled = assembly.settled
    ∧ (pieces.foldl push assembly).state = assembly.state
  := by
  induction pieces generalizing assembly with
  | nil => exact ⟨rfl, rfl, rfl, rfl⟩
  | cons piece pieces ih =>
      obtain ⟨id, tag, settled, state⟩ := ih (assembly.push piece)
      have same : (assembly.push piece).id = assembly.id
          ∧ (assembly.push piece).tag = assembly.tag
          ∧ (assembly.push piece).settled = assembly.settled
          ∧ (assembly.push piece).state = assembly.state := by
        rw [push]
        split
        · exact ⟨rfl, rfl, rfl, rfl⟩
        · exact ⟨rfl, rfl, rfl, rfl⟩
      obtain ⟨id', tag', settled', state'⟩ := same
      exact ⟨id.trans id', tag.trans tag', settled.trans settled', state.trans state'⟩

/-- Pieces that are gathered one after another are gathered as a whole. -/
theorem payload_push_pieces {assembly : Assembly} (kept : assembly.discarding = false)
    (pieces : List Bytes) :
  (pieces.foldl push assembly).payload = assembly.payload ++ pieces.flatten
  := by
  induction pieces generalizing assembly with
  | nil => exact (List.append_nil _).symm
  | cons piece pieces ih =>
      obtain ⟨payload, -, kept'⟩ := push_of_kept kept piece
      rw [List.foldl_cons, ih kept', payload, List.append_assoc, List.flatten_cons]

/-- A transfer that only goes on with a delivery tells nothing new about it. -/
theorem resume_continuation (assembly : Assembly) (handle : UInt32) (more : Bool) :
  assembly.resume { Transfer.continuation handle with more } = assembly
  := by
  rw [resume]
  simp [Transfer.continuation]

end Assembly

/-- A session takes the next transfer of a delivery: its window is open, and the end of the link is
attached and takes messages of any size for a queue. -/
structure Serving.Expects (queue : QueueId) (transfer : Transfer) (taken : Assembly) (s : Serving) :
    Prop where
  /-- The window is open. -/
  window : s.session.incomingWindow ≠ 0
  /-- The window can be topped up. -/
  limit : s.session.limits.incomingWindow ≠ 0
  /-- The transfer does not abort the delivery. -/
  aborted : transfer.aborted = false
  /-- What the delivery carries is gathered. -/
  kept : taken.discarding = false
  /-- The transfer belongs to what the end of the link gathers. -/
  there : ∃ endpoint, s.session.endpoints.get? transfer.handle = some endpoint
    ∧ endpoint.kind = .receiving queue ∧ endpoint.link.detachSent = false
    ∧ endpoint.link.maxMessageSize = 0 ∧ (endpoint.takeAssembly transfer).1 = .ok taken

namespace Serving

variable {s : Serving} {queue : QueueId} {transfer : Transfer} {taken : Assembly}

/-- The end of the link without what it gathers. -/
theorem Expects.takes (expects : s.Expects queue transfer taken) :
  ∃ endpoint endpoint', s.session.endpoints.get? transfer.handle = some endpoint
    ∧ endpoint.kind = .receiving queue ∧ endpoint.link.detachSent = false
    ∧ endpoint.takeAssembly transfer = (.ok taken, endpoint')
    ∧ endpoint'.kind = .receiving queue ∧ endpoint'.link.detachSent = false
    ∧ endpoint'.link.maxMessageSize = 0
  := by
  obtain ⟨endpoint, hget, kind, attached, unlimited, htaken⟩ := expects.there
  obtain ⟨credit, unsettled, gathered, hsnd⟩ := endpoint.takeAssembly_snd transfer
  exact ⟨endpoint, _, hget, kind, attached, Prod.ext htaken hsnd, kind, attached, unlimited⟩

/-- The last transfer completes the delivery. -/
theorem Expects.completes (expects : s.Expects queue transfer taken) (piece : Bytes) :
  ∃ endpoint', endpoint'.kind = .receiving queue
    ∧ s.session.completed? (.transfer { transfer with more := false }) piece
      = some (endpoint', taken.push piece)
  := by
  obtain ⟨endpoint, endpoint', hget, kind, attached, htake, kind', -, unlimited⟩ := expects.takes
  obtain ⟨-, -, kept⟩ := Assembly.push_of_kept expects.kept piece
  refine ⟨endpoint', kind', ?_⟩
  rw [completed?, if_neg expects.window]
  dsimp only
  rw [hget]
  dsimp only
  rw [attached, kind, if_neg (by simp [EndpointKind.isReceiving])]
  apply Endpoint.completed?_eq_some_iff.mpr
  refine ⟨taken, htake, rfl, expects.aborted, rfl, kept, ?_⟩
  simp [Link.exceedsMaxMessageSize, unlimited]

/-- Another transfer completes nothing. -/
theorem Expects.incomplete (expects : s.Expects queue transfer taken) (piece : Bytes) :
  s.session.completed? (.transfer { transfer with more := true }) piece = none
  := by
  obtain ⟨endpoint, endpoint', hget, kind, attached, -⟩ := expects.takes
  rw [completed?, if_neg expects.window]
  dsimp only
  rw [hget]
  dsimp only
  rw [attached, kind, if_neg (by simp [EndpointKind.isReceiving])]
  apply Endpoint.completed?_eq_none_iff.mpr
  intro _ _ _
  exact .inr (.inl rfl)

/-- After another transfer the session takes one that goes on with the delivery. -/
theorem Expects.goes (expects : s.Expects queue transfer taken) (piece : Bytes) {s' : Serving}
    (h : s' = (Operation.handle (.transfer { transfer with more := true }) piece).after s) :
  s'.Expects queue (.continuation transfer.handle) (taken.push piece)
    ∧ s'.store = s.store ∧ s'.session.limits = s.session.limits
  := by
  obtain ⟨endpoint, endpoint', hget, kind, attached, htake, kind', attached', unlimited⟩ :=
    expects.takes
  obtain ⟨-, -, kept⟩ := Assembly.push_of_kept expects.kept piece
  have hafter : (Operation.handle (.transfer { transfer with more := true }) piece).after s
      = Operation.replenishWindow (Operation.putAssembly transfer.handle (taken.push piece)
          (s.onSession fun session => session.count.putEndpoint transfer.handle endpoint')) := by
    have receives : endpoint.kind.isReceiving = true := by
      rw [kind]
      rfl
    apply Operation.handle_of_piece
    · exact expects.window
    · exact hget
    · exact receives
    · exact attached
    · exact htake
    · exact unlimited
    · rfl
    · exact expects.aborted
  have limits : (Operation.replenishWindow (Operation.putAssembly transfer.handle (taken.push piece)
      (s.onSession fun session => session.count.putEndpoint transfer.handle endpoint'))
        ).session.limits = s.session.limits := by
    rw [Operation.replenishWindow]
    change (ite _ _ _ : Session).limits = _
    split <;> rfl
  rw [h, hafter]
  refine ⟨?_, rfl, limits⟩
  constructor
  case window =>
    apply Operation.incomingWindow_replenishWindow
    exact expects.limit
  case limit =>
    rw [limits]
    exact expects.limit
  case aborted => rfl
  case kept => exact kept
  case there =>
    refine ⟨{ endpoint' with assembly := some (taken.push piece) }, ?_, kind', attached', unlimited,
      ?_⟩
    · rw [Operation.endpoints_replenishWindow]
      have put : Table.get? ((s.session.count.putEndpoint transfer.handle endpoint').endpoints.update
          transfer.handle ({ · with assembly := some (taken.push piece) })) transfer.handle
            = some { endpoint' with assembly := some (taken.push piece) } := by
        rw [Table.get?_update, if_pos rfl, putEndpoint, Table.get?_put_self]
        rfl
      exact put
    · have same := (taken.push piece).resume_continuation transfer.handle true
      exact congrArg Except.ok same

/-- The pieces of a delivery build one delivery.  If its message is to be put into its queue at
once, it is put there. -/
theorem receive_parcels {pieces : List Bytes} (nonempty : pieces ≠ [])
    (expects : s.Expects queue transfer taken) (channel : UInt16) :
  (s.receive ((transfer.parcels pieces).map (Parcel.decoded channel))).1
      = [pieces.foldl Assembly.push taken]
    ∧ (s.session.limits.Deposits (pieces.foldl Assembly.push taken).payload
          (pieces.foldl Assembly.push taken).state →
        (s.receive ((transfer.parcels pieces).map (Parcel.decoded channel))).2.store
          = (s.store.enqueue queue (pieces.foldl Assembly.push taken).payload).2)
  := by
  induction pieces generalizing s transfer taken with
  | nil => contradiction
  | cons piece pieces ih =>
      cases pieces with
      | nil =>
          obtain ⟨endpoint', kind, completed⟩ := expects.completes piece
          rw [Transfer.parcels_singleton, receive_cons]
          dsimp only
          rw [completed]
          refine ⟨rfl, ?_⟩
          intro deposits
          exact (Operation.handle_of_deposited completed kind deposits).1
      | cons next others =>
          obtain ⟨later, store, limits⟩ := expects.goes piece rfl
          obtain ⟨built, stored⟩ := ih (by simp) later
          rw [Transfer.parcels_cons_cons, receive_cons]
          dsimp only
          rw [expects.incomplete piece, built]
          refine ⟨rfl, ?_⟩
          intro deposits
          rw [← limits] at deposits
          rw [stored deposits, store]
          rfl

end Serving

/-! ### The first piece -/

/-- A delivery may begin on an end of a link that is free, unless its tag is that of an unsettled
delivery. -/
theorem Endpoint.Free.takes {queue : QueueId} {endpoint : Endpoint} (free : endpoint.Free queue)
    (handle id : UInt32) {settled : Bool}
    (fresh : settled = false → endpoint.link.unsettled.hasTag (bigEndian 4 id.toNat) = false) :
  (endpoint.takeAssembly (.opening handle id settled)).1
    = .ok (.start id (bigEndian 4 id.toNat) settled endpoint.link.rcvSettleMode none)
  := by
  have mode : ({ endpoint.link with credit := endpoint.link.credit.spend } : Link).settleMode none
      = .ok endpoint.link.rcvSettleMode := rfl
  rw [takeAssembly, free.idle]
  dsimp only
  rw [startDelivery]
  dsimp only [Transfer.opening, Transfer.continuation]
  rw [LinkCredit.onTransfer, if_pos free.credit]
  dsimp only
  rw [mode]
  dsimp only
  cases settled with
  | true => rfl
  | false =>
      rw [Unsettled.insert, fresh rfl]
      rfl

/-- A session expects the first transfer of a delivery on a link that is free. -/
theorem Endpoint.Free.expects {queue : QueueId} {endpoint : Endpoint} (free : endpoint.Free queue)
    {s : Serving} (window : s.session.incomingWindow ≠ 0)
    (limit : s.session.limits.incomingWindow ≠ 0) {handle : UInt32}
    (hget : s.session.endpoints.get? handle = some endpoint) (id : UInt32) {settled : Bool}
    (fresh : settled = false → endpoint.link.unsettled.hasTag (bigEndian 4 id.toNat) = false) :
  s.Expects queue (.opening handle id settled)
    (.start id (bigEndian 4 id.toNat) settled endpoint.link.rcvSettleMode none)
  := ⟨window, limit, rfl, rfl, endpoint, hget, free.kind,
    Link.detachSent_of_isAttached free.attached, free.unlimited, free.takes handle id fresh⟩

end MessageBroker
