import MessageBroker.Proofs.Connection.Conversation
import MessageBroker.Proofs.Session.Reassembly
import MessageBroker.Proofs.World.Intake

/-!
# Cut and put together

A delivery that one session cuts into transfers is put together again by another one, from the
octets of the frames.  This works for every message, and whatever the sizes are, unless the tag of
the delivery is still in use on the link.
-/

namespace MessageBroker

/-- The octets of the frames of transfers on a channel. -/
def Parcel.octets (channel : UInt16) (parcels : List Parcel) : Bytes :=
  (parcels.map fun parcel => Emission.frame channel parcel.outgoing).flatMap Emission.octets

/-- The frames of a delivery that is cut are read as they were. -/
theorem Parcel.Cut.decodeFrames {maxFrameSize handle id : UInt32} {settled : Bool}
    {payload : Bytes} {parcels : List Parcel}
    (cut : Parcel.Cut maxFrameSize handle id settled payload parcels) (channel : UInt16) :
  (decodeFrames (Parcel.octets channel parcels)).1 = parcels.map (Parcel.decoded channel)
  := by
  rw [Parcel.octets, decodeFrames_flatMap]
  · dsimp only
    rw [List.filterMap_map, ← List.filterMap_eq_map]
    rfl
  · intro emission hmem
    obtain ⟨parcel, -, rfl⟩ := List.mem_map.mp hmem
    simp
  · intro emission hmem
    obtain ⟨parcel, there, rfl⟩ := List.mem_map.mp hmem
    apply (cut.within parcel there channel).trans_lt
    apply maxFrameSize.toNat_lt

namespace World

open Session

variable {world : World} {member : Member}

/-- A session has a link that is free for a delivery to a queue. -/
structure Receiver (world : World) (member : Member) (handle : UInt32) (endpoint : Endpoint)
    (queue : QueueId) : Prop where
  /-- The world comes about. -/
  reachable : world.Reachable
  /-- The session is in it. -/
  there : member ∈ world.members
  /-- The link has the handle. -/
  attached : member.session.endpoints.get? handle = some endpoint
  /-- The link is free. -/
  free : endpoint.Free queue

/-- A session puts a delivery together from the octets of its frames: they build one delivery, with
the number, the tag and the message that were sent.  If the message is to be put into its queue at
once, it is put there. -/
def PutsTogether (queue : QueueId) (id : UInt32) (settled : Bool) (payload octets : Bytes)
    (s : Serving) : Prop :=
  ∃ assembly s', s.receive (decodeFrames octets).1 = ([assembly], s')
    ∧ assembly.id = id ∧ assembly.tag = bigEndian 4 id.toNat ∧ assembly.settled = settled
    ∧ assembly.payload = payload
    ∧ (s.session.limits.Deposits payload none → s'.store = (s.store.enqueue queue payload).2)

theorem not_putsTogether_of_nil {queue : QueueId} {id : UInt32} {settled : Bool}
    {payload octets : Bytes} {s : Serving} (nothing : (s.receive (decodeFrames octets).1).1 = []) :
  ¬ PutsTogether queue id settled payload octets s
  := by
  rintro ⟨assembly, s', built, -⟩
  rw [built] at nothing
  contradiction

/-- The pieces of a delivery are put together on a link that is free, if the session accepts
transfers at all and the tag of the delivery is not in use. -/
theorem Receiver.putsTogether {handle id maxFrameSize : UInt32} {endpoint : Endpoint}
    {queue : QueueId} {settled : Bool} {payload : Bytes} {pieces : List Bytes}
    (receiver : world.Receiver member handle endpoint queue)
    (accepts : member.session.limits.incomingWindow ≠ 0)
    (fresh : settled = false → endpoint.link.unsettled.hasTag (bigEndian 4 id.toNat) = false)
    (nonempty : pieces ≠ [])
    (cut : Parcel.Cut maxFrameSize handle id settled payload
      ((Transfer.opening handle id settled).parcels pieces)) (channel : UInt16) :
  PutsTogether queue id settled payload
    (Parcel.octets channel ((Transfer.opening handle id settled).parcels pieces))
    ⟨member.session, world.store⟩
  := by
  have window := (receiver.reachable.housed member receiver.there).window accepts
  generalize hs : (⟨member.session, world.store⟩ : Serving) = s
  have expects : s.Expects queue (.opening handle id settled)
      (.start id (bigEndian 4 id.toNat) settled endpoint.link.rcvSettleMode none) := by
    rw [← hs]
    apply receiver.free.expects window accepts receiver.attached id fresh
  obtain ⟨built, stored⟩ := Serving.receive_parcels nonempty expects channel
  obtain ⟨hid, htag, hsettled, hstate⟩ := Assembly.push_pieces
    (.start id (bigEndian 4 id.toNat) settled endpoint.link.rcvSettleMode none) pieces
  have hpayload := Assembly.payload_push_pieces expects.kept pieces
  have whole := cut.carried
  rw [Transfer.contents_parcels] at whole
  rw [whole] at hpayload
  rw [hpayload, hstate] at stored
  refine ⟨_, _, ?_, hid, htag, hsettled, hpayload, stored⟩
  rw [cut.decodeFrames]
  exact Prod.ext built rfl

/-- What is cut is put together again.  A delivery is sent in frames that follow each other, none
of them larger than the peer accepts.  On a link that is free they build the delivery that was
sent, if the session accepts transfers at all, as it does under every sound configuration, and the
delivery is settled or its tag is not in use. -/
theorem delivery_reassembled {session : Session} (large : 512 ≤ session.limits.maxFrameSize)
    (handle id : UInt32) (settled : Bool) (payload : Bytes) :
  ∃ parcels : List Parcel,
    (session.sendDelivery handle id settled payload).outbox
        = session.flush.outbox ++ parcels.map Parcel.outgoing
      ∧ Parcel.Cut session.limits.maxFrameSize handle id settled payload parcels
      ∧ ∀ (world : World) (member : Member) (endpoint : Endpoint) (queue : QueueId),
          world.Receiver member handle endpoint queue →
          member.session.limits.incomingWindow ≠ 0 →
          (settled = false → endpoint.link.unsettled.hasTag (bigEndian 4 id.toNat) = false) →
          ∀ channel, PutsTogether queue id settled payload (Parcel.octets channel parcels)
            ⟨member.session, world.store⟩
  := by
  have cut := cut_cutDelivery large handle id settled payload
  refine ⟨_, outbox_sendDelivery session handle id settled payload, cut, ?_⟩
  intro world member endpoint queue receiver accepts fresh channel
  apply receiver.putsTogether accepts fresh (slices_ne_nil _ _) cut

/-- A world with a session with limits, on which the peer sends messages to a queue and settles
them after the broker. -/
def receiving (limits : SessionLimits) : World :=
  empty.run [.addQueue "q" .unlimited true,
    .begin ⟨none, 0, 9, 9, none⟩ limits,
    .serve 0 (.handle (.attach ⟨"a", 0, .sender, .mixed, .second, none,
      some (.node ⟨some "q", none, none, none, false, none⟩), some 0, none⟩) [])]

theorem reachable_receiving (limits : SessionLimits) :
  (receiving limits).Reachable
  := ⟨_, rfl⟩

/-- A message is sent in two frames at least, and arrives as one. -/
theorem delivery_reassembled_of_large :
  let limits := BrokerConfig.standard.sessionLimits 512
  let session := ofBegin ⟨none, 0, 9, 9, none⟩ limits
  let payload : Bytes := [0x00, 0x53, 0x75, 0xb0, 0, 0, 0x02, 0x58] ++ List.replicate 600 7
  ∃ (parcels : List Parcel) (member : Member), 2 ≤ parcels.length
    ∧ (session.sendDelivery 0 0 false payload).outbox = parcels.map Parcel.outgoing
    ∧ (receiving limits).members[0]? = some member
    ∧ PutsTogether 0 0 false payload (Parcel.octets 3 parcels)
        ⟨member.session, (receiving limits).store⟩
  := by
  intro limits session payload
  have large : 512 ≤ session.limits.maxFrameSize := by decide
  obtain ⟨parcels, sent, cut, arrives⟩ := delivery_reassembled large 0 0 false payload
  have receiver : (receiving limits).Receiver _ 0 _ 0 :=
    ⟨reachable_receiving limits, List.mem_of_getElem? (i := 0) rfl, rfl,
      ⟨rfl, rfl, rfl, rfl, rfl⟩⟩
  refine ⟨parcels, _, ?_, sent, rfl, arrives _ _ _ _ receiver (by decide) (fun _ => rfl) 3⟩
  rcases parcels with _ | ⟨parcel, _ | ⟨next, others⟩⟩
  · exact absurd rfl cut.nonempty
  · -- One frame would be too small for the message.
    have carried : parcel.2 = payload := by
      rw [← cut.carried]
      simp [Parcel.contents]
    have within := cut.within parcel List.mem_cons_self 3
    rw [parcel.length_octets, carried] at within
    have length : payload.length = 608 := by
      rw [List.length_append, List.length_replicate]
      rfl
    have size : session.limits.maxFrameSize.toNat = 512 := rfl
    omega
  · simp

/-- The first session of a world builds nothing from frames, though its link with handle zero is free
for a delivery to the first queue. -/
theorem exists_receiver_of_nil {frames : List DecodedFrame} {octets payload : Bytes} {id : UInt32}
    {settled : Bool} (reachable : world.Reachable)
    (linked : (world.members[0]?.bind (·.session.endpoints.get? 0)).map
      (fun endpoint => (endpoint.kind, endpoint.link.isAttached, endpoint.assembly,
        endpoint.link.credit.maySend, endpoint.link.maxMessageSize))
          = some (.receiving 0, true, none, true, 0))
    (read : (decodeFrames octets).1 = frames)
    (nothing : world.members[0]?.map
      (fun member => (Serving.receive ⟨member.session, world.store⟩ frames).1) = some []) :
  ∃ member endpoint, world.Receiver member 0 endpoint 0
    ∧ ¬ PutsTogether 0 id settled payload octets ⟨member.session, world.store⟩
  := by
  obtain ⟨endpoint, found, fields⟩ := Option.map_eq_some_iff.mp linked
  obtain ⟨member, hmember, hendpoint⟩ := Option.bind_eq_some_iff.mp found
  simp only [Prod.mk.injEq] at fields
  obtain ⟨kind, attached, idle, credit, unlimited⟩ := fields
  have receiver : world.Receiver member 0 endpoint 0 :=
    ⟨reachable, List.mem_of_getElem? hmember, hendpoint, kind, attached, idle, credit, unlimited⟩
  refine ⟨member, endpoint, receiver, not_putsTogether_of_nil ?_⟩
  rw [hmember] at nothing
  rw [read]
  exact Option.some.inj nothing

/-- Nothing is built on a free link while another delivery that is not settled has the tag, which is
refused then, or if the session accepts no transfers. -/
theorem nothing_built :
  let limits := BrokerConfig.standard.sessionLimits 512
  let session := ofBegin ⟨none, 0, 9, 9, none⟩ limits
  let payload : Bytes := [0x00, 0x53, 0x77, 0x40]
  let before : Transfer :=
    { Transfer.opening 0 7 false with deliveryTag := some [0, 0, 0, 0], more := false }
  let tagged := (receiving limits).run [.serve 0 (.handle (.transfer before) payload)]
  let shut := receiving { limits with incomingWindow := 0 }
  ∃ parcels : List Parcel,
    (session.sendDelivery 0 0 false payload).outbox = parcels.map Parcel.outgoing
      ∧ (∃ member endpoint, tagged.Receiver member 0 endpoint 0
        ∧ ¬ PutsTogether 0 0 false payload (Parcel.octets 3 parcels) ⟨member.session, tagged.store⟩)
      ∧ ∃ member endpoint, shut.Receiver member 0 endpoint 0
        ∧ ¬ PutsTogether 0 0 false payload (Parcel.octets 3 parcels) ⟨member.session, shut.store⟩
  := by
  intro limits session payload before tagged shut
  have large : 512 ≤ session.limits.maxFrameSize := by decide
  have cut := cut_cutDelivery large 0 0 false payload
  have read : (decodeFrames (Parcel.octets 3 (cutDelivery session.limits.maxFrameSize 0 0 false
      payload))).1
        = [Parcel.decoded 3 ({ Transfer.opening 0 0 false with more := false }, payload)] := by
    rw [cut.decodeFrames, cutDelivery, slices, if_pos (.inr (by decide))]
    rfl
  refine ⟨_, outbox_sendDelivery session 0 0 false payload, ?_, ?_⟩
  · apply exists_receiver_of_nil _ _ read
    · decide +kernel
    · exact (reachable_receiving limits).run [_]
    · decide +kernel
  · apply exists_receiver_of_nil _ _ read
    · decide +kernel
    · apply reachable_receiving
    · decide +kernel

end World

end MessageBroker
