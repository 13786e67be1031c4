import MessageBroker.Connection.Basic
import MessageBroker.Proofs.Frame.RoundTrip
import MessageBroker.Proofs.Session.Gathering
import MessageBroker.Proofs.Session.Windows

/-!
# Deliveries that are cut into transfers

A delivery is sent in transfers that follow each other, each of a size that the peer accepts.  How
much a transfer can carry is reckoned from the first one, which is the largest.  The first transfer
alone has the number and the tag of the delivery, and the last alone tells that there are no more.
-/

namespace MessageBroker

/-! ### Sizes of frames -/

/-- The number of octets of the frame in which something is sent. -/
def Outgoing.size (output : Outgoing) : Nat :=
  output.performative.frameSize + (output.payload.getD []).length

theorem Emission.length_octets (channel : UInt16) (content : Outgoing) :
  (Emission.frame channel content).octets.length = content.size
  := by
  rw [octets, encodeFrame, Frame.flatten_parts, Frame.length_wire, Outgoing.size,
    Performative.frameSize, Nat.add_assoc]
  congr 1
  cases content.payload <;> simp

/-! ### Sizes of transfers -/

theorem Value.length_encode_uint (n : UInt32) :
  (Value.uint n).encode.length ≤ 5
  := by
  rw [Value.encode]
  split
  · simp
  · split
    · simp
    · simp

namespace Transfer

variable {handle id : UInt32} {settled more : Bool}

/-- The size of a transfer whose fields after the handle are few and small. -/
theorem frameSize_of_toValue (transfer : Transfer) (handle : UInt32) (others : List Value)
    {size : Nat}
    (h : transfer.toValue = .describedBy Descriptor.transferCode (.list (.uint handle :: others)))
    (hsize : (Value.encodeAll others).length = size) (short : size < 250)
    (few : others.length < 255) :
  (Performative.transfer transfer).frameSize = 14 + (Value.uint handle).encode.length + size
  := by
  have small := Value.length_encode_uint handle
  have code : (Value.encodeDescriptor (.code Descriptor.transferCode)).length = 2 := rfl
  generalize hmembers : (Value.uint handle).encode ++ Value.encodeAll others = members
  have length : members.length = (Value.uint handle).encode.length + size := by
    rw [← hmembers, List.length_append, hsize]
  have octets : (Performative.transfer transfer).encode
      = Constructor.describedMark :: (Value.encodeDescriptor (.code Descriptor.transferCode)
        ++ Constructor.list8.code :: (bigEndian 1 (members.length + 1)
          ++ bigEndian 1 (others.length + 1) ++ members)) := by
    rw [Performative.encode, Performative.toValue, h, Value.describedBy, Value.encode, Value.encode,
      hmembers, Value.encodeCompound, if_pos ⟨by omega, few⟩]
  rw [Performative.frameSize, octets, FrameHeader.length, List.length_cons, List.length_append, code]
  simp only [List.length_cons, List.length_append, length_bigEndian]
  omega

/-- The first transfer of a delivery, of which there are more. -/
theorem frameSize_opening (handle id : UInt32) (settled : Bool) :
  (Performative.transfer (opening handle id settled)).frameSize
    = 23 + (Value.uint handle).encode.length + (Value.uint id).encode.length
  := by
  have small := Value.length_encode_uint id
  have size : (Value.encodeAll [.uint id, .binary (bigEndian 4 id.toNat), .uint 0, .bool settled,
      .bool true]).length = (Value.uint id).encode.length + 9 := by
    rw [Value.encodeAll, List.length_append]
    rfl
  have whole := frameSize_of_toValue (opening handle id settled) handle _ rfl size (by omega)
    (by simp)
  omega

/-- The only transfer of a delivery. -/
theorem frameSize_opening_last (handle id : UInt32) (settled : Bool) :
  (Performative.transfer { opening handle id settled with more := false }).frameSize
    = 22 + (Value.uint handle).encode.length + (Value.uint id).encode.length
  := by
  have small := Value.length_encode_uint id
  have size : (Value.encodeAll [.uint id, .binary (bigEndian 4 id.toNat), .uint 0,
      .bool settled]).length = (Value.uint id).encode.length + 8 := by
    rw [Value.encodeAll, List.length_append]
    rfl
  have whole := frameSize_of_toValue { opening handle id settled with more := false } handle _ rfl
    size (by omega) (by simp)
  omega

/-- A further transfer of a delivery, of which there are more. -/
theorem frameSize_continuation (handle : UInt32) :
  (Performative.transfer (continuation handle)).frameSize
    = 19 + (Value.uint handle).encode.length
  := by
  have size : (Value.encodeAll [.null, .null, .null, .null, .bool true]).length = 5 := rfl
  have whole := frameSize_of_toValue (continuation handle) handle _ rfl size (by decide) (by simp)
  omega

/-- The last transfer of several. -/
theorem frameSize_continuation_last (handle : UInt32) :
  (Performative.transfer { continuation handle with more := false }).frameSize
    = 14 + (Value.uint handle).encode.length
  := frameSize_of_toValue _ handle [] rfl rfl (by decide) (by decide)

/-- The first transfer of a delivery is the largest one, and is not large. -/
theorem frameSize_opening_le (handle id : UInt32) (settled : Bool) :
  (Performative.transfer (opening handle id settled)).frameSize ≤ 33
  := by
  have hhandle := Value.length_encode_uint handle
  have hid := Value.length_encode_uint id
  rw [frameSize_opening]
  omega

theorem frameSize_le_opening (handle id : UInt32) (settled more : Bool) :
  (Performative.transfer { opening handle id settled with more }).frameSize
    ≤ (Performative.transfer (opening handle id settled)).frameSize
  := by
  cases more with
  | true => apply Nat.le_refl
  | false =>
      rw [frameSize_opening, frameSize_opening_last]
      omega

theorem frameSize_le_continuation (handle id : UInt32) (settled more : Bool) :
  (Performative.transfer { continuation handle with more }).frameSize
    ≤ (Performative.transfer (opening handle id settled)).frameSize
  := by
  rw [frameSize_opening]
  cases more with
  | true =>
      have whole := frameSize_continuation handle
      change (Performative.transfer (continuation handle)).frameSize ≤ _
      omega
  | false =>
      rw [frameSize_continuation_last]
      omega

end Transfer

/-! ### Pieces of a delivery -/

theorem length_of_mem_slices {size : Nat} (positive : 0 < size) {bytes piece : Bytes}
    (hmem : piece ∈ slices size bytes) :
  piece.length ≤ size
  := by
  fun_induction slices size bytes with
  | case1 bytes whole =>
      rw [List.mem_singleton.mp hmem]
      rcases whole with rfl | whole
      · contradiction
      · rwa [List.isEmpty_iff, List.drop_eq_nil_iff] at whole
  | case2 bytes _ ih =>
      rcases List.mem_cons.mp hmem with rfl | hlater
      · apply List.length_take_le
      · apply ih hlater

/-- A parcel as it is sent. -/
def Parcel.outgoing (parcel : Parcel) : Outgoing :=
  ⟨.transfer parcel.1, some parcel.2⟩

namespace Transfer

/-- The transfers of a delivery in pieces, of which the first is given, each with its piece. -/
def parcels (transfer : Transfer) (pieces : List Bytes) : List Parcel :=
  (transfer.frames pieces).zip pieces

theorem parcels_singleton (transfer : Transfer) (piece : Bytes) :
  transfer.parcels [piece] = [({ transfer with more := false }, piece)]
  := rfl

theorem parcels_cons_cons (transfer : Transfer) (piece next : Bytes) (others : List Bytes) :
  transfer.parcels (piece :: next :: others)
    = ({ transfer with more := true }, piece)
      :: (continuation transfer.handle).parcels (next :: others)
  := rfl

/-- What the transfers of a delivery carry is the delivery. -/
theorem contents_parcels (transfer : Transfer) (pieces : List Bytes) :
  Parcel.contents (transfer.parcels pieces) = pieces.flatten
  := by
  rw [Parcel.contents, parcels, List.map_snd_zip]
  rw [length_frames]

theorem parcels_ne_nil (transfer : Transfer) {pieces : List Bytes} (h : pieces ≠ []) :
  transfer.parcels pieces ≠ []
  := by
  intro none
  apply h
  have length := congrArg List.length none
  rw [parcels, List.length_zip, length_frames, Nat.min_self] at length
  apply List.eq_nil_of_length_eq_zero length

/-- Every transfer of a delivery is the first one or goes on with it. -/
theorem mem_parcels {transfer : Transfer} {pieces : List Bytes} {parcel : Parcel}
    (hmem : parcel ∈ transfer.parcels pieces) :
  parcel.2 ∈ pieces ∧ ∃ more, parcel.1 = { transfer with more }
    ∨ parcel.1 = { continuation transfer.handle with more }
  := by
  induction pieces generalizing transfer with
  | nil => contradiction
  | cons piece pieces ih =>
      cases pieces with
      | nil =>
          rw [parcels_singleton, List.mem_singleton] at hmem
          rw [hmem]
          exact ⟨List.mem_cons_self, false, .inl rfl⟩
      | cons next others =>
          rw [parcels_cons_cons] at hmem
          rcases List.mem_cons.mp hmem with rfl | hlater
          · exact ⟨List.mem_cons_self, true, .inl rfl⟩
          · obtain ⟨hpiece, more, hgoes⟩ := ih hlater
            refine ⟨List.mem_cons_of_mem _ hpiece, more, .inr ?_⟩
            rcases hgoes with hgoes | hgoes
            · exact hgoes
            · exact hgoes

/-- Only the last transfer of a delivery tells that there are no more. -/
theorem more_of_mem_dropLast {transfer : Transfer} {pieces : List Bytes} {parcel : Parcel}
    (hmem : parcel ∈ (transfer.parcels pieces).dropLast) :
  parcel.1.more = true
  := by
  induction pieces generalizing transfer with
  | nil => contradiction
  | cons piece pieces ih =>
      cases pieces with
      | nil => contradiction
      | cons next others =>
          rw [parcels_cons_cons, List.dropLast_cons_of_ne_nil (parcels_ne_nil _ (by simp))] at hmem
          rcases List.mem_cons.mp hmem with rfl | hlater
          · rfl
          · apply ih hlater

theorem more_of_mem_getLast? {transfer : Transfer} {pieces : List Bytes} {parcel : Parcel}
    (hmem : parcel ∈ (transfer.parcels pieces).getLast?) :
  parcel.1.more = false
  := by
  induction pieces generalizing transfer with
  | nil => contradiction
  | cons piece pieces ih =>
      cases pieces with
      | nil =>
          cases hmem
          rfl
      | cons next others =>
          rw [parcels_cons_cons, List.getLast?_cons_of_ne_nil (parcels_ne_nil _ (by simp))] at hmem
          apply ih hmem

/-- The transfers after the first one of a delivery go on with it. -/
theorem mem_tail_parcels {transfer : Transfer} {pieces : List Bytes} {parcel : Parcel}
    (hmem : parcel ∈ (transfer.parcels pieces).tail) :
  ∃ more, parcel.1 = { continuation transfer.handle with more }
  := by
  rcases pieces with _ | ⟨piece, _ | ⟨next, others⟩⟩
  · contradiction
  · contradiction
  · obtain ⟨-, more, hgoes | hgoes⟩ := mem_parcels hmem
    · exact ⟨more, hgoes⟩
    · exact ⟨more, hgoes⟩

end Transfer

/-! ### Deliveries that are cut -/

/-- Transfers with what they carry are a delivery that is cut into frames of a size. -/
structure Parcel.Cut (maxFrameSize handle id : UInt32) (settled : Bool) (payload : Bytes)
    (parcels : List Parcel) : Prop where
  /-- There is at least one transfer. -/
  nonempty : parcels ≠ []
  /-- All transfers are sent on the link. -/
  onLink : ∀ parcel ∈ parcels, parcel.1.handle = handle
  /-- No frame is larger than the peer accepts. -/
  within : ∀ parcel ∈ parcels, ∀ channel,
    (Emission.frame channel parcel.outgoing).octets.length ≤ maxFrameSize.toNat
  /-- The first transfer has the number and the tag of the delivery, and tells if it is settled. -/
  first : ∀ parcel ∈ parcels.head?, parcel.1.deliveryId = some id
    ∧ parcel.1.deliveryTag = some (bigEndian 4 id.toNat) ∧ parcel.1.settled = some settled
  /-- The others have neither. -/
  others : ∀ parcel ∈ parcels.tail, parcel.1.deliveryId = none ∧ parcel.1.deliveryTag = none
  /-- All but the last one tell that there are more. -/
  more : ∀ parcel ∈ parcels.dropLast, parcel.1.more = true
  /-- The last one tells that there are no more. -/
  last : ∀ parcel ∈ parcels.getLast?, parcel.1.more = false
  /-- What they carry is the delivery. -/
  carried : Parcel.contents parcels = payload

theorem Parcel.length_octets (channel : UInt16) (parcel : Parcel) :
  (Emission.frame channel parcel.outgoing).octets.length
    = (Performative.transfer parcel.1).frameSize + parcel.2.length
  := Emission.length_octets channel parcel.outgoing

namespace Session

/-- The transfers in which a delivery is sent. -/
def cutDelivery (maxFrameSize handle id : UInt32) (settled : Bool) (payload : Bytes) :
    List Parcel :=
  let opening := Transfer.opening handle id settled
  opening.parcels (slices (chunkSize maxFrameSize opening) payload)

/-- The transfers of a delivery are sent on its link. -/
theorem handle_of_mem_cutDelivery {maxFrameSize handle id : UInt32} {settled : Bool}
    {payload : Bytes} {parcel : Parcel}
    (hmem : parcel ∈ cutDelivery maxFrameSize handle id settled payload) :
  parcel.1.handle = handle
  := by
  obtain ⟨-, more, hgoes | hgoes⟩ := Transfer.mem_parcels hmem
  · rw [hgoes]
    rfl
  · rw [hgoes]
    rfl

theorem cut_cutDelivery {maxFrameSize : UInt32} (large : 512 ≤ maxFrameSize)
    (handle id : UInt32) (settled : Bool) (payload : Bytes) :
  Parcel.Cut maxFrameSize handle id settled payload
    (cutDelivery maxFrameSize handle id settled payload)
  := by
  have room : 512 ≤ maxFrameSize.toNat := UInt32.le_iff_toNat_le.mp large
  have opening_le := Transfer.frameSize_opening_le handle id settled
  have chunk : chunkSize maxFrameSize (.opening handle id settled)
      + (Performative.transfer (.opening handle id settled)).frameSize = maxFrameSize.toNat := by
    rw [chunkSize]
    omega
  constructor
  case nonempty => apply Transfer.parcels_ne_nil _ (slices_ne_nil _ _)
  case onLink =>
    intro parcel hmem
    apply handle_of_mem_cutDelivery hmem
  case within =>
    intro parcel hmem channel
    obtain ⟨hpiece, more, hgoes⟩ := Transfer.mem_parcels hmem
    have short := length_of_mem_slices (by omega) hpiece
    have small : (Performative.transfer parcel.1).frameSize
        ≤ (Performative.transfer (.opening handle id settled)).frameSize := by
      rcases hgoes with hgoes | hgoes
      · rw [hgoes]
        apply Transfer.frameSize_le_opening
      · rw [hgoes]
        apply Transfer.frameSize_le_continuation
    rw [parcel.length_octets]
    omega
  case first =>
    intro parcel hmem
    rw [cutDelivery] at hmem
    generalize slices _ payload = pieces at hmem
    rcases pieces with _ | ⟨piece, _ | ⟨next, others⟩⟩
    · contradiction
    · cases hmem
      exact ⟨rfl, rfl, rfl⟩
    · cases hmem
      exact ⟨rfl, rfl, rfl⟩
  case others =>
    intro parcel hmem
    obtain ⟨more, hgoes⟩ := Transfer.mem_tail_parcels hmem
    rw [hgoes]
    exact ⟨rfl, rfl⟩
  case more => apply Transfer.more_of_mem_dropLast
  case last => apply Transfer.more_of_mem_getLast?
  case carried =>
    rw [cutDelivery, Transfer.contents_parcels]
    apply flatten_slices

theorem outbox_flush_sendTransfer (session : Session) (transfer : Transfer) (payload : Bytes) :
  (session.sendTransfer transfer payload).flush.outbox
    = session.flush.outbox ++ [Parcel.outgoing (transfer, payload)]
  := List.append_nil _

/-- The transfers of a delivery follow each other. -/
theorem outbox_sendPieces (session : Session) (transfer : Transfer) {pieces : List Bytes}
    (some : pieces ≠ []) :
  (session.sendPieces transfer pieces).outbox
    = session.flush.outbox ++ (transfer.parcels pieces).map Parcel.outgoing
  := by
  induction pieces generalizing session transfer with
  | nil => contradiction
  | cons piece pieces ih =>
      cases pieces with
      | nil => rfl
      | cons next others =>
          rw [sendPieces_cons_cons, ih _ _ (by simp), outbox_flush_sendTransfer,
            Transfer.parcels_cons_cons, List.map_cons, List.append_assoc]
          rfl

theorem outbox_sendDelivery (session : Session) (handle id : UInt32) (settled : Bool)
    (payload : Bytes) :
  (session.sendDelivery handle id settled payload).outbox = session.flush.outbox
    ++ (cutDelivery session.limits.maxFrameSize handle id settled payload).map Parcel.outgoing
  := outbox_sendPieces session _ (slices_ne_nil _ _)

end Session

end MessageBroker
