import MessageBroker.Frame.Codec
import MessageBroker.Proofs.Performative.Normal
import MessageBroker.Proofs.Performative.RoundTrip
import MessageBroker.Proofs.Value.RoundTrip

/-!
# Reading frames back

A frame of a performative and its payload is read back as they were, whatever follows it, as long
as its size fits in the header.
-/

namespace MessageBroker

/-! ### Composites -/

/-- What a catalogue reads back from a value in normal form, it reads back from the octets of
the value. -/
theorem Catalogue.decode_encode {α : Type} {catalogue : Catalogue α} {value : Value} {a : α}
    (back : catalogue.ofValue value.normal = .ok a) (bounded : value.encode.length < 2 ^ 32)
    (rest : Bytes) :
  catalogue.decode (value.encode ++ rest) = .ok (a, value.encode.length)
  := by
  have taken := Value.decode_append (Value.fits_of_length_lt value bounded) rest
  simp only [Catalogue.decode, taken, Fields.ok_bind, back]
  rfl

theorem Performative.decode_encode (p : Performative) (bounded : p.encode.length < 2 ^ 32)
    (rest : Bytes) :
  catalogue.decode (p.encode ++ rest) = .ok (p.normal, p.encode.length)
  := by
  apply Catalogue.decode_encode _ bounded
  rw [normal_toValue, ofValue_toValue]

/-! ### Headers -/

namespace FrameHeader

theorem decode?_encode (header : FrameHeader) (rest : Bytes) :
  decode? (header.encode ++ rest) = some header
  := by
  obtain ⟨a, b, c, d, ofSize⟩ : ∃ a b c d, bigEndian 4 header.size.toNat = [a, b, c, d] :=
    ⟨_, _, _, _, rfl⟩
  obtain ⟨e, f, ofChannel⟩ : ∃ e f, bigEndian 2 header.channel.toNat = [e, f] := ⟨_, _, rfl⟩
  have size : UInt32.ofNat (ofBigEndian [a, b, c, d]) = header.size := by
    rw [← ofSize, ofBigEndian_bigEndian, Nat.pow_eq, Nat.mod_eq_of_lt header.size.toNat_lt,
      UInt32.ofNat_toNat]
  have channel : UInt16.ofNat (ofBigEndian [e, f]) = header.channel := by
    rw [← ofChannel, ofBigEndian_bigEndian, Nat.pow_eq, Nat.mod_eq_of_lt header.channel.toNat_lt,
      UInt16.ofNat_toNat]
  simp [encode, ofSize, ofChannel, decode?, size, channel]

theorem length_encode (header : FrameHeader) :
  header.encode.length = length
  := by
  simp [encode, length]

end FrameHeader

/-! ### Frames -/

theorem Frame.length_wire (channel : UInt16) (body : Bytes) :
  (wire channel body).length = FrameHeader.length + body.length
  := by
  rw [wire, List.length_append, FrameHeader.length_encode]

/-- A frame whose size fits in its header is found in front of any further octets. -/
theorem decodeFrame_wire (channel : UInt16) {body : Bytes} (some_body : body ≠ [])
    (bounded : (Frame.wire channel body).length < 2 ^ 32) (rest : Bytes) {p : Performative}
    {payload : Bytes} (inside : decodeBody body = .ok (p, payload)) :
  decodeFrame (Frame.wire channel body ++ rest) =
    .ok ⟨channel, some p, payload, (Frame.wire channel body).length⟩
  := by
  have size : (FrameHeader.forBody channel body.length).size.toNat =
      (Frame.wire channel body).length := by
    rw [Frame.length_wire] at bounded ⊢
    exact UInt32.toNat_ofNat_of_lt bounded
  have header : FrameHeader.decode? (Frame.wire channel body ++ rest) =
      some (FrameHeader.forBody channel body.length) := by
    rw [Frame.wire, List.append_assoc, FrameHeader.decode?_encode]
  have octets : (Frame.wire channel body ++ rest).take (Frame.wire channel body).length =
      Frame.wire channel body := List.take_left
  have offset : (FrameHeader.forBody channel body.length).bodyOffset = FrameHeader.length := rfl
  have whole : (Frame.wire channel body).drop FrameHeader.length = body := by
    rw [Frame.wire, ← FrameHeader.length_encode (FrameHeader.forBody channel body.length),
      List.drop_left]
  have sound : ¬ ((FrameHeader.forBody channel body.length).dataOffset <
      FrameHeader.leastDataOffset ∨ (Frame.wire channel body).length < FrameHeader.length) := by
    rw [Frame.length_wire]
    simp [FrameHeader.forBody]
  have filled : body.isEmpty = false := by simpa using some_body
  simp only [decodeFrame, header, size, offset, octets, whole, filled, inside]
  rw [if_neg sound, if_neg (Nat.lt_irrefl _)]
  rfl

/-- A performative and its payload are read back from their frame, the filter of a source in
normal form. -/
theorem decodeFrame_encodeFrame (channel : UInt16) (p : Performative) (payload : Option Bytes)
    (rest : Bytes) (bounded : (encodeFrame channel p payload).flatten.length < 2 ^ 32) :
  decodeFrame ((encodeFrame channel p payload).flatten ++ rest) =
    .ok ⟨channel, some p.normal, payload.getD [], (encodeFrame channel p payload).flatten.length⟩
  := by
  have body : (p.encode :: payload.toList).flatten = p.encode ++ payload.getD [] := by
    cases payload <;> simp
  rw [encodeFrame, Frame.flatten_parts, body] at bounded ⊢
  have shorter : p.encode.length < 2 ^ 32 := by
    rw [Frame.length_wire, List.length_append] at bounded
    omega
  have inside : decodeBody (p.encode ++ payload.getD []) = .ok (p.normal, payload.getD []) := by
    rw [decodeBody, p.decode_encode shorter]
    simp
  apply decodeFrame_wire channel _ bounded rest inside
  intro nothing
  have some_octet : 0 < p.encode.length := Value.length_encode_pos p.toValue
  rw [(List.append_eq_nil_iff.mp nothing).1] at some_octet
  cases some_octet

/-- The control of a transaction is read back from its octets, its global identity in normal
form. -/
theorem TransactionControl.decode_encode (control : TransactionControl)
    (there : ∀ globalId ∈ control.globalId?, globalId.isNull = false)
    (bounded : control.toValue.encode.length < 2 ^ 32) (rest : Bytes) :
  catalogue.decode (control.toValue.encode ++ rest) =
    .ok (control.normal, control.toValue.encode.length)
  := by
  apply Catalogue.decode_encode _ bounded
  rw [normal_toValue]
  apply ofValue_toValue
  intro globalId h
  cases control with
  | declare found =>
    obtain ⟨value, hvalue, rfl⟩ := Option.map_eq_some_iff.mp h
    rw [Value.isNull_normal]
    exact there value hvalue
  | discharge => cases h

/-- Every performative is read back from its frame with its channel, its payload and the size of
the frame, whatever follows; and every control of a transaction is read back from its octets.
What they hold of values of any kind has to be uniform, for an array that is written as a list is
read as one. -/
theorem performatives_and_controls_read_back :
  (∀ (channel : UInt16) (p : Performative) (payload : Option Bytes) (rest : Bytes),
    (∀ filter ∈ p.filter?, filter.Uniform) →
    (encodeFrame channel p payload).flatten.length < 2 ^ 32 →
    decodeFrame ((encodeFrame channel p payload).flatten ++ rest) =
      .ok ⟨channel, some p, payload.getD [], (encodeFrame channel p payload).flatten.length⟩) ∧
  (∀ (control : TransactionControl) (rest : Bytes),
    (∀ globalId ∈ control.globalId?, globalId.isNull = false ∧ globalId.Uniform) →
    control.toValue.encode.length < 2 ^ 32 →
    TransactionControl.catalogue.decode (control.toValue.encode ++ rest) =
      .ok (control, control.toValue.encode.length))
  := by
  constructor
  · intro channel p payload rest uniform bounded
    rw [decodeFrame_encodeFrame channel p payload rest bounded, p.normal_of_uniform uniform]
  · intro control rest sound bounded
    have there (globalId : Value) (h : globalId ∈ control.globalId?) := (sound globalId h).1
    have uniform (globalId : Value) (h : globalId ∈ control.globalId?) := (sound globalId h).2
    rw [control.decode_encode there bounded rest, control.normal_of_uniform uniform]

/-- A link from a queue through a filter that lists two names, and a transaction with a global
identity. -/
theorem performatives_and_controls_read_back_of_filtered :
  let filter : Value := .map [(.symbol ⟨"names"⟩, .array [.string "a", .string "b"])]
  let source : Source :=
    { address := some "orders", durable := none, expiryPolicy := none, timeout := some 30,
      dynamic := true, distributionMode := none, filter,
      defaultOutcome := some (.provisional [1] (.rejected (some ⟨⟨"full"⟩, none⟩))),
      outcomes := some [⟨"amqp:accepted:list"⟩], capabilities := none }
  let p : Performative :=
    .attach
      { name := "link", handle := 0, role := .receiver, sndSettleMode := .mixed,
        rcvSettleMode := .second, source := some source, target := some (.coordinator none),
        initialDeliveryCount := none, maxMessageSize := some 1000 }
  let control : TransactionControl := .declare (some (.uint 7))
  decodeFrame ((encodeFrame 3 p (some [5])).flatten ++ [1, 2]) =
      .ok ⟨3, some p, [5], (encodeFrame 3 p (some [5])).flatten.length⟩ ∧
    TransactionControl.catalogue.decode (control.toValue.encode ++ [1, 2]) =
      .ok (control, control.toValue.encode.length)
  := by
  intro filter source p control
  constructor
  · apply performatives_and_controls_read_back.1 3 p (some [5]) [1, 2]
    · intro found h
      obtain rfl : filter = found := Option.some.inj h
      exact ⟨trivial, by simp [Value.Uniform, Value.commonConstructor?, Value.memberConstructor?],
        trivial⟩
    · decide +kernel
  · apply performatives_and_controls_read_back.2 control [1, 2]
    · intro found h
      obtain rfl : Value.uint 7 = found := Option.some.inj h
      exact ⟨rfl, trivial⟩
    · decide +kernel

end MessageBroker
