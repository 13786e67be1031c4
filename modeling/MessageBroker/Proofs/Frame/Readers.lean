import MessageBroker.Frame.Codec
import MessageBroker.Proofs.Frame.Stream

/-!
# Two readers of frames

Frames can be read from a byte string one after another, each at the place where the one before it
ended, or be given out by a frame buffer into which the byte string is pushed.  Where the buffer
refuses no header, both find the same frames.  The first reader stops at the first frame whose body
cannot be decoded, and otherwise where the buffer is left waiting, and lacks as many octets there.
-/

namespace MessageBroker

/-! ### One frame after another -/

namespace FrameHeader

variable {header : FrameHeader}

/-- A header that is acceptable under any limit places the body inside the frame. -/
theorem placed_of_validate {maxFrameSize : UInt32} (h : header.validate maxFrameSize = .ok ()) :
  ¬ (header.dataOffset < leastDataOffset ∨ header.size.toNat < header.bodyOffset)
  := by
  rintro (hoffset | hsize)
  · rw [validate, if_pos hoffset] at h
    contradiction
  · exact Nat.not_lt_of_le (offset_of_validate h).2 hsize

/-- Where the body is placed inside the frame, the frame holds the header. -/
theorem length_le_of_placed
    (h : ¬ (header.dataOffset < leastDataOffset ∨ header.size.toNat < header.bodyOffset)) :
  length ≤ header.size.toNat
  := by
  rw [not_or, UInt8.not_lt, UInt8.le_iff_toNat_le, Nat.not_lt] at h
  have hleast : leastDataOffset.toNat = 2 := rfl
  have hlength : length = 8 := rfl
  have hplace : header.bodyOffset = header.dataOffset.toNat * 4 := rfl
  omega

end FrameHeader

/-- What is in a frame, or why it cannot be decoded. -/
def Frame.read (frame : Frame) : Except DecodeError DecodedFrame :=
  if frame.isHeartbeat then .ok ⟨frame.header.channel, none, [], frame.header.size.toNat⟩
  else
    (decodeBody frame.body).map fun (p, payload) =>
      ⟨frame.header.channel, some p, payload, frame.header.size.toNat⟩

theorem Frame.size_of_read {frame : Frame} {decoded : DecodedFrame} (h : frame.read = .ok decoded) :
  decoded.size = frame.header.size.toNat
  := by
  rw [read] at h
  split at h
  · cases h
    rfl
  · cases hbody : decodeBody frame.body with
    | error error =>
        rw [hbody] at h
        contradiction
    | ok content =>
        rw [hbody] at h
        cases h
        rfl

section DecodeFrame

variable {octets : Bytes} {header : FrameHeader}

theorem decodeFrame_of_none (h : FrameHeader.decode? octets = none) :
  decodeFrame octets = .error (.insufficientData (FrameHeader.length - octets.length))
  := by
  rw [decodeFrame, h]
  rfl

variable (found : FrameHeader.decode? octets = some header)

include found

theorem decodeFrame_of_displaced
    (h : header.dataOffset < FrameHeader.leastDataOffset
      ∨ header.size.toNat < header.bodyOffset) :
  decodeFrame octets
    = .error (.malformed (.frameHeader header.size.toNat header.dataOffset.toNat))
  := by
  rw [decodeFrame, found]
  dsimp only
  rw [if_pos h]
  rfl

variable (placed : ¬ (header.dataOffset < FrameHeader.leastDataOffset
  ∨ header.size.toNat < header.bodyOffset))

include placed

theorem decodeFrame_of_lt (h : octets.length < header.size.toNat) :
  decodeFrame octets = .error (.insufficientData (header.size.toNat - octets.length))
  := by
  have htake : octets.take header.size.toNat = octets := List.take_of_length_le (Nat.le_of_lt h)
  rw [decodeFrame, found]
  dsimp only
  rw [if_neg placed, htake]
  rw [if_pos h]
  rfl

/-- A frame that is complete is read by what is in it. -/
theorem decodeFrame_of_le (h : header.size.toNat ≤ octets.length) :
  decodeFrame octets
    = Frame.read ⟨header, (octets.take header.size.toNat).drop header.bodyOffset⟩
  := by
  have hlength : (octets.take header.size.toNat).length = header.size.toNat := by
    rw [List.length_take, Nat.min_eq_left h]
  rw [decodeFrame, found]
  dsimp only
  rw [if_neg placed, hlength]
  rw [if_neg (Nat.lt_irrefl _)]
  rw [Frame.read, Frame.isHeartbeat]
  dsimp only
  split
  · rfl
  · cases decodeBody ((octets.take header.size.toNat).drop header.bodyOffset) with
    | error error => rfl
    | ok content => rfl

end DecodeFrame

/-- A frame that is read takes octets, and no more than there are. -/
theorem size_of_decodeFrame {octets : Bytes} {decoded : DecodedFrame}
    (h : decodeFrame octets = .ok decoded) :
  0 < decoded.size ∧ decoded.size ≤ octets.length
  := by
  cases found : FrameHeader.decode? octets with
  | none =>
      rw [decodeFrame_of_none found] at h
      contradiction
  | some header =>
      by_cases placed : header.dataOffset < FrameHeader.leastDataOffset
          ∨ header.size.toNat < header.bodyOffset
      · rw [decodeFrame_of_displaced found placed] at h
        contradiction
      · rcases Nat.lt_or_ge octets.length header.size.toNat with hlt | hle
        · rw [decodeFrame_of_lt found placed hlt] at h
          contradiction
        · rw [decodeFrame_of_le found placed hle] at h
          rw [Frame.size_of_read h]
          have hlength : 0 < FrameHeader.length := by decide
          exact ⟨Nat.lt_of_lt_of_le hlength (FrameHeader.length_le_of_placed placed), hle⟩

/-- The frames of a byte string, read one after another from its front, and why there are no
more. -/
def decodeFrames (octets : Bytes) : List DecodedFrame × DecodeError :=
  match _h : decodeFrame octets with
  | .error error => ([], error)
  | .ok decoded =>
    let (others, error) := decodeFrames (octets.drop decoded.size)
    (decoded :: others, error)
termination_by octets.length
decreasing_by
  have hsize := size_of_decodeFrame _h
  rw [List.length_drop]
  omega

theorem decodeFrames_of_error {octets : Bytes} {error : DecodeError}
    (h : decodeFrame octets = .error error) :
  decodeFrames octets = ([], error)
  := by
  rw [decodeFrames]
  split
  · next heq =>
      rw [h] at heq
      cases heq
      rfl
  · next heq =>
      rw [h] at heq
      contradiction

theorem decodeFrames_of_ok {octets : Bytes} {decoded : DecodedFrame}
    (h : decodeFrame octets = .ok decoded) :
  decodeFrames octets
    = (decoded :: (decodeFrames (octets.drop decoded.size)).1,
      (decodeFrames (octets.drop decoded.size)).2)
  := by
  rw [decodeFrames]
  split
  · next heq =>
      rw [h] at heq
      contradiction
  · next heq =>
      rw [h] at heq
      cases heq
      rfl

/-! ### Frames of a buffer -/

/-- What is in frames, up to the first that cannot be decoded; at the end of them reading stops
with `last`. -/
def Frame.readEach (last : DecodeError) : List Frame → List DecodedFrame × DecodeError
  | [] => ([], last)
  | frame :: frames =>
    match frame.read with
    | .error error => ([], error)
    | .ok decoded => (decoded :: (readEach last frames).1, (readEach last frames).2)

namespace FrameBuffer

variable {maxFrameSize : UInt32} {octets : Bytes} {frame : Frame} {frames : List Frame}
  {buffer : FrameBuffer}

/-- The number of octets that must arrive before a buffer can go on: those of a header, or of the
frame whose header has arrived. -/
def missing (buffer : FrameBuffer) : Nat :=
  match buffer.arriving with
  | none => FrameHeader.length - buffer.octets.length
  | some header => header.size.toNat - FrameHeader.length - buffer.octets.length

/-- A frame that the buffer gives out is read at the front of the octets, and both readers go on at
the same place. -/
theorem decodeFrame_of_frame
    (h : (FrameBuffer.mk none octets maxFrameSize).next = .frame frame buffer) :
  decodeFrame octets = frame.read
    ∧ buffer = ⟨none, octets.drop frame.header.size.toNat, maxFrameSize⟩
  := by
  obtain ⟨header, rest, announces, hsize, rfl, rfl⟩ := next_frame h
  cases announces with
  | before harriving => contradiction
  | now _ found acceptable =>
      dsimp only at found hsize ⊢
      have placed := FrameHeader.placed_of_validate acceptable
      have hfirst := (FrameHeader.offset_of_validate acceptable).1
      have hheader := FrameHeader.length_le_of_decode? found
      have hlength := FrameHeader.length_le_of_placed placed
      rw [List.length_drop] at hsize
      have hall : header.size.toNat ≤ octets.length := by omega
      -- The buffer takes the header off first, and counts the place of the body from there.
      have hbody : ((octets.drop FrameHeader.length).take
            (header.size.toNat - FrameHeader.length)).drop
              (header.bodyOffset - FrameHeader.length)
          = (octets.take header.size.toNat).drop header.bodyOffset := by
        rw [← List.drop_take, List.drop_drop, Nat.add_sub_cancel' hfirst]
      rw [decodeFrame_of_le found placed hall, hbody, List.drop_drop,
        Nat.add_sub_cancel' hlength]
      exact ⟨rfl, rfl⟩

/-- Where the buffer is left waiting, no further frame can be read, for want of as many octets. -/
theorem decodeFrame_of_starved
    (h : (FrameBuffer.mk none octets maxFrameSize).next = .starved buffer) :
  decodeFrame octets = .error (.insufficientData buffer.missing) ∧ 0 < buffer.missing
  := by
  cases found : FrameHeader.decode? octets with
  | none =>
      have hshort : octets.length < FrameHeader.length := by
        by_contra hlong
        obtain ⟨header, found'⟩ := FrameHeader.decode?_of_length_le (Nat.le_of_not_lt hlong)
        rw [found] at found'
        contradiction
      rw [next] at h
      dsimp only at h
      rw [found] at h
      cases h
      exact ⟨decodeFrame_of_none found, Nat.sub_pos_of_lt hshort⟩
  | some header =>
      cases hvalid : header.validate maxFrameSize with
      | error fault =>
          rw [next_of_refused rfl found hvalid] at h
          contradiction
      | ok =>
          have placed := FrameHeader.placed_of_validate hvalid
          have hlength := FrameHeader.length_le_of_placed placed
          have hheader := FrameHeader.length_le_of_decode? found
          rw [(Announces.now rfl found hvalid).next] at h
          by_cases hsize : header.size.toNat - FrameHeader.length
              ≤ (octets.drop FrameHeader.length).length
          · rw [complete_of_le hsize] at h
            contradiction
          · rw [complete_of_lt (Nat.lt_of_not_le hsize)] at h
            cases h
            rw [missing]
            dsimp only
            rw [List.length_drop] at hsize ⊢
            rw [decodeFrame_of_lt found placed (by omega)]
            refine ⟨?_, by omega⟩
            congr 2
            omega

/-- What a buffer gives out is what is read, as far as it can be decoded. -/
theorem decodeFrames_of_gives
    (gives : (FrameBuffer.mk none octets maxFrameSize).Gives frames none buffer) :
  decodeFrames octets = Frame.readEach (.insufficientData buffer.missing) frames
    ∧ 0 < buffer.missing
  := by
  induction frames generalizing octets with
  | nil =>
      cases gives with
      | starved next =>
          obtain ⟨hdecode, hmissing⟩ := decodeFrame_of_starved next
          exact ⟨decodeFrames_of_error hdecode, hmissing⟩
  | cons frame frames ih =>
      cases gives with
      | frame next others =>
          obtain ⟨hdecode, rfl⟩ := decodeFrame_of_frame next
          obtain ⟨hothers, hmissing⟩ := ih others
          refine ⟨?_, hmissing⟩
          rw [Frame.readEach]
          cases hread : frame.read with
          | error error => exact decodeFrames_of_error (hdecode.trans hread)
          | ok decoded =>
              rw [decodeFrames_of_ok (hdecode.trans hread), Frame.size_of_read hread, hothers]

/-- The frames that a fresh buffer gives out of a byte string are those that are read from it one
after another: each with its channel and its size, without a performative exactly if it is a
heartbeat, and otherwise with what its body is decoded as.  Reading stops at the first body that
cannot be decoded, or, after the last frame, for want of the octets that the buffer waits for. -/
theorem decodeFrames_of_push
    (given : (empty maxFrameSize).push octets = (.ok frames, buffer)) :
  decodeFrames octets = Frame.readEach (.insufficientData buffer.missing) frames
    ∧ 0 < buffer.missing
  := by
  have sound := sound_empty maxFrameSize
  obtain ⟨_, ending, _, gives, -⟩ := (sound.append octets).gives
  rw [sound.push_eq gives] at given
  cases ending <;> cases given
  exact decodeFrames_of_gives gives

/-- A heartbeat whose body would be further back than usual, a frame that ends a session, and the
first octets of a header. -/
theorem decodeFrames_of_push_of_extended :
  let octets := [0, 0, 0, 12, 3, 0, 0, 7, 1, 2, 3, 4]
    ++ Frame.wire 7 (Performative.endSession none).encode ++ [0, 0, 0]
  (empty 512).push octets =
      (.ok [⟨⟨12, 3, 0, 7⟩, []⟩, ⟨⟨12, 2, 0, 7⟩, (Performative.endSession none).encode⟩],
        ⟨none, [0, 0, 0], 512⟩)
    ∧ decodeFrames octets
      = ([⟨7, none, [], 12⟩, ⟨7, some (.endSession none), [], 12⟩], .insufficientData 5)
  := by
  intro octets
  have given : (empty 512).push octets =
      (.ok [⟨⟨12, 3, 0, 7⟩, []⟩, ⟨⟨12, 2, 0, 7⟩, (Performative.endSession none).encode⟩],
        ⟨none, [0, 0, 0], 512⟩) := by
    decide +kernel
  refine ⟨given, (decodeFrames_of_push given).1.trans ?_⟩
  rfl

end FrameBuffer

end MessageBroker
