import MessageBroker.Proofs.Frame.Pieces
import Mathlib.Data.List.Forall2

/-!
# Frames before a header that is refused

The octets of frames may be followed by a header that is not acceptable.  When they arrive in
pieces, the pieces before the one that completes this header give out the frames that they
complete; the piece that completes it gives out nothing, not even the frames in front of it.
-/

namespace MessageBroker

/-- Octets are those of an acceptable frame. -/
structure Frame.Wired (maxFrameSize : UInt32) (frame : Frame) (octets : Bytes) : Prop where
  /-- They begin with the header. -/
  header : FrameHeader.decode? octets = some frame.header
  /-- The header is acceptable. -/
  acceptable : frame.header.validate maxFrameSize = .ok ()
  /-- There are as many as the header says. -/
  size : octets.length = frame.header.size.toNat
  /-- The body is where the header says. -/
  body : frame.body = octets.drop frame.header.bodyOffset

theorem FrameHeader.decode?_of_length_le {octets : Bytes} (h : length ≤ octets.length) :
  ∃ header, decode? octets = some header
  := by
  match octets, h with
  | a :: b :: c :: d :: dataOffset :: kind :: e :: f :: _, _ => exact ⟨_, rfl⟩

/-- Every header that is not acceptable is reported in the same way. -/
theorem FrameHeader.error_of_validate {header : FrameHeader} {maxFrameSize : UInt32}
    {fault : Fault} (h : header.validate maxFrameSize = .error fault) :
  ∃ text, fault = .onConnection .framingError text
  := by
  unfold validate at h
  split at h
  · cases h
    exact ⟨_, rfl⟩
  split at h
  · cases h
    exact ⟨_, rfl⟩
  split at h
  · cases h
    exact ⟨_, rfl⟩
  split at h
  · cases h
    exact ⟨_, rfl⟩
  · contradiction

namespace FrameBuffer

variable {maxFrameSize : UInt32} {frames done : List Frame} {wires : List Bytes}
  {bad : Bytes} {header : FrameHeader} {fault : Fault} {buffer buffer' : FrameBuffer}

/-- The octets of a frame give out that frame, whatever follows them. -/
theorem next_wired {frame : Frame} {wire : Bytes} (wired : frame.Wired maxFrameSize wire)
    (rest : Bytes) :
  (FrameBuffer.mk none (wire ++ rest) maxFrameSize).next =
    .frame frame ⟨none, rest, maxFrameSize⟩
  := by
  obtain ⟨hfirst, hoffset⟩ := FrameHeader.offset_of_validate wired.acceptable
  have announces : Announces ⟨none, wire ++ rest, maxFrameSize⟩ frame.header
      ((wire ++ rest).drop FrameHeader.length) :=
    .now rfl (FrameHeader.decode?_append wired.header rest) wired.acceptable
  have hwire : FrameHeader.length ≤ wire.length := FrameHeader.length_le_of_decode? wired.header
  have hall : (wire.drop FrameHeader.length).length =
      frame.header.size.toNat - FrameHeader.length := by
    rw [List.length_drop, wired.size]
  rw [announces.next, List.drop_append_of_le_length hwire, complete_of_le]
  · dsimp only
    rw [← hall, List.take_left, List.drop_left, List.drop_drop,
      Nat.add_sub_cancel' hfirst, ← wired.body]
  · rw [List.length_append, hall]
    apply Nat.le_add_right

/-- A header is refused where it is found. -/
theorem Gives.refused_header (gives : buffer.Gives frames (some fault) buffer') :
  ∃ header, FrameHeader.decode? buffer'.octets = some header
  := by
  generalize hsome : some fault = ending at gives
  induction gives with
  | starved => contradiction
  | refused next =>
      obtain ⟨rfl, -, header, found, -⟩ := next_refused next
      exact ⟨header, found⟩
  | frame _ _ ih => exact ih hsome

/-- A piece completes the header after the octets of frames; so many of the frames are complete
before the piece arrives. -/
structure Completes (wires : List Bytes) (front piece : Bytes) (count : Nat) : Prop where
  /-- The last octet of the header is in the piece. -/
  header : front.length < wires.flatten.length + FrameHeader.length
    ∧ wires.flatten.length + FrameHeader.length ≤ front.length + piece.length
  /-- So many frames are complete. -/
  complete : (wires.take count).flatten.length ≤ front.length
  /-- The next frame is not. -/
  incomplete : ∀ wire ∈ wires[count]?,
    front.length < (wires.take count).flatten.length + wire.length

section Stream

variable (hframes : List.Forall₂ (Frame.Wired maxFrameSize) frames wires)
  (found : FrameHeader.decode? bad = some header)
  (refused : header.validate maxFrameSize = .error fault)

include hframes found refused

/-- The frames come out, and then the header is refused. -/
theorem gives_stream :
  (FrameBuffer.mk none (wires.flatten ++ bad) maxFrameSize).Gives frames (some fault)
    ⟨none, bad, maxFrameSize⟩
  := by
  induction hframes with
  | nil => exact .refused (next_of_refused rfl found refused)
  | cons wired _ ih =>
      rw [List.flatten_cons, List.append_assoc]
      exact .frame (next_wired wired _) ih

/-- The first octets of the stream, if they do not complete the refused header, give out the
frames that they complete. -/
theorem gives_front {front rest : Bytes} (stream : front ++ rest = wires.flatten ++ bad)
    (gives : (FrameBuffer.mk none front maxFrameSize).Gives done none buffer) :
  front.length < wires.flatten.length + FrameHeader.length
    ∧ ∃ count, done = frames.take count
      ∧ (wires.take count).flatten.length ≤ front.length
      ∧ ∀ wire ∈ wires[count]?, front.length < (wires.take count).flatten.length + wire.length
  := by
  induction hframes generalizing front done with
  | nil =>
      cases gives with
      | starved next =>
          suffices hshort : front.length < FrameHeader.length from
            ⟨by simpa using hshort, 0, rfl, Nat.zero_le _, by simp⟩
          by_contra hlong
          obtain ⟨header', found'⟩ := FrameHeader.decode?_of_length_le (Nat.le_of_not_lt hlong)
          have hsame := FrameHeader.decode?_append found' rest
          rw [stream, List.flatten_nil, List.nil_append, found] at hsame
          cases hsame
          rw [next_of_refused rfl found' refused] at next
          contradiction
      | frame next _ =>
          have hmore := next_append_frame next rest
          rw [append, stream, List.flatten_nil, List.nil_append,
            next_of_refused rfl found refused] at hmore
          contradiction
  | @cons frame wire frames wires wired _ ih =>
      rw [List.flatten_cons, List.append_assoc] at stream
      cases gives with
      | starved next =>
          suffices hshort : front.length < wire.length by
            refine ⟨?_, 0, rfl, Nat.zero_le _, by simpa using hshort⟩
            rw [List.flatten_cons, List.length_append]
            omega
          by_contra hlong
          obtain ⟨after, rfl⟩ : wire <+: front :=
            List.prefix_of_prefix_length_le ⟨_, rfl⟩ ⟨_, stream⟩ (Nat.le_of_not_lt hlong)
          rw [next_wired wired] at next
          contradiction
      | @frame _ buffer' _ _ _ _ next others =>
          have hmore := next_append_frame next rest
          rw [append, stream, next_wired wired] at hmore
          obtain ⟨rfl, hbuffer⟩ := FrameBuffer.Step.frame.inj hmore
          obtain ⟨arriving, after, limit⟩ := buffer'
          obtain ⟨rfl, hafter, rfl⟩ := FrameBuffer.mk.inj hbuffer
          dsimp only at hafter
          obtain ⟨hlast, count, rfl, hle, hlt⟩ := ih hafter.symm others
          have hfront : front.length = wire.length + after.length := by
            have hwhole := congrArg List.length stream
            have hrest := congrArg List.length hafter
            simp only [List.length_append] at hwhole hrest
            omega
          rw [List.flatten_cons, List.length_append]
          refine ⟨by omega, count + 1, rfl, ?_, ?_⟩
          · rw [List.take_succ_cons, List.flatten_cons, List.length_append]
            omega
          · intro other hother
            have := hlt other hother
            rw [List.take_succ_cons, List.flatten_cons, List.length_append]
            omega

/-- The first octets of the stream, if a header in them is refused, hold all frames. -/
theorem gives_back {front rest : Bytes} (stream : front ++ rest = wires.flatten ++ bad)
    {fault' : Fault}
    (gives : (FrameBuffer.mk none front maxFrameSize).Gives done (some fault') buffer) :
  fault' = fault ∧ wires.flatten.length + FrameHeader.length ≤ front.length
  := by
  have hall := gives.append_refused rest
  rw [append, stream] at hall
  obtain ⟨-, hfault, hbuffer⟩ := hall.unique (gives_stream hframes found refused)
  obtain ⟨arriving, octets, limit⟩ := buffer
  obtain ⟨-, hoctets, -⟩ := FrameBuffer.mk.inj hbuffer
  refine ⟨Option.some.inj hfault, ?_⟩
  obtain ⟨header', found'⟩ := gives.refused_header
  have hlong := FrameHeader.length_le_of_decode? found'
  have hwhole := congrArg List.length stream
  have hrest := congrArg List.length hoctets
  simp only [List.length_append] at hwhole hrest hlong
  omega

/-- Pieces give out the frames that they complete, until a piece completes the refused header.
That piece gives out nothing. -/
theorem pushEach_front {front : Bytes} {pieces : List Bytes}
    (stream : front ++ pieces.flatten = wires.flatten ++ bad)
    (gives : (FrameBuffer.mk none front maxFrameSize).Gives done none buffer) :
  ∃ earlier piece later each left left' count, pieces = earlier ++ piece :: later
    ∧ buffer.pushEach earlier = (.ok each, left) ∧ left.push piece = (.error fault, left')
    ∧ done ++ each.flatten = frames.take count
    ∧ Completes wires (front ++ earlier.flatten) piece count
  := by
  induction pieces generalizing front done buffer with
  | nil =>
      rw [List.flatten_nil, List.append_nil] at stream
      rw [stream] at gives
      have := (gives.unique (gives_stream hframes found refused)).2.1
      contradiction
  | cons piece pieces ih =>
      rw [List.flatten_cons, ← List.append_assoc] at stream
      obtain ⟨sound, -⟩ := gives.left (by rintro _ ⟨⟩)
      obtain ⟨given, ending, buffer', gives', -⟩ := (sound.append piece).gives
      have hpush := sound.push_eq gives'
      have hgives := gives.append gives'
      cases ending with
      | some fault' =>
          obtain ⟨rfl, hback⟩ := gives_back hframes found refused stream hgives
          rw [List.append_assoc] at stream
          obtain ⟨hfront, count, hcount, hle, hlt⟩ :=
            gives_front hframes found refused stream gives
          refine ⟨[], piece, pieces, [], buffer, buffer', count, rfl, rfl, hpush, ?_, ?_⟩
          · rw [List.flatten_nil, List.append_nil, hcount]
          · rw [List.flatten_nil, List.append_nil]
            rw [List.length_append] at hback
            exact ⟨⟨hfront, hback⟩, hle, hlt⟩
      | none =>
          obtain ⟨earlier, last, later, each, left, left', count, rfl, heach, hlast, hgiven,
            completes⟩ := ih stream hgives
          refine ⟨piece :: earlier, last, later, given :: each, left, left', count, rfl, ?_, hlast,
            ?_, ?_⟩
          · rw [pushEach_cons_ok hpush, heach]
            rfl
          · rw [List.flatten_cons, ← List.append_assoc, hgiven]
          · rw [List.flatten_cons, ← List.append_assoc]
            exact completes

/-- The same, for a buffer in which octets have arrived that are no frame yet. -/
theorem pushEach_stream {pending : Bytes} {pieces : List Bytes}
    (hpending : (empty maxFrameSize).push pending = (.ok [], buffer))
    (stream : pending ++ pieces.flatten = wires.flatten ++ bad) :
  ∃ earlier piece later each left left' count, pieces = earlier ++ piece :: later
    ∧ buffer.pushEach earlier = (.ok each, left) ∧ left.push piece = (.error fault, left')
    ∧ each.flatten = frames.take count
    ∧ Completes wires (pending ++ earlier.flatten) piece count
  := by
  have sound := sound_empty maxFrameSize
  obtain ⟨given, ending, _, gives, -⟩ := (sound.append pending).gives
  rw [sound.push_eq gives] at hpending
  cases ending <;> cases hpending
  exact pushEach_front hframes found refused stream gives

end Stream

end FrameBuffer

end MessageBroker
