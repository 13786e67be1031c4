import MessageBroker.Frame.Buffer

/-!
# Octets that arrive in pieces

A frame buffer gives out the same frames, or reports the same fault, whether octets arrive at once
or in pieces, and however they are cut.  The header of a frame is taken out of the buffer before
the frame is complete, so a cut leaves one of two states behind: octets that are no header yet, or
a header and octets that are no frame yet.  Either way more octets let the buffer go on as if they
had been there before.
-/

namespace MessageBroker

/-! ### Headers -/

namespace FrameHeader

variable {octets : Bytes} {header : FrameHeader}

theorem length_le_of_decode? (h : decode? octets = some header) :
  length ≤ octets.length
  := by
  unfold decode? at h
  split at h
  · simp [length]
  · contradiction

/-- A header that has arrived stays the same when more octets arrive. -/
theorem decode?_append (h : decode? octets = some header) (more : Bytes) :
  decode? (octets ++ more) = some header
  := by
  unfold decode? at h
  split at h
  · exact h
  · contradiction

/-- The body of a frame is after its header and inside the frame. -/
theorem offset_of_validate {maxFrameSize : UInt32} (h : header.validate maxFrameSize = .ok ()) :
  length ≤ header.bodyOffset ∧ header.bodyOffset ≤ header.size.toNat
  := by
  unfold validate at h
  split at h
  · contradiction
  next hoffset =>
  split at h
  · contradiction
  next hsize =>
  have hleast : leastDataOffset.toNat ≤ header.dataOffset.toNat :=
    UInt8.le_iff_toNat_le.mp (UInt8.not_lt.mp hoffset)
  have : leastDataOffset.toNat = 2 := rfl
  have : length = 8 := rfl
  have : header.bodyOffset = header.dataOffset.toNat * 4 := rfl
  omega

end FrameHeader

namespace FrameBuffer

variable {buffer buffer' buffer'' : FrameBuffer} {header : FrameHeader} {rest : Bytes}
  {frame : Frame} {frames others : List Frame} {fault : Fault} {ending : Option Fault}

/-- More octets arrive. -/
def append (buffer : FrameBuffer) (octets : Bytes) : FrameBuffer :=
  { buffer with octets := buffer.octets ++ octets }

theorem append_append (buffer : FrameBuffer) (octets more : Bytes) :
  (buffer.append octets).append more = buffer.append (octets ++ more)
  := by
  simp [append]

/-- If the header of a frame has arrived, then the frame has more octets than the header. -/
def Sound (buffer : FrameBuffer) : Prop :=
  ∀ header, buffer.arriving = some header → FrameHeader.length < header.size.toNat

theorem sound_empty (maxFrameSize : UInt32) :
  (empty maxFrameSize).Sound
  := by
  intro header h
  contradiction

theorem Sound.append (sound : buffer.Sound) (octets : Bytes) :
  (buffer.append octets).Sound
  := sound

/-! ### One frame -/

theorem complete_of_lt
    (h : buffer.octets.length < header.size.toNat - FrameHeader.length) :
  buffer.complete header = .starved { buffer with arriving := some header }
  := by
  rw [complete]
  apply if_pos
  rw [List.length_take]
  omega

theorem complete_of_le
    (h : header.size.toNat - FrameHeader.length ≤ buffer.octets.length) :
  buffer.complete header =
    .frame
      ⟨header, (buffer.octets.take (header.size.toNat - FrameHeader.length)).drop
        (header.bodyOffset - FrameHeader.length)⟩
      ⟨none, buffer.octets.drop (header.size.toNat - FrameHeader.length), buffer.maxFrameSize⟩
  := by
  rw [complete]
  apply if_neg
  rw [List.length_take]
  omega

/-- An acceptable header has arrived in a buffer, and other octets after it. -/
inductive Announces (buffer : FrameBuffer) : FrameHeader → Bytes → Prop where
  /-- The header has been taken out of the buffer before. -/
  | before {header : FrameHeader} (h : buffer.arriving = some header) :
      Announces buffer header buffer.octets
  /-- The header is found now. -/
  | now {header : FrameHeader} (h : buffer.arriving = none)
      (found : FrameHeader.decode? buffer.octets = some header)
      (acceptable : header.validate buffer.maxFrameSize = .ok ()) :
      Announces buffer header (buffer.octets.drop FrameHeader.length)

theorem Announces.append (announces : buffer.Announces header rest) (octets : Bytes) :
  (buffer.append octets).Announces header (rest ++ octets)
  := by
  cases announces with
  | before h => exact .before h
  | now h found acceptable =>
      rw [← List.drop_append_of_le_length (FrameHeader.length_le_of_decode? found)]
      exact .now h (FrameHeader.decode?_append found octets) acceptable

/-- Whether a frame is complete depends only on its header and the octets after it. -/
theorem Announces.next (announces : buffer.Announces header rest) :
  buffer.next = { buffer with octets := rest }.complete header
  := by
  cases announces with
  | before h =>
      rw [FrameBuffer.next, h]
      rfl
  | now h found acceptable =>
      rw [FrameBuffer.next, h]
      dsimp only
      rw [found]
      dsimp only
      rw [acceptable]

/-- What a buffer finds in front of it: no header, a header that is not acceptable, or one that
is. -/
theorem next_cases (buffer : FrameBuffer) :
  (buffer.arriving = none ∧ buffer.next = .starved buffer)
    ∨ (∃ header fault, buffer.arriving = none ∧ FrameHeader.decode? buffer.octets = some header
      ∧ header.validate buffer.maxFrameSize = .error fault ∧ buffer.next = .refused fault buffer)
    ∨ ∃ header rest, buffer.Announces header rest
  := by
  cases harriving : buffer.arriving with
  | some header => exact .inr (.inr ⟨header, _, .before harriving⟩)
  | none =>
      cases hfound : FrameHeader.decode? buffer.octets with
      | none =>
          refine .inl ⟨rfl, ?_⟩
          rw [next, harriving]
          dsimp only
          rw [hfound]
      | some header =>
          cases hvalid : header.validate buffer.maxFrameSize with
          | ok => exact .inr (.inr ⟨header, _, .now harriving hfound hvalid⟩)
          | error fault =>
              refine .inr (.inl ⟨header, fault, rfl, rfl, hvalid, ?_⟩)
              rw [next, harriving]
              dsimp only
              rw [hfound]
              dsimp only
              rw [hvalid]

/-- A frame that a buffer gives out is the one that its header announces. -/
theorem next_frame (h : buffer.next = .frame frame buffer') :
  ∃ header rest, buffer.Announces header rest
    ∧ header.size.toNat - FrameHeader.length ≤ rest.length
    ∧ buffer' = ⟨none, rest.drop (header.size.toNat - FrameHeader.length), buffer.maxFrameSize⟩
    ∧ frame = ⟨header, (rest.take (header.size.toNat - FrameHeader.length)).drop
        (header.bodyOffset - FrameHeader.length)⟩
  := by
  rcases buffer.next_cases with ⟨-, hnext⟩ | ⟨_, _, -, -, -, hnext⟩ | ⟨header, rest, announces⟩
  · rw [hnext] at h
    contradiction
  · rw [hnext] at h
    contradiction
  rw [announces.next] at h
  by_cases hsize : header.size.toNat - FrameHeader.length ≤ rest.length
  · rw [complete_of_le hsize] at h
    cases h
    exact ⟨header, rest, announces, hsize, rfl, rfl⟩
  · rw [complete_of_lt (by exact Nat.lt_of_not_le hsize)] at h
    contradiction

/-- A starved buffer has no header, or octets that are too few for the header it has. -/
theorem next_starved (h : buffer.next = .starved buffer') :
  buffer' = buffer
    ∨ ∃ header rest, buffer.Announces header rest
      ∧ rest.length < header.size.toNat - FrameHeader.length
      ∧ buffer' = ⟨some header, rest, buffer.maxFrameSize⟩
  := by
  rcases buffer.next_cases with ⟨-, hnext⟩ | ⟨_, _, -, -, -, hnext⟩ | ⟨header, rest, announces⟩
  · rw [hnext] at h
    cases h
    exact .inl rfl
  · rw [hnext] at h
    contradiction
  rw [announces.next] at h
  by_cases hsize : header.size.toNat - FrameHeader.length ≤ rest.length
  · rw [complete_of_le hsize] at h
    contradiction
  · have hshort : rest.length < header.size.toNat - FrameHeader.length := Nat.lt_of_not_le hsize
    rw [complete_of_lt hshort] at h
    cases h
    exact .inr ⟨header, rest, announces, hshort, rfl⟩

/-- Only the first header of a frame can be refused, and it stays in the buffer. -/
theorem next_refused (h : buffer.next = .refused fault buffer') :
  buffer' = buffer ∧ buffer.arriving = none
    ∧ ∃ header, FrameHeader.decode? buffer.octets = some header
      ∧ header.validate buffer.maxFrameSize = .error fault
  := by
  rcases buffer.next_cases with ⟨-, hnext⟩ | ⟨header, fault, harriving, hfound, hvalid, hnext⟩ |
    ⟨header, rest, announces⟩
  · rw [hnext] at h
    contradiction
  · rw [hnext] at h
    cases h
    exact ⟨rfl, harriving, header, hfound, hvalid⟩
  rw [announces.next] at h
  by_cases hsize : header.size.toNat - FrameHeader.length ≤ rest.length
  · rw [complete_of_le hsize] at h
    contradiction
  · rw [complete_of_lt (by exact Nat.lt_of_not_le hsize)] at h
    contradiction

theorem next_of_refused {header : FrameHeader} (harriving : buffer.arriving = none)
    (hfound : FrameHeader.decode? buffer.octets = some header)
    (hvalid : header.validate buffer.maxFrameSize = .error fault) :
  buffer.next = .refused fault buffer
  := by
  rw [next, harriving]
  dsimp only
  rw [hfound]
  dsimp only
  rw [hvalid]

/-! ### More octets -/

theorem next_append_frame (h : buffer.next = .frame frame buffer') (octets : Bytes) :
  (buffer.append octets).next = .frame frame (buffer'.append octets)
  := by
  obtain ⟨header, rest, announces, hsize, rfl, rfl⟩ := next_frame h
  have hmore : header.size.toNat - FrameHeader.length ≤ (rest ++ octets).length := by
    rw [List.length_append]
    omega
  rw [(announces.append octets).next, complete_of_le hmore]
  dsimp only
  rw [List.take_append_of_le_length hsize, List.drop_append_of_le_length hsize]
  rfl

theorem next_append_refused (h : buffer.next = .refused fault buffer') (octets : Bytes) :
  (buffer.append octets).next = .refused fault (buffer'.append octets)
  := by
  obtain ⟨rfl, harriving, header, hfound, hvalid⟩ := next_refused h
  apply next_of_refused
  · exact harriving
  · exact FrameHeader.decode?_append hfound octets
  · exact hvalid

/-- A starved buffer goes on with more octets as if they had been there before. -/
theorem next_append_starved (h : buffer.next = .starved buffer') (octets : Bytes) :
  (buffer.append octets).next = (buffer'.append octets).next
  := by
  rcases next_starved h with rfl | ⟨header, rest, announces, -, rfl⟩
  · rfl
  -- The header is taken out, and what completes the frame does not look at it.
  have hafter : Announces (append ⟨some header, rest, buffer.maxFrameSize⟩ octets) header
      (rest ++ octets) := .before rfl
  rw [(announces.append octets).next, hafter.next]
  by_cases hsize : header.size.toNat - FrameHeader.length ≤ (rest ++ octets).length
  · rw [complete_of_le hsize, complete_of_le hsize]
    rfl
  · have hshort := Nat.lt_of_not_le hsize
    rw [complete_of_lt hshort, complete_of_lt hshort]
    rfl

/-- A buffer that has been starved stays so. -/
theorem next_starved_next (h : buffer.next = .starved buffer') :
  buffer'.next = .starved buffer'
  := by
  have hsame := next_append_starved h []
  simp only [append, List.append_nil] at hsame
  rw [← hsame, h]

/-! ### All frames -/

/-- A buffer gives out frames until more octets must arrive, or a header is not acceptable. -/
inductive Gives : FrameBuffer → List Frame → Option Fault → FrameBuffer → Prop where
  /-- More octets must arrive. -/
  | starved {buffer buffer' : FrameBuffer} (next : buffer.next = .starved buffer') :
      Gives buffer [] none buffer'
  /-- A header is not acceptable. -/
  | refused {buffer buffer' : FrameBuffer} {fault : Fault}
      (next : buffer.next = .refused fault buffer') : Gives buffer [] (some fault) buffer'
  /-- A frame, and what the buffer gives out after it. -/
  | frame {buffer buffer' buffer'' : FrameBuffer} {frame : Frame} {frames : List Frame}
      {ending : Option Fault} (next : buffer.next = .frame frame buffer')
      (others : Gives buffer' frames ending buffer'') :
      Gives buffer (frame :: frames) ending buffer''

/-- The frames that are given out, unless they are given up because of a fault. -/
def outcome (frames : List Frame) : Option Fault → Except Fault (List Frame)
  | none => .ok frames
  | some fault => .error fault

theorem drainAfter_of_gives (gives : buffer.Gives frames ending buffer') (done : List Frame)
    {count : Nat} (enough : frames.length < count) :
  drainAfter done count buffer = (outcome (done.reverse ++ frames) ending, buffer')
  := by
  induction gives generalizing done count with
  | starved next =>
      obtain ⟨count, rfl⟩ := Nat.exists_eq_succ_of_ne_zero (Nat.ne_of_gt enough)
      rw [drainAfter, next, List.append_nil]
      rfl
  | refused next =>
      obtain ⟨count, rfl⟩ := Nat.exists_eq_succ_of_ne_zero (Nat.ne_of_gt enough)
      rw [drainAfter, next]
      rfl
  | @frame _ _ _ frame _ _ next _ ih =>
      obtain ⟨count, rfl⟩ := Nat.exists_eq_succ_of_ne_zero (Nat.ne_zero_of_lt enough)
      rw [drainAfter, next]
      dsimp only
      rw [ih (frame :: done) (by simpa using enough), List.reverse_cons, List.append_assoc]
      rfl

theorem Sound.of_starved (sound : buffer.Sound) (h : buffer.next = .starved buffer') :
  buffer'.Sound
  := by
  rcases next_starved h with rfl | ⟨header, rest, -, hshort, rfl⟩
  · exact sound
  · rintro _ ⟨⟩
    omega

/-- A frame takes octets out of the buffer. -/
theorem Sound.of_frame (sound : buffer.Sound) (h : buffer.next = .frame frame buffer') :
  buffer'.Sound ∧ buffer'.octets.length < buffer.octets.length
  := by
  obtain ⟨header, rest, announces, hsize, rfl, -⟩ := next_frame h
  refine ⟨by rintro _ ⟨⟩, ?_⟩
  dsimp only
  rw [List.length_drop]
  cases announces with
  | before harriving =>
      have := sound header harriving
      omega
  | now _ found _ =>
      have hlong := FrameHeader.length_le_of_decode? found
      have : FrameHeader.length = 8 := rfl
      rw [List.length_drop] at hsize ⊢
      omega

/-- What a buffer gives out comes to an end, because every frame takes octets out of it. -/
theorem Sound.gives (sound : buffer.Sound) :
  ∃ frames ending buffer', buffer.Gives frames ending buffer'
    ∧ frames.length ≤ buffer.octets.length
  := by
  induction hlength : buffer.octets.length using Nat.strongRecOn generalizing buffer with
  | ind length ih =>
  subst hlength
  cases hnext : buffer.next with
  | starved buffer' => exact ⟨[], none, buffer', .starved hnext, Nat.zero_le _⟩
  | refused fault buffer' => exact ⟨[], some fault, buffer', .refused hnext, Nat.zero_le _⟩
  | frame frame buffer' =>
      obtain ⟨sound', hless⟩ := sound.of_frame hnext
      obtain ⟨frames, ending, buffer'', gives, hle⟩ := ih _ hless sound' rfl
      refine ⟨frame :: frames, ending, buffer'', .frame hnext gives, ?_⟩
      rw [List.length_cons]
      omega

theorem Gives.unique {frames' : List Frame} {ending' : Option Fault}
    (gives : buffer.Gives frames ending buffer') (gives' : buffer.Gives frames' ending' buffer'') :
  frames = frames' ∧ ending = ending' ∧ buffer' = buffer''
  := by
  induction gives generalizing frames' with
  | starved next =>
      cases gives' with
      | starved next' | refused next' | frame next' =>
          rw [next] at next'
          cases next'
          try exact ⟨rfl, rfl, rfl⟩
  | refused next =>
      cases gives' with
      | starved next' | refused next' | frame next' =>
          rw [next] at next'
          cases next'
          try exact ⟨rfl, rfl, rfl⟩
  | frame next _ ih =>
      cases gives' with
      | starved next' | refused next' =>
          rw [next] at next'
          contradiction
      | frame next' others =>
          rw [next] at next'
          cases next'
          obtain ⟨rfl, rfl, rfl⟩ := ih others
          exact ⟨rfl, rfl, rfl⟩

/-- A push gives out what the buffer gives out with the octets in it. -/
theorem Sound.push_eq (sound : buffer.Sound) {octets : Bytes}
    (gives : (buffer.append octets).Gives frames ending buffer') :
  buffer.push octets = (outcome frames ending, buffer')
  := by
  obtain ⟨_, _, _, gives', hle⟩ := (sound.append octets).gives
  obtain ⟨rfl, rfl, rfl⟩ := gives.unique gives'
  exact drainAfter_of_gives gives [] (Nat.lt_succ_of_le hle)

/-! ### More octets after all frames -/

/-- The buffer that is left where octets are missing is sound, and gives out nothing more. -/
theorem Gives.left (gives : buffer.Gives frames none buffer') (sound : buffer.Sound) :
  buffer'.Sound ∧ buffer'.next = .starved buffer'
  := by
  generalize hending : (none : Option Fault) = ending at gives
  induction gives with
  | starved next => exact ⟨sound.of_starved next, next_starved_next next⟩
  | refused => contradiction
  | frame next _ ih => exact ih (sound.of_frame next).1 hending

/-- Where octets are missing, more of them let the buffer go on. -/
theorem Gives.append (gives : buffer.Gives frames none buffer') {octets : Bytes}
    (more : (buffer'.append octets).Gives others ending buffer'') :
  (buffer.append octets).Gives (frames ++ others) ending buffer''
  := by
  generalize hnone : (none : Option Fault) = stop at gives
  induction gives with
  | starved next =>
      have hsame := next_append_starved next octets
      cases more with
      | starved next' => exact .starved (hsame.trans next')
      | refused next' => exact .refused (hsame.trans next')
      | frame next' others => exact .frame (hsame.trans next') others
  | refused => contradiction
  | frame next _ ih => exact .frame (next_append_frame next octets) (ih more hnone)

/-- A header that is not acceptable is not made so by more octets. -/
theorem Gives.append_refused (gives : buffer.Gives frames (some fault) buffer')
    (octets : Bytes) :
  (buffer.append octets).Gives frames (some fault) (buffer'.append octets)
  := by
  generalize hsome : some fault = stop at gives
  induction gives with
  | starved => contradiction
  | refused next => exact .refused (next_append_refused next octets)
  | frame next _ ih => exact .frame (next_append_frame next octets) (ih hsome)

/-! ### Pieces -/

/-- Pushes pieces one after another, until one of them fails. -/
def pushEach : List Bytes → FrameBuffer → Except Fault (List (List Frame)) × FrameBuffer
  | [], buffer => (.ok [], buffer)
  | piece :: pieces, buffer =>
    match buffer.push piece with
    | (.error fault, buffer) => (.error fault, buffer)
    | (.ok frames, buffer) =>
      match pushEach pieces buffer with
      | (.error fault, buffer) => (.error fault, buffer)
      | (.ok others, buffer) => (.ok (frames :: others), buffer)

theorem pushEach_cons_error {piece : Bytes} (h : buffer.push piece = (.error fault, buffer'))
    (pieces : List Bytes) :
  buffer.pushEach (piece :: pieces) = (.error fault, buffer')
  := by
  rw [pushEach, h]

theorem pushEach_cons_ok {piece : Bytes} (h : buffer.push piece = (.ok frames, buffer'))
    (pieces : List Bytes) :
  buffer.pushEach (piece :: pieces) =
    ((buffer'.pushEach pieces).1.map (frames :: ·), (buffer'.pushEach pieces).2)
  := by
  rw [pushEach, h]
  dsimp only
  obtain ⟨result, last⟩ := buffer'.pushEach pieces
  cases result <;> rfl

/-- What pieces give out one after another, they give out together. -/
theorem pushEach_gives (sound : buffer.Sound) (starved : buffer.next = .starved buffer)
    (pieces : List Bytes) :
  ∃ frames ending left, (buffer.append pieces.flatten).Gives frames ending left
    ∧ (buffer.pushEach pieces).1.map List.flatten = outcome frames ending
    ∧ (ending = none → (buffer.pushEach pieces).2 = left)
  := by
  induction pieces generalizing buffer with
  | nil =>
      refine ⟨[], none, buffer, ?_, rfl, fun _ => rfl⟩
      rw [List.flatten_nil, append, List.append_nil]
      exact .starved starved
  | cons piece pieces ih =>
      obtain ⟨frames, ending, buffer', gives, -⟩ := (sound.append piece).gives
      have hpush := sound.push_eq gives
      rw [List.flatten_cons, ← append_append]
      cases ending with
      | some fault =>
          rw [pushEach_cons_error hpush]
          exact ⟨frames, some fault, _, gives.append_refused pieces.flatten, rfl, by simp⟩
      | none =>
          obtain ⟨sound', starved'⟩ := gives.left (sound.append piece)
          obtain ⟨others, ending, left, gives', hothers, hleft⟩ := ih sound' starved'
          rw [pushEach_cons_ok hpush]
          refine ⟨frames ++ others, ending, left, gives.append gives', ?_, hleft⟩
          -- The frames of the first piece come before what the others give out.
          have hcons (result : Except Fault (List (List Frame))) :
              (result.map (frames :: ·)).map List.flatten =
                (result.map List.flatten).map (frames ++ ·) := by
            cases result <;> rfl
          rw [hcons, hothers]
          cases ending <;> rfl

/-- Octets are refused for the same reason, or give the same frames and leave the same buffer,
however they are cut into the pieces that arrive. -/
theorem pushEach_empty (maxFrameSize : UInt32) (pieces : List Bytes) :
  (∀ fault, ((empty maxFrameSize).pushEach pieces).1 = .error fault ↔
      ((empty maxFrameSize).push pieces.flatten).1 = .error fault)
    ∧ ∀ each left, (empty maxFrameSize).pushEach pieces = (.ok each, left) →
      (empty maxFrameSize).push pieces.flatten = (.ok each.flatten, left)
  := by
  have sound := sound_empty maxFrameSize
  obtain ⟨frames, ending, left, gives, hframes, hleft⟩ := pushEach_gives sound rfl pieces
  rw [sound.push_eq gives]
  generalize (empty maxFrameSize).pushEach pieces = pushed at hframes hleft ⊢
  obtain ⟨result, last⟩ := pushed
  cases result <;> cases ending <;> cases hframes
  · simp [outcome]
  · cases hleft rfl
    simp [outcome]

end FrameBuffer

end MessageBroker
