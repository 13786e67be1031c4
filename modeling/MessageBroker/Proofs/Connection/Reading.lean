import MessageBroker.Proofs.Connection.Basic
import MessageBroker.Proofs.Frame.Stream

/-!
# Frames in the same read as a refused header

Octets arrive on a connection in reads.  The frames that a read completes are dealt with in order,
and then what waits is sent.  A read that completes a header which is not acceptable closes the
connection and does nothing else: the frames that it completes in front of this header are given
up, and were they in a read of their own, they would be dealt with.
-/

namespace MessageBroker

namespace Hosting

variable {h : Hosting} (frames : FrameBuffer)

/-- Replaces the octets that are no frame yet. -/
def withFrames (h : Hosting) (frames : FrameBuffer) : Hosting :=
  h.onConnection ({ · with frames })

@[simp]
theorem connection_withFrames (h : Hosting) :
  (h.withFrames frames).connection = { h.connection with frames }
  := rfl

@[simp]
theorem store_withFrames (h : Hosting) :
  (h.withFrames frames).store = h.store
  := rfl

@[simp]
theorem isClosed_withFrames (h : Hosting) :
  (h.withFrames frames).connection.isClosed = h.connection.isClosed
  := rfl

/-! ### Frames do not depend on the octets that are no frame yet -/

theorem close_withFrames (error : Option ErrorReport) :
  (h.withFrames frames).close error = (h.close error).withFrames frames
  := by
  rw [close, close, isClosed_withFrames]
  split <;> rfl

theorem failSession_withFrames (channel : UInt16) (report : ErrorReport) :
  (h.withFrames frames).failSession channel report =
    (h.failSession channel report).withFrames frames
  := by
  rw [failSession, failSession, connection_withFrames]
  dsimp only
  cases h.connection.channels.get? channel with
  | some slot => rfl
  | none => apply close_withFrames

theorem fail_withFrames (channel : Option UInt16) (fault : Fault) :
  (h.withFrames frames).fail channel fault = (h.fail channel fault).withFrames frames
  := by
  cases fault with
  | session report =>
      cases channel with
      | some channel => apply failSession_withFrames
      | none => apply close_withFrames
  | _ => apply close_withFrames

theorem onBegin_withFrames (channel : UInt16) (terms : Begin) :
  (h.withFrames frames).onBegin channel terms =
    (h.onBegin channel terms).map (·.withFrames frames)
  := by
  rw [onBegin, onBegin, connection_withFrames]
  dsimp only
  split
  · rfl
  · split <;> rfl

theorem onEnd_withFrames (channel : UInt16) :
  (h.withFrames frames).onEnd channel = (h.onEnd channel).map (·.withFrames frames)
  := by
  rw [onEnd, onEnd, connection_withFrames]
  dsimp only
  cases h.connection.channels.get? channel <;> rfl

theorem operate_withFrames (channel : UInt16) (slot : SessionChannel)
    (operation : Operation Unit) :
  (h.withFrames frames).operate channel slot operation =
    ((h.operate channel slot operation).1,
      (h.operate channel slot operation).2.withFrames frames)
  := by
  rw [operate, operate, store_withFrames]
  cases operation ⟨slot.session, h.store⟩ <;> rfl

theorem unlessFault_withFrames (result : Except Fault Hosting) :
  (h.withFrames frames).unlessFault (result.map (·.withFrames frames)) =
    ((h.unlessFault result).1, (h.unlessFault result).2.withFrames frames)
  := by
  cases result <;> rfl

theorem process_withFrames (channel : UInt16) (p : Performative) (payload : Bytes) :
  (h.withFrames frames).process channel p payload =
    ((h.process channel p payload).1, (h.process channel p payload).2.withFrames frames)
  := by
  unfold process
  rw [connection_withFrames]
  dsimp only
  split
  · rfl
  · rfl
  · rfl
  · rw [close_withFrames]
  · rw [onBegin_withFrames, unlessFault_withFrames]
  · rw [onEnd_withFrames, unlessFault_withFrames]
  · rw [onSessionPerformative, onSessionPerformative, connection_withFrames]
    dsimp only
    cases h.connection.channels.get? channel with
    | some slot => apply operate_withFrames
    | none => rfl

theorem onFrame_withFrames (frame : Frame) :
  (h.withFrames frames).onFrame frame = (h.onFrame frame).withFrames frames
  := by
  rw [onFrame, onFrame, isClosed_withFrames]
  split
  · rfl
  cases decodeBody frame.body with
  | error error => apply fail_withFrames
  | ok content =>
      obtain ⟨p, payload⟩ := content
      dsimp only
      rw [process_withFrames]
      obtain ⟨fault, h'⟩ := h.process frame.header.channel p payload
      cases fault with
      | none => rfl
      | some fault => apply fail_withFrames

theorem pumpSessions_withFrames :
  (h.withFrames frames).pumpSessions = h.pumpSessions.withFrames frames
  := by
  rw [pumpSessions, pumpSessions, connection_withFrames]
  dsimp only
  generalize h.connection.channels.keys = channels
  induction channels generalizing h with
  | nil => rfl
  | cons channel channels ih =>
      rw [List.foldl_cons, List.foldl_cons, ← ih, connection_withFrames]
      dsimp only
      cases h.connection.channels.get? channel with
      | some slot =>
          dsimp only
          rw [operate_withFrames]
      | none => rfl

theorem pump_withFrames :
  (h.withFrames frames).pump = h.pump.withFrames frames
  := by
  rw [pump, pump, pumpSessions_withFrames, connection_withFrames]
  dsimp only
  split <;> rfl

/-! ### Reads -/

/-- The frames of a read are dealt with, and then what waits is sent. -/
def read (h : Hosting) (frames : List Frame) : Hosting :=
  (frames.foldl onFrame h).pump

/-- The frames of reads are dealt with, one read after another. -/
def readEach (each : List (List Frame)) (h : Hosting) : Hosting :=
  each.foldl read h

@[simp]
theorem readEach_nil (h : Hosting) :
  h.readEach [] = h
  := rfl

/-- Octets arrive in pieces. -/
def feedEach (pieces : List Bytes) (h : Hosting) : Hosting :=
  pieces.foldl (fun h octets => h.feed octets) h

theorem feedEach_append (pieces others : List Bytes) (h : Hosting) :
  h.feedEach (pieces ++ others) = (h.feedEach pieces).feedEach others
  := List.foldl_append

theorem read_withFrames (arrived : List Frame) :
  (h.withFrames frames).read arrived = (h.read arrived).withFrames frames
  := by
  rw [read, read, ← pump_withFrames]
  congr 1
  induction arrived generalizing h with
  | nil => rfl
  | cons frame arrived ih =>
      rw [List.foldl_cons, onFrame_withFrames]
      apply ih

theorem readEach_withFrames (each : List (List Frame)) :
  (h.withFrames frames).readEach each = (h.readEach each).withFrames frames
  := by
  induction each generalizing h with
  | nil => rfl
  | cons arrived each ih =>
      rw [readEach, List.foldl_cons, read_withFrames]
      apply ih

variable {frames} {octets : Bytes} {arrived : List Frame} {fault : Fault}

/-! A closed connection passes over what arrives. -/

section Closed

variable (closed : h.connection.isClosed = true)

include closed

theorem read_of_closed (arrived : List Frame) :
  h.read arrived = h
  := by
  have hframes : arrived.foldl onFrame h = h := by
    induction arrived with
    | nil => rfl
    | cons frame arrived ih => rw [List.foldl_cons, onFrame_of_silent (.inl closed), ih]
  rw [read, hframes, pump, if_neg]
  rw [of_decide_eq_true closed]
  simp

theorem readEach_of_closed (each : List (List Frame)) :
  h.readEach each = h
  := by
  induction each with
  | nil => rfl
  | cons arrived each ih =>
      rw [readEach, List.foldl_cons, read_of_closed closed]
      exact ih

theorem close_of_closed (error : Option ErrorReport) :
  h.close error = h
  := by
  rw [close, if_pos closed]

theorem feed_of_closed (octets : Bytes) :
  h.feed octets = h
  := by
  rw [feed, if_neg (by simp [of_decide_eq_true closed]), feedFrames, if_pos (by simp [closed])]

theorem feedEach_of_closed (pieces : List Bytes) :
  h.feedEach pieces = h
  := by
  induction pieces with
  | nil => rfl
  | cons octets pieces ih =>
      rw [feedEach, List.foldl_cons, feed_of_closed closed]
      exact ih

end Closed

theorem isClosed_close (error : Option ErrorReport) :
  (h.close error).connection.isClosed = true
  := by
  rw [close]
  split
  · assumption
  · rfl

/-- The queues are left in the same way whatever error is told. -/
theorem store_close (error : Option ErrorReport) :
  (h.close error).store = (h.close none).store
  := by
  rw [close, close]
  split <;> rfl

section Greeted

variable (greeted : h.connection.phase ≠ .awaitingHeader)

include greeted

theorem greeted_read (arrived : List Frame) :
  (h.read arrived).connection.phase ≠ .awaitingHeader
  := by
  have goes : Connection.Goes (fun _ => False) (arrived.foldl onFrame h).connection
      (h.read arrived).connection := goes_pump _
  rw [goes.phase]
  clear goes
  induction arrived generalizing h with
  | nil => exact greeted
  | cons frame arrived ih => exact ih (greeted_onFrame greeted frame)

theorem greeted_readEach (each : List (List Frame)) :
  (h.readEach each).connection.phase ≠ .awaitingHeader
  := by
  induction each generalizing h with
  | nil => exact greeted
  | cons arrived each ih => exact ih (greeted_read greeted arrived)

/-- A read without octets changes nothing. -/
theorem feed_nil :
  h.feed [] = h
  := by
  rw [feed, if_neg greeted, feedFrames, if_pos (by simp)]

theorem feed_of_given (live : h.connection.isClosed = false) (some_octets : octets ≠ [])
    (hpush : h.connection.frames.push octets = (.ok arrived, frames)) :
  h.feed octets = (h.read arrived).withFrames frames
  := by
  rw [feed, if_neg greeted, feedFrames, if_neg (by simp [live, some_octets]), hpush]
  exact read_withFrames frames arrived

theorem feed_of_refused (live : h.connection.isClosed = false) (some_octets : octets ≠ [])
    (hpush : h.connection.frames.push octets = (.error fault, frames)) :
  h.feed octets = (h.fail none fault).withFrames frames
  := by
  rw [feed, if_neg greeted, feedFrames, if_neg (by simp [live, some_octets]), hpush]
  exact fail_withFrames frames none fault

theorem greeted_feed (octets : Bytes) :
  (h.feed octets).connection.phase ≠ .awaitingHeader
  := by
  by_cases some_octets : octets = []
  · rw [some_octets, feed_nil greeted]
    exact greeted
  cases live : h.connection.isClosed with
  | true =>
      rw [feed_of_closed live]
      exact greeted
  | false =>
      obtain ⟨result, frames, hpush⟩ : ∃ result frames,
          h.connection.frames.push octets = (result, frames) := ⟨_, _, rfl⟩
      cases result with
      | ok arrived =>
          rw [feed_of_given greeted live some_octets hpush]
          exact greeted_read greeted arrived
      | error fault =>
          rw [feed_of_refused greeted live some_octets hpush]
          change (h.fail none fault).connection.phase ≠ _
          have goes : Connection.Goes (fun _ => False) h.connection (h.fail none fault).connection
              ∨ (h.fail none fault).connection.Shut := goes_fail none fault h
          rcases goes with goes | shut
          · rw [goes.phase]
            exact greeted
          · simp [shut.closed]

/-- Reads without octets can be left out. -/
theorem feedEach_filter (pieces : List Bytes) :
  h.feedEach (pieces.filter (!·.isEmpty)) = h.feedEach pieces
  := by
  induction pieces generalizing h with
  | nil => rfl
  | cons piece pieces ih =>
      cases piece with
      | nil =>
          rw [List.filter_cons_of_neg (by simp), ih greeted, feedEach, feedEach, List.foldl_cons,
            feed_nil greeted]
      | cons octet octets =>
          rw [List.filter_cons_of_pos (by simp), feedEach, List.foldl_cons]
          exact ih (greeted_feed greeted _)

/-- Pieces that are given out are dealt with as reads; once the connection is closed, nothing is
kept of them. -/
theorem feedEach_of_given {pieces : List Bytes} (some_octets : ∀ piece ∈ pieces, piece ≠ [])
    {each : List (List Frame)}
    (hpush : h.connection.frames.pushEach pieces = (.ok each, frames)) :
  ∃ left, h.feedEach pieces = (h.readEach each).withFrames left
    ∧ ((h.readEach each).connection.isClosed = true ∨ left = frames)
  := by
  induction pieces generalizing h each with
  | nil =>
      cases hpush
      exact ⟨_, rfl, .inr rfl⟩
  | cons piece pieces ih =>
      obtain ⟨some_piece, some_pieces⟩ := List.forall_mem_cons.mp some_octets
      cases live : h.connection.isClosed with
      | true =>
          rw [feedEach_of_closed live, readEach_of_closed live]
          exact ⟨_, rfl, .inl live⟩
      | false =>
          obtain ⟨result, frames', hpiece⟩ : ∃ result frames',
              h.connection.frames.push piece = (result, frames') := ⟨_, _, rfl⟩
          cases result with
          | error fault =>
              rw [FrameBuffer.pushEach_cons_error hpiece] at hpush
              cases hpush
          | ok arrived =>
              rw [FrameBuffer.pushEach_cons_ok hpiece] at hpush
              obtain ⟨result, last, hothers⟩ : ∃ result last,
                  frames'.pushEach pieces = (result, last) := ⟨_, _, rfl⟩
              rw [hothers] at hpush
              cases result <;> cases hpush
              obtain ⟨left, heach, hleft⟩ := ih (h := (h.read arrived).withFrames frames')
                (greeted_read greeted arrived) some_pieces hothers
              rw [readEach_withFrames] at heach hleft
              refine ⟨left, ?_, hleft⟩
              rw [feedEach, List.foldl_cons, feed_of_given greeted live some_piece hpiece]
              exact heach

end Greeted

/-! ### A refused header -/

/-- A stream of frames and a header that is not acceptable arrives on an open connection in pieces.
The frames that are complete before the piece that completes this header are dealt with in order,
in reads; then the connection is closed for a framing error, if it is not closed already.  What
becomes of the connection does not depend on the frames that this last piece completes. -/
theorem feedEach_refused (opened : h.connection.phase = .opened) {maxFrameSize : UInt32}
    {pending : Bytes}
    (hpending : (FrameBuffer.empty maxFrameSize).push pending = (.ok [], h.connection.frames))
    {frames : List Frame} {wires : List Bytes}
    (hframes : List.Forall₂ (Frame.Wired maxFrameSize) frames wires) {bad : Bytes}
    {header : FrameHeader} (found : FrameHeader.decode? bad = some header) {fault : Fault}
    (refused : header.validate maxFrameSize = .error fault) {pieces : List Bytes}
    (stream : pending ++ pieces.flatten = wires.flatten ++ bad) :
  ∃ earlier piece later each count left text,
    pieces.filter (!·.isEmpty) = earlier ++ piece :: later
    ∧ FrameBuffer.Completes wires (pending ++ earlier.flatten) piece count
    ∧ (h.connection.frames.pushEach earlier).1 = .ok each ∧ each.flatten = frames.take count
    ∧ h.feedEach pieces =
      ((h.readEach each).close (some (.of .framingError text))).withFrames left
  := by
  have greeted : h.connection.phase ≠ .awaitingHeader := by simp [opened]
  rw [← Frame.flatten_filter_not_isEmpty pieces] at stream
  obtain ⟨earlier, piece, later, each, kept, last, count, hpieces, heach, hpiece, hgiven,
    completes⟩ := FrameBuffer.pushEach_stream hframes found refused hpending stream
  obtain ⟨text, rfl⟩ := FrameHeader.error_of_validate refused
  have some_octets : ∀ octets ∈ earlier ++ piece :: later, octets ≠ [] := by
    intro octets hmem
    rw [← hpieces] at hmem
    simpa using (List.mem_filter.mp hmem).2
  obtain ⟨left, hread, hleft⟩ := feedEach_of_given greeted
    (fun octets hmem => some_octets octets (List.mem_append_left _ hmem)) heach
  suffices hclose : ∃ left, h.feedEach pieces =
      ((h.readEach each).close (some (.of .framingError text))).withFrames left by
    obtain ⟨left, hclose⟩ := hclose
    exact ⟨earlier, piece, later, each, count, left, text, hpieces, completes,
      congrArg Prod.fst heach, hgiven, hclose⟩
  rw [← feedEach_filter greeted, hpieces, feedEach_append, hread]
  cases live : (h.readEach each).connection.isClosed with
  | true =>
      rw [feedEach_of_closed (by exact live), close_of_closed live]
      exact ⟨left, rfl⟩
  | false =>
      obtain rfl : left = kept := hleft.resolve_left (by simp [live])
      have hlast : ((h.readEach each).withFrames left).feed piece =
          ((h.readEach each).close (some (.of .framingError text))).withFrames last := by
        rw [feed_of_refused (by exact greeted_readEach greeted each) (by exact live)
          (some_octets piece (by simp)) hpiece, fail_withFrames]
        rfl
      rw [feedEach, List.foldl_cons, hlast]
      refine ⟨last, ?_⟩
      apply feedEach_of_closed
      exact isClosed_close _

/-- A transfer in the same read as a header that is not acceptable is lost; in a read of its own
it is put into its queue. -/
theorem transfer_lost_before_refused_header :
  let h := feedEach
    [protocolHeader,
      Frame.wire 0 (Performative.openConnection ⟨"peer", none, none, none, none⟩).encode,
      Frame.wire 0 (Performative.beginSession ⟨none, 0, 9, 9, none⟩).encode,
      Frame.wire 0 (Performative.attach
        ⟨"a", 0, .sender, .mixed, .first, none,
          some (.node ⟨some "q", none, none, none, false, none⟩), some 0, none⟩).encode]
    ⟨.start .standard, QueueStore.empty.add "q" .unlimited true⟩
  let transfer := Frame.wire 0
    ((Performative.transfer ⟨0, some 0, some [0], none, none, false, none, none, false, false,
      false⟩).encode ++ [0x00, 0x53, 0x77, 0x40])
  let bad : Bytes := [0, 0, 0, 8, 1, 0, 0, 0]
  (h.feedEach [transfer ++ bad]).store.queues.map (·.queue.depth) = [0]
    ∧ (h.feedEach [transfer, bad]).store.queues.map (·.queue.depth) = [1]
  := by
  intro h transfer bad
  have opened : h.connection.phase = .opened := by decide +kernel
  have hpending :
      (FrameBuffer.empty defaultMaxFrameSize).push [] = (.ok [], h.connection.frames) := by
    decide +kernel
  have wired : Frame.Wired defaultMaxFrameSize
      ⟨.forBody 0 (transfer.length - FrameHeader.length), transfer.drop FrameHeader.length⟩
      transfer :=
    ⟨by decide +kernel, by decide +kernel, by decide +kernel, by decide +kernel⟩
  have found : FrameHeader.decode? bad = some ⟨8, 1, 0, 0⟩ := by decide
  have stream : [] ++ [transfer ++ bad].flatten = [transfer].flatten ++ bad := by simp
  constructor
  · obtain ⟨earlier, piece, later, each, _, _, text, hpieces, -, heach, -, hclose⟩ :=
      feedEach_refused opened hpending (.cons wired .nil) found rfl stream
    rw [List.filter_cons_of_pos (by decide +kernel), List.filter_nil,
      List.singleton_eq_append_iff] at hpieces
    obtain ⟨rfl, -⟩ | ⟨-, hnil⟩ := hpieces
    · cases heach
      rw [hclose, store_withFrames, readEach_nil, store_close]
      decide +kernel
    · exact absurd hnil (List.cons_ne_nil _ _)
  · decide +kernel

end Hosting

end MessageBroker
