import Mathlib.Data.Finset.Basic
import MessageBroker.Connection.Basic
import MessageBroker.Proofs.Frame.Readers
import MessageBroker.Proofs.Frame.RoundTrip
import MessageBroker.Proofs.Session.Outbox

/-!
# Conversations

What is sent on a connection is a conversation: the protocol header, an open, sessions, and a
close.  A session has its channel to itself, from its begin to its end.  Where nothing was opened
there are no sessions, but there can be a close.
-/

namespace MessageBroker

/-- What is sent on one channel by sessions, one after another: each sends its begin first and its
end last.  It is told whether the last session goes on. -/
inductive Sessions : Bool → List Performative → Prop where
  /-- There was no session. -/
  | none : Sessions false []
  /-- A session begins. -/
  | begins {said : List Performative} (before : Sessions false said) (terms : Begin) :
      Sessions true (said ++ [.beginSession terms])
  /-- A session sends something. -/
  | sends {said : List Performative} (before : Sessions true said) {p : Performative}
      (own : p.isOfSession = true) : Sessions true (said ++ [p])
  /-- A session ends. -/
  | ends {said : List Performative} (before : Sessions true said) (error : Option ErrorReport) :
      Sessions false (said ++ [.endSession error])

namespace Emission

/-- The performative in a frame on a channel. -/
def on? (channel : UInt16) : Emission → Option Performative
  | .header => none
  | .frame other content => if other = channel then some content.performative else none

/-- A frame is neither an open nor a close. -/
inductive Inner : Emission → Prop where
  /-- It begins a session. -/
  | begins (channel : UInt16) (terms : Begin) : Inner (.frame channel ⟨.beginSession terms, none⟩)
  /-- It is sent by a session. -/
  | sends (channel : UInt16) {content : Outgoing} (own : content.performative.isOfSession = true) :
      Inner (.frame channel content)
  /-- It ends a session. -/
  | ends (channel : UInt16) (error : Option ErrorReport) :
      Inner (.frame channel ⟨.endSession error, none⟩)

end Emission

/-- The frames that are sent on a connection: an open, those of the sessions, and a close.  Each
may be lacking, but where there is no open there are no sessions. -/
structure Dialogue (opening inner closing : List Emission) : Prop where
  /-- At most one open is sent. -/
  opens : opening = [] ∨ ∃ terms, opening = [.frame 0 ⟨.openConnection terms, none⟩]
  /-- Without it there are no sessions. -/
  silent : opening = [] → inner = []
  /-- What is sent between is neither an open nor a close. -/
  within : ∀ emission ∈ inner, emission.Inner
  /-- On every channel there is one session after another. -/
  sessions : ∀ channel, ∃ going, Sessions going (inner.filterMap (Emission.on? channel))
  /-- At most one close is sent. -/
  closes : closing = [] ∨ ∃ error, closing = [.frame 0 ⟨.closeConnection error, none⟩]

/-- Where no open was sent there may be a close. -/
theorem Dialogue.unopened {closing : List Emission}
    (closes : closing = [] ∨ ∃ error, closing = [.frame 0 ⟨.closeConnection error, none⟩]) :
  Dialogue [] [] closing
  := by
  constructor
  · apply Or.inl rfl
  · intro _
    rfl
  · simp
  · intro channel
    exact ⟨false, .none⟩
  · exact closes

/-- What is sent on a connection: nothing, or the protocol header and the frames of a dialogue. -/
inductive Conversation : List Emission → Prop where
  /-- Nothing was sent. -/
  | silence : Conversation []
  /-- The header was sent, and frames after it. -/
  | frames {opening inner closing : List Emission} (dialogue : Dialogue opening inner closing) :
      Conversation (.header :: (opening ++ inner ++ closing))

/-! ### What sessions send -/

/-- What sessions send on the channels of a connection, where sessions go on on the channels
`live`. -/
inductive Talk : Finset UInt16 → List Emission → Prop where
  /-- Nothing was sent. -/
  | silence : Talk ∅ []
  /-- A session begins on a channel that is free. -/
  | begins {live : Finset UInt16} {said : List Emission} (before : Talk live said)
      {channel : UInt16} (free : channel ∉ live) (terms : Begin) :
      Talk (insert channel live) (said ++ [.frame channel ⟨.beginSession terms, none⟩])
  /-- A session sends something. -/
  | sends {live : Finset UInt16} {said : List Emission} (before : Talk live said)
      {channel : UInt16} (there : channel ∈ live) {content : Outgoing}
      (own : content.performative.isOfSession = true) : Talk live (said ++ [.frame channel content])
  /-- A session ends. -/
  | ends {live : Finset UInt16} {said : List Emission} (before : Talk live said)
      {channel : UInt16} (there : channel ∈ live) (error : Option ErrorReport) :
      Talk (live.erase channel) (said ++ [.frame channel ⟨.endSession error, none⟩])

namespace Talk

variable {live : Finset UInt16} {said : List Emission}

theorem inner (talk : Talk live said) {emission : Emission} (hmem : emission ∈ said) :
  emission.Inner
  := by
  induction talk with
  | silence => contradiction
  | begins _ _ terms ih =>
      rcases List.mem_append.mp hmem with hbefore | hlast
      · apply ih hbefore
      · rw [List.mem_singleton.mp hlast]
        apply Emission.Inner.begins
  | sends _ _ own ih =>
      rcases List.mem_append.mp hmem with hbefore | hlast
      · apply ih hbefore
      · rw [List.mem_singleton.mp hlast]
        apply Emission.Inner.sends _ own
  | ends _ _ error ih =>
      rcases List.mem_append.mp hmem with hbefore | hlast
      · apply ih hbefore
      · rw [List.mem_singleton.mp hlast]
        apply Emission.Inner.ends

theorem filterMap_on?_append (channel other : UInt16) (content : Outgoing) :
  (said ++ [Emission.frame other content]).filterMap (Emission.on? channel)
    = said.filterMap (Emission.on? channel)
      ++ if other = channel then [content.performative] else []
  := by
  rw [List.filterMap_append]
  congr 1
  by_cases same : other = channel
  · simp [Emission.on?, same]
  · simp [Emission.on?, same]

/-- On every channel there is one session after another. -/
theorem sessions (talk : Talk live said) (channel : UInt16) :
  Sessions (decide (channel ∈ live)) (said.filterMap (Emission.on? channel))
  := by
  induction talk with
  | silence => apply Sessions.none
  | @begins live said _ other free terms ih =>
      rw [filterMap_on?_append]
      split
      · next same =>
          subst same
          rw [decide_eq_false free] at ih
          rw [decide_eq_true (Finset.mem_insert_self _ _)]
          apply ih.begins
      · next ne =>
          simpa [Finset.mem_insert, Ne.symm ne] using ih
  | @sends live said _ other there content own ih =>
      rw [filterMap_on?_append]
      split
      · next same =>
          subst same
          rw [decide_eq_true there] at ih ⊢
          apply ih.sends own
      · rw [List.append_nil]
        exact ih
  | @ends live said _ other there error ih =>
      rw [filterMap_on?_append]
      split
      · next same =>
          subst same
          rw [decide_eq_true there] at ih
          rw [decide_eq_false (Finset.notMem_erase _ _)]
          apply ih.ends
      · next ne =>
          simpa [Finset.mem_erase, Ne.symm ne] using ih

/-- What the sessions send stands between the open and the close. -/
theorem dialogue (talk : Talk live said) (terms : Open) {closing : List Emission}
    (closes : closing = [] ∨ ∃ error, closing = [.frame 0 ⟨.closeConnection error, none⟩]) :
  Dialogue [.frame 0 ⟨.openConnection terms, none⟩] said closing
  := by
  constructor
  · apply Or.inr ⟨terms, rfl⟩
  · simp
  · intro emission
    apply talk.inner
  · intro channel
    exact ⟨_, talk.sessions channel⟩
  · exact closes

end Talk

/-! ### Stages of a conversation -/

/-- How far a conversation has come: what was sent in a phase of a connection, where sessions go
on on the channels `live`. -/
inductive Stage : ConnectionPhase → Finset UInt16 → List Emission → Prop where
  /-- The header of the peer is answered by one. -/
  | silent : Stage .awaitingHeader ∅ []
  /-- The open of the peer is answered by one. -/
  | greeted : Stage .awaitingOpen ∅ [.header]
  /-- Sessions come and go. -/
  | opened {live : Finset UInt16} {said : List Emission} (terms : Open) (talk : Talk live said) :
      Stage .opened live (.header :: .frame 0 ⟨.openConnection terms, none⟩ :: said)
  /-- Nothing more is sent. -/
  | closed {said : List Emission} (conversation : Conversation said) : Stage .closed ∅ said

namespace Stage

variable {phase : ConnectionPhase} {live : Finset UInt16} {said : List Emission}

theorem conversation (stage : Stage phase live said) :
  Conversation said
  := by
  cases stage with
  | silent => apply Conversation.silence
  | greeted => exact .frames (.unopened (.inl rfl))
  | opened terms talk =>
      have frames := Conversation.frames (talk.dialogue terms (.inl rfl))
      rw [List.append_nil] at frames
      exact frames
  | closed conversation => exact conversation

/-- The connection is closed without a close being sent, because the peer is gone. -/
theorem drops (stage : Stage phase live said) :
  Stage .closed ∅ said
  := .closed stage.conversation

theorem greets (stage : Stage .awaitingHeader live said) :
  Stage .awaitingOpen live (said ++ [.header])
  := by
  cases stage
  apply Stage.greeted

/-- The header of the peer is answered, but it is not the right one. -/
theorem refuses (stage : Stage .awaitingHeader live said) :
  Stage .closed live (said ++ [.header])
  := by
  cases stage
  apply Stage.greeted.drops

theorem opens (stage : Stage .awaitingOpen live said) (terms : Open) :
  Stage .opened live (said ++ [.frame 0 ⟨.openConnection terms, none⟩])
  := by
  cases stage
  apply Stage.opened terms .silence

theorem begins (stage : Stage .opened live said) {channel : UInt16} (free : channel ∉ live)
    (terms : Begin) :
  Stage .opened (insert channel live) (said ++ [.frame channel ⟨.beginSession terms, none⟩])
  := by
  cases stage with
  | opened offer talk => apply Stage.opened offer (talk.begins free terms)

/-- Where a session goes on, the connection is open. -/
theorem opened_of_mem (stage : Stage phase live said) {channel : UInt16} (there : channel ∈ live) :
  phase = .opened
  := by
  cases stage with
  | opened => rfl
  | _ => simp at there

/-- Unless the connection is open, no session goes on. -/
theorem live_of_unopened (stage : Stage phase live said) (unopened : phase ≠ .opened) :
  live = ∅
  := by
  cases stage with
  | opened => contradiction
  | _ => rfl

/-- Before the header of the peer is complete, nothing is sent. -/
theorem said_of_awaitingHeader (stage : Stage .awaitingHeader live said) :
  said = []
  := by
  cases stage
  rfl

/-- Before the open of the peer arrives, nothing but the header is sent. -/
theorem said_of_awaitingOpen (stage : Stage .awaitingOpen live said) :
  said = [.header]
  := by
  cases stage
  rfl

theorem ends (stage : Stage phase live said) {channel : UInt16} (there : channel ∈ live)
    (error : Option ErrorReport) :
  Stage phase (live.erase channel) (said ++ [.frame channel ⟨.endSession error, none⟩])
  := by
  obtain rfl := stage.opened_of_mem there
  cases stage with
  | opened offer talk => apply Stage.opened offer (talk.ends there error)

/-- The sessions send what they have to send. -/
theorem sends (stage : Stage phase live said) {told : List Emission}
    (own : ∀ emission ∈ told, ∃ channel ∈ live, ∃ content : Outgoing,
      emission = .frame channel content ∧ content.performative.isOfSession = true) :
  Stage phase live (said ++ told)
  := by
  induction told generalizing said with
  | nil =>
      rw [List.append_nil]
      exact stage
  | cons emission told ih =>
      obtain ⟨⟨channel, there, content, rfl, kind⟩, others⟩ := List.forall_mem_cons.mp own
      rw [List.append_cons]
      apply ih _ others
      obtain rfl := stage.opened_of_mem there
      cases stage with
      | opened offer talk => apply Stage.opened offer (talk.sends there kind)

/-- The connection is closed after the header of the peer was answered. -/
theorem closes (stage : Stage phase live said) (greeted : phase ≠ .awaitingHeader)
    (unclosed : phase ≠ .closed) (error : Option ErrorReport) :
  Stage .closed ∅ (said ++ [.frame 0 ⟨.closeConnection error, none⟩])
  := by
  apply Stage.closed
  cases stage with
  | silent => contradiction
  | greeted => exact .frames (.unopened (.inr ⟨error, rfl⟩))
  | opened terms talk => exact .frames (talk.dialogue terms (.inr ⟨error, rfl⟩))
  | closed => contradiction

end Stage

/-! ### Octets of a conversation -/

/-- What is read from the octets of an emission, the filters of sources in normal form. -/
def Emission.read? (emission : Emission) : Option DecodedFrame :=
  match emission with
  | .header => none
  | .frame channel content =>
    some ⟨channel, some content.performative.normal, content.payload.getD [],
      emission.octets.length⟩

/-- The octets of frames are read as these frames, as long as their sizes fit in their headers. -/
theorem decodeFrames_flatMap {emissions : List Emission}
    (frames : ∀ emission ∈ emissions, emission ≠ .header)
    (bounded : ∀ emission ∈ emissions, emission.octets.length < 2 ^ 32) :
  decodeFrames (emissions.flatMap Emission.octets)
    = (emissions.filterMap Emission.read?, .insufficientData FrameHeader.length)
  := by
  induction emissions with
  | nil => exact decodeFrames_of_error rfl
  | cons emission emissions ih =>
      obtain ⟨frame, other_frames⟩ := List.forall_mem_cons.mp frames
      obtain ⟨short, others_bounded⟩ := List.forall_mem_cons.mp bounded
      cases emission with
      | header => contradiction
      | frame channel content =>
          have first := decodeFrame_encodeFrame channel content.performative content.payload
            (emissions.flatMap Emission.octets) short
          rw [List.flatMap_cons, Emission.octets, decodeFrames_of_ok first, List.drop_left,
            ih other_frames others_bounded]
          rfl

/-- The octets of a conversation are read as its frames. -/
theorem Conversation.decodeFrames {said : List Emission} (conversation : Conversation said)
    (bounded : ∀ emission ∈ said, emission.octets.length < 2 ^ 32) :
  decodeFrames ((said.flatMap Emission.octets).drop protocolHeader.length)
    = (said.filterMap Emission.read?, .insufficientData FrameHeader.length)
  := by
  cases conversation with
  | silence => exact decodeFrames_of_error rfl
  | @frames opening inner closing dialogue =>
      rw [List.flatMap_cons, Emission.octets, List.drop_left]
      apply decodeFrames_flatMap
      · intro emission hmem
        rcases List.mem_append.mp hmem with hmem | hclosing
        · rcases List.mem_append.mp hmem with hopening | hinner
          · rcases dialogue.opens with rfl | ⟨terms, rfl⟩
            · contradiction
            · rw [List.mem_singleton.mp hopening]
              simp
          · cases dialogue.within emission hinner <;> simp
        · rcases dialogue.closes with rfl | ⟨error, rfl⟩
          · contradiction
          · rw [List.mem_singleton.mp hclosing]
            simp
      · intro emission hmem
        exact bounded emission (List.mem_cons_of_mem _ hmem)

end MessageBroker
