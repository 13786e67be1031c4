import MessageBroker.Proofs.Connection.Basic

/-!
# Sessions ended for a fault

A fault of a session ends it, and leaves the connection and its other sessions as they are.  What
the peer sends on the channel before it learns of this is not passed over, unless it is a
heartbeat: the next frame begins another session, or closes the connection with all its sessions.
-/

namespace MessageBroker

/-- A frame begins a session. -/
def Frame.Begins (frame : Frame) (terms : Begin) : Prop :=
  ∃ payload, decodeBody frame.body = .ok (.beginSession terms, payload)

/-- The frame of a performative without payload. -/
def Frame.carrying (channel : UInt16) (p : Performative) : Frame :=
  ⟨.forBody channel p.encode.length, p.encode⟩

namespace Hosting

open Connection

variable {h h' : Hosting} {channel : UInt16} {frame : Frame} {report : ErrorReport}

/-! ### The fault -/

/-- A frame is at fault for the session on its channel. -/
structure Raises (frame : Frame) (report : ErrorReport) (h : Hosting) : Prop where
  /-- The connection is not closed. -/
  live : h.connection.isClosed = false
  /-- The frame is no heartbeat. -/
  holds : frame.isHeartbeat = false
  /-- The performative in the frame is at fault. -/
  raised : ∃ p payload h', decodeBody frame.body = .ok (p, payload)
    ∧ h.process frame.header.channel p payload = (some (.session report), h')

/-- The session on a channel is ended for a fault, and the peer is told so; the connection stays
open, and its other sessions are as they were. -/
structure EndsSession (channel : UInt16) (report : ErrorReport) (h h' : Hosting) : Prop where
  /-- The connection is open. -/
  opened : h'.connection.phase = .opened
  /-- The peer may use the same channels. -/
  channelMax : h'.connection.channelMax = h.connection.channelMax
  /-- Nothing changes but on the channel. -/
  sessions : ∀ other, h'.connection.channels.get? other
    = if other = channel then none else h.connection.channels.get? other
  /-- The peer is told, after what the session had to send. -/
  told : ∃ slot, ∃ contents : List Outgoing, h.connection.channels.get? channel = some slot
    ∧ h'.connection.output = h.connection.output ++ contents.map (.frame slot.outgoing)
      ++ [.frame slot.outgoing ⟨.endSession (some report), none⟩]

/-- A fault of a session comes from an operation on it. -/
theorem process_eq_session {p : Performative} {payload : Bytes}
    (hprocess : h.process channel p payload = (some (.session report), h')) :
  ∃ slot session, h.connection.channels.get? channel = some slot
    ∧ h'.connection = { h.connection with
        channels := h.connection.channels.put channel { slot with session } }
  := by
  unfold process at hprocess
  split at hprocess
  · cases hprocess
  · cases hprocess
  · cases hprocess
  · cases hprocess
  · rw [onBegin] at hprocess
    split at hprocess
    · cases hprocess
    · split at hprocess <;> cases hprocess
  · rw [onEnd] at hprocess
    split at hprocess <;> cases hprocess
  · rw [onSessionPerformative] at hprocess
    split at hprocess
    · next slot hget =>
        rw [operate] at hprocess
        split at hprocess
        · cases hprocess
        · next fault s hfault =>
            cases hprocess
            exact ⟨slot, s.session, hget, rfl⟩
    · cases hprocess

theorem opened_of_get? (sound : h.connection.Sound) {slot : SessionChannel}
    (hget : h.connection.channels.get? channel = some slot) :
  h.connection.phase = .opened
  := by
  by_contra hphase
  rw [sound.opened hphase] at hget
  contradiction

theorem endsSession_of_raises (sound : h.connection.Sound) (raises : h.Raises frame report) :
  EndsSession frame.header.channel report h (h.onFrame frame)
  := by
  obtain ⟨p, payload, h', hdecode, hprocess⟩ := raises.raised
  obtain ⟨slot, session, hget, hput⟩ := process_eq_session hprocess
  have hget' : h'.connection.channels.get? frame.header.channel = some { slot with session } := by
    rw [hput]
    apply Table.get?_put_self
  rw [onFrame_of_fault raises.live raises.holds hdecode hprocess, fail, failSession, hget']
  dsimp only
  rw [finishSession, hput]
  constructor
  · apply opened_of_get? sound hget
  · rfl
  · intro other
    change (Table.erase _ _).get? other = _
    rw [Table.erase_put, Table.get?_erase]
  · exact ⟨slot, _, hget, rfl⟩

/-! ### What comes on the channel afterwards -/

/-- The connection is closed with all its sessions, and the peer is told so. -/
structure Closes (h h' : Hosting) : Prop where
  /-- The connection is closed, and its sessions are gone. -/
  shut : h'.connection.Shut
  /-- The peer is told, after what the sessions had to send. -/
  told : ∃ error, h'.connection.output
    = h.connection.collect.output ++ [.frame 0 ⟨.closeConnection error, none⟩]

/-- A session is begun on a channel, and the peer is told so; the other sessions are as they
were. -/
structure BeginsSession (channel : UInt16) (terms : Begin) (h h' : Hosting) : Prop where
  /-- The connection is open. -/
  opened : h'.connection.phase = .opened
  /-- Nothing changes but on the channel. -/
  sessions : ∀ other, h'.connection.channels.get? other
    = if other = channel then some ⟨h.connection.freeChannel, .ofBegin terms
        (h.connection.config.sessionLimits h.connection.maxFrameSize)⟩
      else h.connection.channels.get? other
  /-- The peer is told. -/
  told : ∃ reply, h'.connection.output
    = h.connection.output ++ [.frame h.connection.freeChannel ⟨.beginSession reply, none⟩]

theorem closes_close (live : h.connection.isClosed = false) (error : Option ErrorReport) :
  h.Closes (h.close error)
  := by
  rw [close, if_neg (by simp [live])]
  constructor
  · exact ⟨rfl, rfl⟩
  · exact ⟨error, rfl⟩

theorem live_of_opened (opened : h.connection.phase = .opened) :
  h.connection.isClosed = false
  := by
  simp [isClosed, opened]

/-- Where there is no session on a channel of an open connection, a frame that begins one does
so. -/
theorem onFrame_of_begins (opened : h.connection.phase = .opened)
    (vacant : h.connection.channels.get? frame.header.channel = none)
    (within : frame.header.channel ≤ h.connection.channelMax) {terms : Begin}
    (begins : frame.Begins terms) (holds : frame.isHeartbeat = false) :
  BeginsSession frame.header.channel terms h (h.onFrame frame)
  := by
  obtain ⟨payload, hdecode⟩ := begins
  have hbegin : ∃ h', h.onBegin frame.header.channel terms = .ok h'
      ∧ BeginsSession frame.header.channel terms h h' := by
    rw [onBegin, Table.has, vacant, if_neg (by simp), if_neg (UInt16.not_lt.mpr within)]
    refine ⟨_, rfl, opened, fun other => ?_, _, rfl⟩
    apply Table.get?_put
  obtain ⟨h', hbegin, hbegins⟩ := hbegin
  have hprocess : h.process frame.header.channel (.beginSession terms) payload = (none, h') := by
    unfold process
    rw [opened]
    dsimp only
    rw [hbegin]
    rfl
  rw [onFrame_of_processed (live_of_opened opened) holds hdecode hprocess]
  exact hbegins

/-- Where there is no session on a channel of an open connection, every performative but a begin
is at fault for the connection, or closes it. -/
theorem process_of_vacant (opened : h.connection.phase = .opened)
    (vacant : h.connection.channels.get? channel = none) {p : Performative}
    (not : ∀ terms, p ≠ .beginSession terms) (payload : Bytes) :
  h.process channel p payload = (none, h.close none)
    ∨ ∃ report, h.process channel p payload = (some (.connection report), h)
  := by
  unfold process
  rw [opened]
  cases p with
  | openConnection terms => exact .inr ⟨_, rfl⟩
  | closeConnection error => exact .inl rfl
  | beginSession terms => exact absurd rfl (not terms)
  | endSession error =>
      dsimp only
      rw [onEnd, vacant]
      exact .inr ⟨_, rfl⟩
  | _ =>
      dsimp only
      rw [onSessionPerformative, vacant]
      exact .inr ⟨_, rfl⟩

/-- Where there is no session on a channel of an open connection, a frame that begins none closes
the connection. -/
theorem onFrame_of_not_begins (opened : h.connection.phase = .opened)
    (vacant : h.connection.channels.get? frame.header.channel = none)
    (not : ∀ terms, ¬ frame.Begins terms) (holds : frame.isHeartbeat = false) :
  h.Closes (h.onFrame frame)
  := by
  have live := live_of_opened opened
  cases hdecode : decodeBody frame.body with
  | error error =>
      rw [onFrame_of_undecodable live holds hdecode]
      apply closes_close live
  | ok content =>
      obtain ⟨p, payload⟩ := content
      have hnot : ∀ terms, p ≠ .beginSession terms := by
        rintro terms rfl
        exact not terms ⟨payload, hdecode⟩
      rcases process_of_vacant opened vacant hnot payload with hclose | ⟨report, hfault⟩
      · rw [onFrame_of_processed live holds hdecode hclose]
        apply closes_close live
      · rw [onFrame_of_fault live holds hdecode hfault]
        apply closes_close live

/-! ### Until the peer learns of it -/

/-- The connection is closed, or it is open, the peer may use a channel, and there is no session
on it. -/
def Forgotten (channel : UInt16) (connection : Connection) : Prop :=
  connection.phase = .closed
    ∨ connection.Offers channel ∧ connection.channels.get? channel = none

theorem Forgotten.step (forgotten : Forgotten channel h.connection) {step : Step}
    (elsewhere : ¬ step.On channel) :
  Forgotten channel (h.step step).connection
  := by
  cases h.proceeds_step step with
  | goes goes =>
      rcases forgotten with closed | ⟨⟨opened, within⟩, vacant⟩
      · apply Or.inl
        rw [goes.phase, closed]
      · refine .inr ⟨⟨by rw [goes.phase, opened], by rwa [goes.channelMax]⟩, ?_⟩
        cases later : (h.step step).connection.channels.get? channel with
        | none => rfl
        | some slot =>
            rcases goes.channels channel (Table.mem_keys_of_get? later) with before | ⟨on, -⟩
            · exact absurd before (Table.get?_eq_none_iff.mp vacant)
            · exact absurd on elsewhere
  | shut shut => exact .inl shut.closed
  | greeting awaiting channels =>
      have phase := forgotten.imp_right (·.1.1)
      simp [awaiting] at phase
  | opening awaiting opened channels =>
      have phase := forgotten.imp_right (·.1.1)
      simp [awaiting] at phase

theorem Forgotten.run (forgotten : Forgotten channel h.connection) {steps : List Step}
    (elsewhere : ∀ step ∈ steps, ¬ step.On channel) :
  Forgotten channel (h.run steps).connection
  := by
  induction steps generalizing h with
  | nil => exact forgotten
  | cons step steps ih =>
      obtain ⟨first, others⟩ := List.forall_mem_cons.mp elsewhere
      exact ih (forgotten.step first) others

/-- A fault of a session ends it, and leaves the connection open and the other sessions as they
were.  But the session is forgotten at once: whatever happens meanwhile, the next frame of the peer
on the channel begins another session or closes the connection with all its sessions.  This holds
of the peer's own answer to the end of the session, too. -/
theorem fault_ends_session_and_forgets (reachable : h.Reachable) (raises : h.Raises frame report) :
  EndsSession frame.header.channel report h (h.onFrame frame)
    ∧ ∀ steps, (∀ step ∈ steps, ¬ step.On frame.header.channel) →
        ((h.onFrame frame).run steps).connection.isClosed = false →
          ∀ next : Frame, next.header.channel = frame.header.channel → next.isHeartbeat = false →
            (∃ terms, next.Begins terms ∧ BeginsSession frame.header.channel terms
                ((h.onFrame frame).run steps) (((h.onFrame frame).run steps).onFrame next))
              ∨ (∀ terms, ¬ next.Begins terms) ∧ Closes
                ((h.onFrame frame).run steps) (((h.onFrame frame).run steps).onFrame next)
  := by
  have ends := endsSession_of_raises reachable.sound raises
  refine ⟨ends, ?_⟩
  intro steps elsewhere live next same holds
  have forgotten : Forgotten frame.header.channel (h.onFrame frame).connection := by
    refine .inr ⟨⟨ends.opened, ?_⟩, by rw [ends.sessions, if_pos rfl]⟩
    obtain ⟨slot, -, there, -⟩ := ends.told
    rw [ends.channelMax]
    exact reachable.sound.within _ (Table.mem_keys_of_get? there)
  rcases forgotten.run elsewhere with closed | ⟨⟨opened, within⟩, vacant⟩
  · rw [isClosed, closed] at live
    contradiction
  · rw [← same] at within vacant ⊢
    by_cases begins : ∃ terms, next.Begins terms
    · obtain ⟨terms, begins⟩ := begins
      exact .inl ⟨terms, begins, onFrame_of_begins opened vacant within begins holds⟩
    · have not := not_exists.mp begins
      exact .inr ⟨not, onFrame_of_not_begins opened vacant not holds⟩

/-- A link is detached that there is not, which ends its session.  The peer answers this, and loses
its other session. -/
theorem answered_end_closes_connection :
  let h := run ⟨.start .standard, .empty⟩
    [.greet protocolHeader,
      .frame (.carrying 0 (.openConnection ⟨"peer", none, none, none, none⟩)),
      .frame (.carrying 0 (.beginSession ⟨none, 0, 1, 1, none⟩)),
      .frame (.carrying 1 (.beginSession ⟨none, 0, 1, 1, none⟩))]
  let ended := h.onFrame (.carrying 0 (.detach ⟨5, true, none⟩))
  ended.connection.phase = .opened ∧ ended.connection.channels.keys = [1]
    ∧ (ended.onFrame (.carrying 0 (.endSession none))).connection.Shut
  := by
  intro h ended
  have reachable : h.Reachable := ⟨.standard, .empty, _, rfl⟩
  have raises : h.Raises (.carrying 0 (.detach ⟨5, true, none⟩))
      (.of .unattachedHandle "detach on unattached handle 5") :=
    ⟨rfl, rfl, _, _, _, rfl, rfl⟩
  obtain ⟨ends, forgets⟩ := fault_ends_session_and_forgets reachable raises
  refine ⟨ends.opened, rfl, ?_⟩
  have answer := forgets [] (by simp) rfl (.carrying 0 (.endSession none)) rfl rfl
  rcases answer with ⟨terms, ⟨payload, begins⟩, -⟩ | ⟨-, closes⟩
  · have ends : decodeBody (Frame.carrying 0 (.endSession none)).body
        = .ok (.endSession none, []) := rfl
    rw [ends] at begins
    cases begins
  · exact closes.shut

end Hosting

end MessageBroker
