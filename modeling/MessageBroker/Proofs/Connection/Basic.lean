import MessageBroker.Connection.Feeding
import MessageBroker.Proofs.Table

/-!
# Connections at work

What happens to a connection happens in steps.  The octets that the peer sends become such steps,
one for every frame.  In every connection that comes about by steps, sessions are there only while
the connection is open, and only on channels that the peer may use.
-/

namespace MessageBroker

namespace Connection

/-- Octets of the protocol header of the peer arrive. -/
def greet (octets : Bytes) (connection : Connection) : Connection :=
  let header :=
    connection.header ++ octets.take (protocolHeader.length - connection.header.length)
  if header.length < protocolHeader.length then { connection with header }
  else
    { connection with
      header
      phase := if header = protocolHeader then .awaitingOpen else .closed
      output := connection.output ++ [.header] }

end Connection

/-- What happens to a connection and the queues of its broker. -/
inductive Hosting.Step where
  /-- Octets of the protocol header arrive. -/
  | greet (octets : Bytes)
  /-- Octets are kept that are no frame yet. -/
  | gather (frames : FrameBuffer)
  /-- A frame arrives. -/
  | frame (frame : Frame)
  /-- Octets arrive that are no frame. -/
  | broken (fault : Fault)
  /-- What waits in the queues is sent. -/
  | pump
  /-- What the peer has not settled on the session of a channel is taken back. -/
  | recover (channel : UInt16)
  /-- The peer is gone. -/
  | shutdown
  /-- What is to be sent is taken. -/
  | takeOutput
  /-- The queues are changed by others. -/
  | elsewhere (store : QueueStore)

namespace Hosting

/-! ### Steps -/

/-- What becomes of a connection by a step.  No frame arrives before the protocol header. -/
def step (h : Hosting) : Step → Hosting
  | .greet octets =>
    if h.connection.phase = .awaitingHeader then h.onConnection (·.greet octets) else h
  | .gather frames => h.onConnection ({ · with frames })
  | .frame frame => if h.connection.phase = .awaitingHeader then h else h.onFrame frame
  | .broken fault => h.fail none fault
  | .pump => h.pump
  | .recover channel => (h.recover channel).2
  | .shutdown => h.shutdown
  | .takeOutput => h.onConnection (·.takeOutput.2)
  | .elsewhere store => { h with store }

/-- What becomes of a connection by steps, one after another. -/
def run (h : Hosting) (steps : List Step) : Hosting :=
  steps.foldl step h

@[simp]
theorem run_nil (h : Hosting) :
  h.run [] = h
  := rfl

@[simp]
theorem run_cons (h : Hosting) (step : Step) (steps : List Step) :
  h.run (step :: steps) = (h.step step).run steps
  := rfl

theorem run_append (h : Hosting) (steps others : List Step) :
  h.run (steps ++ others) = (h.run steps).run others
  := List.foldl_append

/-- A connection comes about by steps from one on which nothing has arrived. -/
def Reachable (h : Hosting) : Prop :=
  ∃ config store steps, run ⟨.start config, store⟩ steps = h

theorem Reachable.run {h : Hosting} (reachable : h.Reachable) (steps : List Step) :
  (h.run steps).Reachable
  := by
  obtain ⟨config, store, before, rfl⟩ := reachable
  use config, store, before ++ steps
  apply run_append

end Hosting

/-! ### What a step does to the channels -/

namespace Connection

/-- The connection is open, and the peer may use a channel. -/
def Offers (connection : Connection) (channel : UInt16) : Prop :=
  connection.phase = .opened ∧ channel ≤ connection.channelMax

/-- Some of the sessions of a connection go on, and others may begin on the given channels. -/
structure Goes (begun : UInt16 → Prop) (connection connection' : Connection) : Prop where
  /-- The phase is the same. -/
  phase : connection'.phase = connection.phase
  /-- The same channels may be used. -/
  channelMax : connection'.channelMax = connection.channelMax
  /-- Every session was there, or begins on one of the channels. -/
  channels : ∀ channel ∈ connection'.channels.keys,
    channel ∈ connection.channels.keys ∨ begun channel

/-- A connection is closed, and its sessions are gone. -/
structure Shut (connection : Connection) : Prop where
  /-- The connection is closed. -/
  closed : connection.phase = .closed
  /-- There are no sessions. -/
  channels : connection.channels = []

variable {begun : UInt16 → Prop} {connection connection' connection'' : Connection}

theorem Goes.of_keys (phase : connection'.phase = connection.phase)
    (channelMax : connection'.channelMax = connection.channelMax)
    (channels : ∀ channel ∈ connection'.channels.keys, channel ∈ connection.channels.keys) :
  connection.Goes begun connection'
  := ⟨phase, channelMax, fun channel hmem => .inl (channels channel hmem)⟩

theorem Goes.refl (connection : Connection) :
  connection.Goes begun connection
  := .of_keys rfl rfl fun _ hmem => hmem

theorem Goes.trans (first : connection.Goes begun connection')
    (second : connection'.Goes begun connection'') :
  connection.Goes begun connection''
  := by
  constructor
  · apply second.phase.trans first.phase
  · apply second.channelMax.trans first.channelMax
  · intro channel hmem
    rcases second.channels channel hmem with hbefore | hbegun
    · apply first.channels channel hbefore
    · apply Or.inr hbegun

theorem Goes.mono {begun' : UInt16 → Prop} (goes : connection.Goes begun connection')
    (h : ∀ channel, begun channel → begun' channel) :
  connection.Goes begun' connection'
  := by
  refine ⟨goes.phase, goes.channelMax, fun channel hmem => ?_⟩
  apply (goes.channels channel hmem).imp_right (h channel)

theorem goes_collect (connection : Connection) :
  connection.Goes begun connection.collect
  := by
  refine .of_keys rfl rfl fun channel hmem => ?_
  rw [collect, Table.keys, List.map_map] at hmem
  exact hmem

theorem goes_takeOutput (connection : Connection) :
  connection.Goes begun connection.takeOutput.2
  := connection.goes_collect.trans (.of_keys rfl rfl fun _ hmem => hmem)

theorem goes_put {channel : UInt16} {slot : SessionChannel}
    (h : connection.channels.get? channel = some slot) (slot' : SessionChannel) :
  connection.Goes begun { connection with channels := connection.channels.put channel slot' }
  := by
  refine .of_keys rfl rfl fun other hmem => ?_
  rcases Table.mem_keys_put.mp hmem with rfl | hbefore
  · apply Table.mem_keys_of_get? h
  · exact hbefore

/-- What becomes of a connection in a step. -/
inductive Proceeds (begun : UInt16 → Prop) (connection connection' : Connection) : Prop where
  /-- Some of its sessions go on, and others may begin. -/
  | goes (goes : connection.Goes begun connection')
  /-- It is closed. -/
  | shut (shut : connection'.Shut)
  /-- The protocol header of the peer arrives. -/
  | greeting (awaiting : connection.phase = .awaitingHeader)
    (channels : connection'.channels = connection.channels)
  /-- It is opened. -/
  | opening (awaiting : connection.phase = .awaitingOpen) (opened : connection'.phase = .opened)
    (channels : connection'.channels = connection.channels)

theorem Proceeds.mono {begun' : UInt16 → Prop} (proceeds : connection.Proceeds begun connection')
    (h : ∀ channel, begun channel → begun' channel) :
  connection.Proceeds begun' connection'
  := by
  cases proceeds with
  | goes goes => apply Proceeds.goes (goes.mono h)
  | shut shut => apply Proceeds.shut shut
  | greeting awaiting channels => apply Proceeds.greeting awaiting channels
  | opening awaiting opened channels => apply Proceeds.opening awaiting opened channels

theorem Proceeds.of_or (h : connection.Goes begun connection' ∨ connection'.Shut) :
  connection.Proceeds begun connection'
  := h.elim .goes .shut

end Connection

namespace Hosting

open Connection

variable {begun : UInt16 → Prop} {h : Hosting}

theorem goes_finishSession (channel : UInt16) (slot : SessionChannel)
    (error : Option ErrorReport) (h : Hosting) :
  h.connection.Goes begun (h.finishSession channel slot error).connection
  := by
  refine .of_keys rfl rfl fun other hmem => ?_
  apply (List.filter_sublist.map _).subset hmem

theorem goes_close (error : Option ErrorReport) (h : Hosting) :
  h.connection.Goes begun (h.close error).connection ∨ (h.close error).connection.Shut
  := by
  rw [close]
  split
  · apply Or.inl (.refl _)
  · apply Or.inr ⟨rfl, rfl⟩

/-- The answer to a fault ends a session, or closes the connection. -/
theorem goes_fail (channel : Option UInt16) (fault : Fault) (h : Hosting) :
  h.connection.Goes begun (h.fail channel fault).connection ∨ (h.fail channel fault).connection.Shut
  := by
  cases fault with
  | session report =>
      cases channel with
      | none => apply goes_close
      | some channel =>
          rw [fail, failSession]
          split
          · apply Or.inl
            apply goes_finishSession
          · apply goes_close
  | _ => apply goes_close

theorem goes_operate {channel : UInt16} {slot : SessionChannel}
    (hget : h.connection.channels.get? channel = some slot) (operation : Operation Unit) :
  h.connection.Goes begun (h.operate channel slot operation).2.connection
  := by
  rw [operate]
  split
  all_goals
    apply goes_put hget

/-! ### Frames -/

theorem goes_onBegin {channel : UInt16} {terms : Begin} {h' : Hosting}
    (opened : h.connection.phase = .opened) (hbegin : h.onBegin channel terms = .ok h') :
  h.connection.Goes (fun other => other = channel ∧ h.connection.Offers channel) h'.connection
  := by
  rw [onBegin] at hbegin
  split at hbegin
  · contradiction
  · split at hbegin
    · contradiction
    · next hwithin =>
        cases hbegin
        refine ⟨rfl, rfl, fun other hmem => ?_⟩
        rcases Table.mem_keys_put.mp hmem with rfl | hbefore
        · apply Or.inr ⟨rfl, opened, UInt16.not_lt.mp hwithin⟩
        · apply Or.inl hbefore

/-- A performative lets the sessions of a connection go on, but for one that it may begin, or
opens or closes the connection. -/
theorem goes_process (greeted : h.connection.phase ≠ .awaitingHeader)
    (live : h.connection.isClosed = false) (channel : UInt16) (p : Performative)
    (payload : Bytes) :
  h.connection.Goes (fun other => other = channel ∧ h.connection.Offers channel)
      (h.process channel p payload).2.connection
    ∨ h.process channel p payload = (none, h.close none)
    ∨ h.connection.phase = .awaitingOpen
      ∧ ∃ terms, h.process channel p payload = (none, h.onOpen terms)
  := by
  unfold process
  split
  · next terms hawaiting => apply Or.inr (.inr ⟨hawaiting, terms, rfl⟩)
  · apply Or.inl (.refl _)
  · apply Or.inl (.refl _)
  · apply Or.inr (.inl rfl)
  · next terms hunopened =>
    have opened : h.connection.phase = .opened := by
      rw [isClosed, decide_eq_false_iff_not] at live
      cases hphase : h.connection.phase with
      | opened => rfl
      | awaitingHeader => exact absurd hphase greeted
      | awaitingOpen => exact absurd hphase hunopened
      | closed => exact absurd hphase live
    cases hbegin : h.onBegin channel terms with
    | ok h' => apply Or.inl (goes_onBegin opened hbegin)
    | error fault => apply Or.inl (.refl _)
  · rw [onEnd]
    split
    · apply Or.inl
      apply goes_finishSession
    · apply Or.inl (.refl _)
  · rw [onSessionPerformative]
    split
    · next slot hget => apply Or.inl (goes_operate hget _)
    · apply Or.inl (.refl _)

section OnFrame

variable {frame : Frame}

/-- Heartbeats, and frames on a closed connection, are passed over. -/
theorem onFrame_of_silent (silent : h.connection.isClosed = true ∨ frame.isHeartbeat = true) :
  h.onFrame frame = h
  := by
  rw [onFrame, if_pos (by simpa using silent)]

variable (live : h.connection.isClosed = false) (holds : frame.isHeartbeat = false)

include live holds

theorem onFrame_of_undecodable {error : DecodeError} (hdecode : decodeBody frame.body = .error error) :
  h.onFrame frame = h.fail (some frame.header.channel) (.decode error)
  := by
  rw [onFrame, if_neg (by simp [live, holds]), hdecode]

variable {p : Performative} {payload : Bytes} (hdecode : decodeBody frame.body = .ok (p, payload))
  {h' : Hosting}

include hdecode

theorem onFrame_of_processed (hprocess : h.process frame.header.channel p payload = (none, h')) :
  h.onFrame frame = h'
  := by
  rw [onFrame, if_neg (by simp [live, holds]), hdecode]
  dsimp only
  rw [hprocess]

theorem onFrame_of_fault {fault : Fault}
    (hprocess : h.process frame.header.channel p payload = (some fault, h')) :
  h.onFrame frame = h'.fail (some frame.header.channel) fault
  := by
  rw [onFrame, if_neg (by simp [live, holds]), hdecode]
  dsimp only
  rw [hprocess]

end OnFrame

theorem proceeds_onFrame (greeted : h.connection.phase ≠ .awaitingHeader) (frame : Frame) :
  h.connection.Proceeds
    (fun other => other = frame.header.channel ∧ h.connection.Offers frame.header.channel)
    (h.onFrame frame).connection
  := by
  cases live : h.connection.isClosed with
  | true =>
      rw [onFrame_of_silent (.inl live)]
      apply Proceeds.goes (.refl _)
  | false =>
      cases holds : frame.isHeartbeat with
      | true =>
          rw [onFrame_of_silent (.inr holds)]
          apply Proceeds.goes (.refl _)
      | false =>
          cases hdecode : decodeBody frame.body with
          | error error =>
              rw [onFrame_of_undecodable live holds hdecode]
              apply Proceeds.of_or
              apply goes_fail
          | ok content =>
              obtain ⟨p, payload⟩ := content
              obtain ⟨fault, h', hprocess⟩ : ∃ fault h',
                  h.process frame.header.channel p payload = (fault, h') := ⟨_, _, rfl⟩
              have hgoes := goes_process greeted live frame.header.channel p payload
              rw [hprocess] at hgoes
              cases fault with
              | none =>
                  rw [onFrame_of_processed live holds hdecode hprocess]
                  rcases hgoes with hgoes | hclose | ⟨hawaiting, terms, hopen⟩
                  · apply Proceeds.goes hgoes
                  · cases hclose
                    apply Proceeds.of_or
                    apply goes_close
                  · cases hopen
                    exact .opening hawaiting rfl rfl
              | some fault =>
                  rw [onFrame_of_fault live holds hdecode hprocess]
                  rcases hgoes with hgoes | hclose | ⟨-, terms, hopen⟩
                  · apply Proceeds.of_or
                    exact (h'.goes_fail _ fault).imp hgoes.trans id
                  · cases hclose
                  · cases hopen

/-! ### Steps -/

theorem goes_foldl {change : Hosting → UInt16 → Hosting}
    (each : ∀ (h : Hosting) channel, h.connection.Goes begun (change h channel).connection)
    (channels : List UInt16) (h : Hosting) :
  h.connection.Goes begun (channels.foldl change h).connection
  := by
  induction channels generalizing h with
  | nil => apply Goes.refl
  | cons channel channels ih => exact (each h channel).trans (ih _)

theorem goes_pumpSessions (h : Hosting) :
  h.connection.Goes begun h.pumpSessions.connection
  := by
  apply goes_foldl
  intro h channel
  split
  · next slot hget => apply goes_operate hget
  · apply Goes.refl

theorem goes_pump (h : Hosting) :
  h.connection.Goes begun h.pump.connection
  := by
  rw [pump]
  split
  · apply h.goes_pumpSessions.trans
    apply goes_collect
  · apply Goes.refl

theorem goes_recover (channel : UInt16) (h : Hosting) :
  h.connection.Goes begun (h.recover channel).2.connection
  := by
  rw [recover]
  split
  · apply Goes.refl
  · next slot hget => apply goes_put hget

/-- A frame arrives on a channel. -/
def Step.On (step : Step) (channel : UInt16) : Prop :=
  ∃ frame, step = .frame frame ∧ frame.header.channel = channel

theorem proceeds_step (h : Hosting) (step : Step) :
  h.connection.Proceeds (fun channel => step.On channel ∧ h.connection.Offers channel)
    (h.step step).connection
  := by
  cases step with
  | greet octets =>
      rw [Hosting.step]
      split
      · next hawaiting =>
          apply Proceeds.greeting hawaiting
          rw [onConnection, greet]
          split <;> rfl
      · apply Proceeds.goes (.refl _)
  | gather frames => exact .goes (.of_keys rfl rfl fun _ hmem => hmem)
  | frame frame =>
      rw [Hosting.step]
      split
      · apply Proceeds.goes (.refl _)
      · next greeted =>
          apply (proceeds_onFrame greeted frame).mono
          rintro other ⟨rfl, offers⟩
          exact ⟨⟨frame, rfl, rfl⟩, offers⟩
  | broken fault =>
      apply Proceeds.of_or
      apply goes_fail
  | pump => apply Proceeds.goes (goes_pump h)
  | recover channel => apply Proceeds.goes (goes_recover channel h)
  | shutdown => apply Proceeds.shut ⟨rfl, rfl⟩
  | takeOutput => exact .goes (goes_takeOutput h.connection)
  | elsewhere store => apply Proceeds.goes (.refl _)

end Hosting

/-! ### Connections that come about -/

/-- The sessions of a connection are there only while it is open, and only on channels that the
peer may use. -/
structure Connection.Sound (connection : Connection) : Prop where
  /-- Before the connection is open, and after that, there are no sessions. -/
  opened : connection.phase ≠ .opened → connection.channels = []
  /-- Sessions are on channels that the peer may use. -/
  within : ∀ channel ∈ connection.channels.keys, channel ≤ connection.channelMax

theorem Connection.Sound.of_nil {connection : Connection} (h : connection.channels = []) :
  connection.Sound
  := by
  constructor
  · exact fun _ => h
  · intro channel hmem
    rw [h] at hmem
    contradiction

namespace Hosting

open Connection

variable {h : Hosting}

theorem sound_step (sound : h.connection.Sound) (step : Step) :
  (h.step step).connection.Sound
  := by
  cases h.proceeds_step step with
  | goes goes =>
      constructor
      · intro hphase
        rw [goes.phase] at hphase
        have hkeys : (h.step step).connection.channels.keys = [] := by
          apply List.eq_nil_iff_forall_not_mem.mpr
          intro channel hmem
          rcases goes.channels channel hmem with hbefore | ⟨-, offers⟩
          · rw [sound.opened hphase] at hbefore
            contradiction
          · exact hphase offers.1
        exact List.map_eq_nil_iff.mp hkeys
      · intro channel hmem
        rw [goes.channelMax]
        rcases goes.channels channel hmem with hbefore | ⟨-, offers⟩
        · apply sound.within channel hbefore
        · exact offers.2
  | shut shut => apply Sound.of_nil shut.channels
  | greeting awaiting channels =>
      apply Sound.of_nil
      rw [channels, sound.opened (by simp [awaiting])]
  | opening awaiting _ channels =>
      apply Sound.of_nil
      rw [channels, sound.opened (by simp [awaiting])]

/-- What is so of a connection on which nothing has arrived, and stays so in every step, is so of
every connection that comes about. -/
theorem Reachable.holds {P : Connection → Prop} (reachable : h.Reachable)
    (start : ∀ config, P (.start config))
    (each : ∀ (h : Hosting) step, P h.connection → P (h.step step).connection) :
  P h.connection
  := by
  obtain ⟨config, store, steps, rfl⟩ := reachable
  have hrun (h : Hosting) (before : P h.connection) : P (h.run steps).connection := by
    induction steps generalizing h with
    | nil => exact before
    | cons step steps ih => exact ih _ (each h step before)
  exact hrun _ (start config)

/-- In every connection that comes about, sessions are there only while it is open. -/
theorem Reachable.sound (reachable : h.Reachable) :
  h.connection.Sound
  := reachable.holds (fun _ => .of_nil rfl) fun _ step sound => sound_step sound step

/-! ### What the peer sends -/

/-- The steps in which octets after the protocol header are dealt with. -/
def arrivals (octets : Bytes) (h : Hosting) : List Step :=
  if h.connection.isClosed || octets.isEmpty then []
  else
    match h.connection.frames.push octets with
    | (.error fault, frames) => [.gather frames, .broken fault]
    | (.ok arrived, frames) => .gather frames :: arrived.map .frame ++ [.pump]

/-- The steps in which octets are dealt with. -/
def feedSteps (octets : Bytes) (h : Hosting) : List Step :=
  if h.connection.phase = .awaitingHeader then
    .greet octets :: (h.onConnection (·.greet octets)).arrivals
      (octets.drop (protocolHeader.length - h.connection.header.length))
  else h.arrivals octets

theorem greeted_onFrame (greeted : h.connection.phase ≠ .awaitingHeader) (frame : Frame) :
  (h.onFrame frame).connection.phase ≠ .awaitingHeader
  := by
  cases proceeds_onFrame greeted frame with
  | goes goes =>
      rw [goes.phase]
      exact greeted
  | shut shut => simp [shut.closed]
  | greeting awaiting => exact absurd awaiting greeted
  | opening _ opened => simp [opened]

theorem foldl_onFrame (greeted : h.connection.phase ≠ .awaitingHeader) (frames : List Frame) :
  frames.foldl onFrame h = h.run (frames.map .frame)
  := by
  induction frames generalizing h with
  | nil => rfl
  | cons frame frames ih =>
      rw [List.foldl_cons, List.map_cons, run_cons, step, if_neg greeted]
      apply ih (greeted_onFrame greeted frame)

theorem feedFrames_eq_run (greeted : h.connection.phase ≠ .awaitingHeader) (octets : Bytes) :
  h.feedFrames octets = h.run (h.arrivals octets)
  := by
  rw [feedFrames, arrivals]
  split
  · rfl
  · obtain ⟨result, frames⟩ := h.connection.frames.push octets
    cases result with
    | error fault => rfl
    | ok arrived =>
        dsimp only
        rw [foldl_onFrame (by exact greeted), List.cons_append, run_cons, run_append]
        rfl

/-- What the peer sends is dealt with in steps, one for every frame. -/
theorem feed_eq_run (octets : Bytes) (h : Hosting) :
  h.feed octets = h.run (h.feedSteps octets)
  := by
  rw [feed, feedSteps]
  split
  · next hawaiting =>
      rw [run_cons, step, if_pos hawaiting]
      dsimp only
      split
      · next hshort =>
          have hgreet : h.onConnection (·.greet octets) = h.onConnection fun connection =>
              { connection with
                header := connection.header
                  ++ octets.take (protocolHeader.length - connection.header.length) } := by
            rw [onConnection, greet, if_pos hshort]
            rfl
          have hnone : octets.drop (protocolHeader.length - h.connection.header.length) = [] := by
            rw [List.length_append, List.length_take] at hshort
            apply List.drop_eq_nil_of_le
            omega
          rw [hnone, hgreet, arrivals, if_pos (by simp)]
          rfl
      · next hlong =>
          have hgreet : h.onConnection (·.greet octets) = h.onConnection fun connection =>
              let header := connection.header
                ++ octets.take (protocolHeader.length - connection.header.length)
              { connection with
                header
                phase := if header = protocolHeader then .awaitingOpen else .closed
                output := connection.output ++ [.header] } := by
            rw [onConnection, greet, if_neg hlong]
            rfl
          rw [hgreet]
          apply feedFrames_eq_run
          change ite _ _ _ ≠ _
          split <;> simp
  · next greeted => apply feedFrames_eq_run greeted

end Hosting

end MessageBroker
