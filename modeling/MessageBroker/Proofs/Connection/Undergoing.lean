import MessageBroker.Proofs.Connection.Basic
import MessageBroker.Proofs.World.Basic

/-!
# What a connection undergoes

Whatever arrives on a connection, and whatever else is done with it, changes it in a few ways only,
each under a condition of its own.  So what holds along each of them holds along everything that is
done with a connection, but for the taking of its output.
-/

namespace MessageBroker

namespace Hosting

/-- One state of a connection and its queues comes from another. -/
inductive Undergoes : Hosting → Hosting → Prop where
  /-- Nothing happens. -/
  | refl (h : Hosting) : Undergoes h h
  /-- One thing happens after another. -/
  | trans {h h' h'' : Hosting} (first : Undergoes h h') (second : Undergoes h' h'') :
      Undergoes h h''
  /-- Octets are kept that are no header and no frame yet. -/
  | keep (h : Hosting) (header : Bytes) (frames : FrameBuffer) :
      Undergoes h (h.onConnection ({ · with header, frames }))
  /-- The queues are changed by others. -/
  | elsewhere (h : Hosting) (store : QueueStore) : Undergoes h { h with store }
  /-- The header of the peer is answered, whether it is the right one or not. -/
  | greet {h : Hosting} (awaiting : h.connection.phase = .awaitingHeader) (header : Bytes) :
      Undergoes h (h.onConnection fun connection =>
        { connection with
          header
          phase := if header = protocolHeader then .awaitingOpen else .closed
          output := connection.output ++ [.header] })
  /-- The connection is opened. -/
  | opens {h : Hosting} (awaiting : h.connection.phase = .awaitingOpen) (terms : Open) :
      Undergoes h (h.onOpen terms)
  /-- A session begins. -/
  | begins {h h' : Hosting} (opened : h.connection.phase = .opened) {channel : UInt16}
      {terms : Begin} (hbegin : h.onBegin channel terms = .ok h') : Undergoes h h'
  /-- Something is done with a session. -/
  | serve {h : Hosting} {channel : UInt16} {slot : SessionChannel}
      (there : h.connection.channels.get? channel = some slot) (act : Session.Act) :
      Undergoes h
        ⟨{ h.connection with
            channels := h.connection.channels.put channel
              { slot with session := (act.run ⟨slot.session, h.store⟩).2.session } },
          (act.run ⟨slot.session, h.store⟩).2.store⟩
  /-- A session ends. -/
  | finishes {h : Hosting} {channel : UInt16} {slot : SessionChannel}
      (there : h.connection.channels.get? channel = some slot) (error : Option ErrorReport) :
      Undergoes h (h.finishSession channel slot error)
  /-- What the sessions have to send is gathered. -/
  | collects (h : Hosting) : Undergoes h (h.onConnection Connection.collect)
  /-- The peer is gone. -/
  | drops (h : Hosting) : Undergoes h h.shutdown
  /-- The connection is closed, and the peer is told. -/
  | closes {h : Hosting} (greeted : h.connection.phase ≠ .awaitingHeader)
      (live : h.connection.isClosed = false) (error : Option ErrorReport) :
      Undergoes h (h.close error)

variable {h h' : Hosting}

/-! ### Ends -/

theorem undergoes_close (greeted : h.connection.phase ≠ .awaitingHeader)
    (error : Option ErrorReport) :
  h.Undergoes (h.close error)
  := by
  cases live : h.connection.isClosed with
  | false => exact .closes greeted live error
  | true =>
      rw [close, if_pos live]
      exact .refl h

theorem undergoes_fail (greeted : h.connection.phase ≠ .awaitingHeader)
    (channel : Option UInt16) (fault : Fault) :
  h.Undergoes (h.fail channel fault)
  := by
  cases fault with
  | session report =>
      cases channel with
      | none => apply undergoes_close greeted
      | some channel =>
          rw [fail, failSession]
          split
          · next slot there => exact .finishes there (some report)
          · apply undergoes_close greeted
  | _ => apply undergoes_close greeted

/-! ### Sessions -/

theorem undergoes_operate {channel : UInt16} {slot : SessionChannel}
    (there : h.connection.channels.get? channel = some slot) {operation : Operation Unit}
    (act : Session.Act)
    (does : operation.after ⟨slot.session, h.store⟩ = (act.run ⟨slot.session, h.store⟩).2) :
  h.Undergoes (h.operate channel slot operation).2
  := by
  have serve := Undergoes.serve there act
  rw [← does] at serve
  rw [operate]
  split
  · next s hok =>
      rw [Operation.after_of_ok hok] at serve
      exact serve
  · next fault s herror =>
      rw [Operation.after_of_error herror] at serve
      exact serve

/-- What waits in the queues is sent on every session. -/
theorem undergoes_pumpSessions (h : Hosting) :
  h.Undergoes h.pumpSessions
  := by
  rw [pumpSessions]
  generalize h.connection.channels.keys = channels
  induction channels generalizing h with
  | nil => exact .refl h
  | cons channel channels ih =>
      rw [List.foldl_cons]
      apply Undergoes.trans _ (ih _)
      split
      · next slot there => exact undergoes_operate there .pumpAll rfl
      · exact .refl h

theorem undergoes_pump (h : Hosting) :
  h.Undergoes h.pump
  := by
  rw [pump]
  split
  · exact h.undergoes_pumpSessions.trans (.collects _)
  · exact .refl h

theorem undergoes_recover (channel : UInt16) (h : Hosting) :
  h.Undergoes (h.recover channel).2
  := by
  rw [recover]
  split
  · exact .refl h
  · next slot there => exact .serve there .recover

/-! ### Frames -/

theorem undergoes_process (greeted : h.connection.phase ≠ .awaitingHeader)
    (live : h.connection.isClosed = false) (channel : UInt16) (p : Performative)
    (payload : Bytes) :
  h.Undergoes (h.process channel p payload).2
  := by
  unfold process
  split
  · next terms awaiting => exact .opens awaiting terms
  · exact .refl h
  · exact .refl h
  · exact .closes greeted live none
  · next terms unopened =>
      have opened : h.connection.phase = .opened := by
        rw [Connection.isClosed, decide_eq_false_iff_not] at live
        cases hphase : h.connection.phase with
        | opened => rfl
        | awaitingHeader => exact absurd hphase greeted
        | awaitingOpen => exact absurd hphase unopened
        | closed => exact absurd hphase live
      cases hbegin : h.onBegin channel terms with
      | ok h' => exact .begins opened hbegin
      | error fault => exact .refl h
  · rw [onEnd]
    split
    · next slot there => exact .finishes there none
    · exact .refl h
  · rw [onSessionPerformative]
    split
    · next slot there => exact undergoes_operate there (.handle _ _) rfl
    · exact .refl h

theorem undergoes_onFrame (greeted : h.connection.phase ≠ .awaitingHeader) (frame : Frame) :
  h.Undergoes (h.onFrame frame)
  := by
  cases live : h.connection.isClosed with
  | true =>
      rw [onFrame_of_silent (.inl live)]
      exact .refl h
  | false =>
      cases holds : frame.isHeartbeat with
      | true =>
          rw [onFrame_of_silent (.inr holds)]
          exact .refl h
      | false =>
          cases hdecode : decodeBody frame.body with
          | error error =>
              rw [onFrame_of_undecodable live holds hdecode]
              apply undergoes_fail greeted
          | ok content =>
              obtain ⟨p, payload⟩ := content
              have processed := undergoes_process greeted live frame.header.channel p payload
              have goes := goes_process greeted live frame.header.channel p payload
              obtain ⟨fault, h', hprocess⟩ : ∃ fault h',
                  h.process frame.header.channel p payload = (fault, h') := ⟨_, _, rfl⟩
              rw [hprocess] at processed goes
              cases fault with
              | none =>
                  rw [onFrame_of_processed live holds hdecode hprocess]
                  exact processed
              | some fault =>
                  rw [onFrame_of_fault live holds hdecode hprocess]
                  apply processed.trans
                  apply undergoes_fail
                  rcases goes with goes | hclose | ⟨-, terms, hopen⟩
                  · rw [goes.phase]
                    exact greeted
                  · cases hclose
                  · cases hopen

theorem undergoes_frames (greeted : h.connection.phase ≠ .awaitingHeader) (frames : List Frame) :
  h.Undergoes (frames.foldl onFrame h)
  := by
  induction frames generalizing h with
  | nil => exact .refl h
  | cons frame frames ih =>
      exact (undergoes_onFrame greeted frame).trans (ih (greeted_onFrame greeted frame))

/-! ### Octets -/

/-- Octets arrive after the protocol header. -/
theorem undergoes_feedFrames (greeted : h.connection.phase ≠ .awaitingHeader) (octets : Bytes) :
  h.Undergoes (h.feedFrames octets)
  := by
  rw [feedFrames]
  split
  · exact .refl h
  · generalize h.connection.frames.push octets = given
    obtain ⟨result, frames⟩ := given
    apply Undergoes.trans (.keep h h.connection.header frames)
    cases result with
    | error fault => exact undergoes_fail (by exact greeted) none fault
    | ok arrived => exact (undergoes_frames (by exact greeted) arrived).trans (undergoes_pump _)

/-- Whatever octets arrive, they are dealt with. -/
theorem undergoes_feed (octets : Bytes) (h : Hosting) :
  h.Undergoes (h.feed octets)
  := by
  rw [feed]
  split
  · next awaiting =>
      dsimp only
      split
      · exact .keep h _ h.connection.frames
      · apply (Undergoes.greet awaiting _).trans
        apply undergoes_feedFrames
        change ite _ _ _ ≠ _
        split <;> simp
  · next greeted => apply undergoes_feedFrames greeted

end Hosting

end MessageBroker
