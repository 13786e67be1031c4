import MessageBroker.Proofs.Connection.Reading
import MessageBroker.Proofs.Session.Resting

/-!
# Connections that wait

What happens to a connection makes messages available to others only with a signal.  After an open
connection has sent what waits in the queues, all its links are at rest; so they are after octets
have arrived on it.
-/

namespace MessageBroker

/-! ### Signals of connections -/

namespace Hosting

/-- In a store whose queues are all listed, a message became available only if there was a
signal. -/
structure Signals (h h' : Hosting) : Prop where
  /-- The queues changed with signals. -/
  store : h.store.Listed → h.store.Signals h'.store

variable {h h' h'' : Hosting}

theorem Signals.of_store (same : h'.store = h.store) :
  h.Signals h'
  := by
  constructor
  intro listed
  rw [same]
  apply QueueStore.Signals.refl listed

theorem Signals.refl (h : Hosting) :
  h.Signals h
  := .of_store rfl

theorem Signals.trans (first : h.Signals h') (second : h'.Signals h'') :
  h.Signals h''
  := by
  constructor
  intro listed
  have signals := first.store listed
  apply signals.trans (second.store signals.listed)

/-- The connection alone was changed before. -/
theorem Signals.of_onConnection {change : Connection → Connection}
    (signals : (h.onConnection change).Signals h') :
  h.Signals h'
  := ⟨signals.store⟩

theorem signals_foldl {α : Type} {change : Hosting → α → Hosting}
    (each : ∀ (h : Hosting) a, h.Signals (change h a)) (as : List α) (h : Hosting) :
  h.Signals (as.foldl change h)
  := by
  induction as generalizing h with
  | nil => apply Signals.refl
  | cons a as ih => apply (each h a).trans (ih _)

/-! ### Ends of sessions -/

theorem signals_finishAll (channels : Table UInt16 SessionChannel) {store : QueueStore}
    (listed : store.Listed) :
  store.Signals (finishAll channels store)
  := by
  rw [finishAll]
  generalize channels.rows = slots
  induction slots generalizing store with
  | nil => apply QueueStore.Signals.refl listed
  | cons slot slots ih =>
      have first := (Serving.signals_finish ⟨slot.session, store⟩).store listed
      apply first.trans (ih first.listed)

theorem signals_shutdown (h : Hosting) :
  h.Signals h.shutdown
  := ⟨signals_finishAll h.connection.channels⟩

theorem signals_close (error : Option ErrorReport) (h : Hosting) :
  h.Signals (h.close error)
  := by
  rw [close]
  split
  · apply Signals.refl
  · have gone := signals_shutdown (h.onConnection Connection.collect)
    exact .of_onConnection (gone.trans (.of_store rfl))

theorem signals_finishSession (channel : UInt16) (slot : SessionChannel)
    (error : Option ErrorReport) (h : Hosting) :
  h.Signals (h.finishSession channel slot error)
  := ⟨(Serving.signals_finish ⟨slot.session, h.store⟩).store⟩

theorem signals_fail (channel : Option UInt16) (fault : Fault) (h : Hosting) :
  h.Signals (h.fail channel fault)
  := by
  cases fault with
  | session report =>
      cases channel with
      | none => apply signals_close
      | some channel =>
          rw [fail, failSession]
          split
          · apply signals_finishSession
          · apply signals_close
  | _ => apply signals_close

/-! ### What the peer sends -/

theorem signals_operate {operation : Operation Unit}
    (signals : ∀ s : Serving, s.Signals (operation.after s)) (channel : UInt16)
    (slot : SessionChannel) (h : Hosting) :
  h.Signals (h.operate channel slot operation).2
  := by
  have kept := signals ⟨slot.session, h.store⟩
  rw [operate]
  split
  · next s hok =>
      rw [Operation.after_of_ok hok] at kept
      exact ⟨kept.store⟩
  · next fault s herror =>
      rw [Operation.after_of_error herror] at kept
      exact ⟨kept.store⟩

theorem signals_process (channel : UInt16) (p : Performative) (payload : Bytes) (h : Hosting) :
  h.Signals (h.process channel p payload).2
  := by
  unfold process
  split
  · exact .of_store rfl
  · apply Signals.refl
  · apply Signals.refl
  · apply signals_close
  · next terms _ =>
      rw [onBegin]
      split
      · apply Signals.refl
      · split
        · apply Signals.refl
        · exact .of_store rfl
  · rw [onEnd]
    split
    · apply signals_finishSession
    · apply Signals.refl
  · rw [onSessionPerformative]
    split
    · apply signals_operate
      apply Operation.signals_handle
    · apply Signals.refl

theorem signals_onFrame (h : Hosting) (frame : Frame) :
  h.Signals (h.onFrame frame)
  := by
  rw [onFrame]
  split
  · apply Signals.refl
  · dsimp only
    split
    · apply signals_fail
    · next p payload _ =>
        have processed := h.signals_process frame.header.channel p payload
        split
        · next h' hprocess =>
            rw [hprocess] at processed
            exact processed
        · next fault h' hprocess =>
            rw [hprocess] at processed
            apply processed.trans (signals_fail _ fault h')

/-! ### Sending what waits -/

/-- What waits is sent on the session of a channel, if there is one. -/
def pumpOn (h : Hosting) (channel : UInt16) : Hosting :=
  match h.connection.channels.get? channel with
  | some slot => (operate channel slot (modify Serving.pumpAll) h).2
  | none => h

theorem pumpSessions_eq (h : Hosting) :
  h.pumpSessions = h.connection.channels.keys.foldl pumpOn h
  := rfl

theorem signals_pumpOn (h : Hosting) (channel : UInt16) :
  h.Signals (h.pumpOn channel)
  := by
  rw [pumpOn]
  split
  · apply signals_operate
    apply Serving.signals_pumpAll
  · apply Signals.refl

theorem signals_pump (h : Hosting) :
  h.Signals h.pump
  := by
  rw [pump]
  split
  · rw [pumpSessions_eq]
    apply Signals.trans (signals_foldl signals_pumpOn _ h)
    exact .of_store rfl
  · apply Signals.refl

theorem signals_feedFrames (octets : Bytes) (h : Hosting) :
  h.Signals (h.feedFrames octets)
  := by
  rw [feedFrames]
  split
  · apply Signals.refl
  · split
    · exact .of_onConnection (signals_fail _ _ _)
    · exact .of_onConnection ((signals_foldl signals_onFrame _ _).trans (signals_pump _))

theorem signals_feed (octets : Bytes) (h : Hosting) :
  h.Signals (h.feed octets)
  := by
  rw [feed]
  split
  · dsimp only
    split
    · exact .of_store rfl
    · exact .of_onConnection (signals_feedFrames _ _)
  · apply signals_feedFrames

/-! ### Links at rest -/

/-- Every link of the session on a channel is at rest, if there is one. -/
def RestsOn (channel : UInt16) (h : Hosting) : Prop :=
  ∀ slot, h.connection.channels.get? channel = some slot → slot.session.Rests h.store

/-- Every link of every session is at rest. -/
def Rests (h : Hosting) : Prop :=
  ∀ channel, h.RestsOn channel

/-- As long as messages only become fewer, links stay at rest. -/
theorem Rests.of_waiting (rests : h.Rests) {store : QueueStore}
    (fewer : ∀ id, store.waiting id ⊆ h.store.waiting id) :
  Rests { h with store }
  := by
  intro channel slot there
  apply (rests channel slot there).of_waiting fewer

theorem restsOn_pumpOn_self (channel : UInt16) (h : Hosting) :
  (h.pumpOn channel).RestsOn channel
  := by
  rw [pumpOn]
  split
  · next slot there =>
      intro later there'
      change Table.get? (Table.put channel _ _) channel = _ at there'
      rw [Table.get?_put_self] at there'
      cases there'
      apply Serving.rests_pumpAll ⟨slot.session, h.store⟩
  · next vacant =>
      intro later there
      rw [vacant] at there
      contradiction

theorem restsOn_pumpOn {channel : UInt16} (rests : h.RestsOn channel) (other : UInt16) :
  (h.pumpOn other).RestsOn channel
  := by
  by_cases same : channel = other
  · rw [same]
    apply restsOn_pumpOn_self
  · rw [pumpOn]
    split
    · next slot there =>
        intro later there'
        change Table.get? (Table.put other _ _) channel = _ at there'
        rw [Table.get?_put, if_neg same] at there'
        apply (rests later there').of_waiting
        apply (Serving.dwindles_pumpAll ⟨slot.session, h.store⟩).waiting
    · exact rests

theorem rests_pumpSessions (h : Hosting) :
  h.pumpSessions.Rests
  := by
  intro channel
  rw [pumpSessions_eq]
  apply foldl_of_visited
  · apply restsOn_pumpOn_self
  · intro h other rests
    apply restsOn_pumpOn rests
  · cases there : h.connection.channels.get? channel with
    | some slot => exact .inl (Table.mem_keys_of_get? there)
    | none =>
        right
        intro slot there'
        rw [there] at there'
        contradiction

theorem get?_collect (connection : Connection) (channel : UInt16) :
  connection.collect.channels.get? channel
    = (connection.channels.get? channel).map fun slot =>
        { slot with session := slot.session.takeOutput.2 }
  := by
  rw [← Table.get?_map]
  rfl

/-- What is to be sent is gathered, which changes no link. -/
theorem Rests.collect (rests : h.Rests) :
  (h.onConnection Connection.collect).Rests
  := by
  intro channel slot there
  rw [onConnection, get?_collect] at there
  obtain ⟨before, hbefore, rfl⟩ := Option.map_eq_some_iff.mp there
  exact (rests channel before hbefore).of_same rfl rfl

/-- An open connection that has sent what waits is at rest. -/
theorem rests_pump (opened : h.connection.phase = .opened) :
  h.pump.Rests
  := by
  rw [pump, if_pos opened]
  apply Rests.collect (rests_pumpSessions h)

theorem phase_pump (h : Hosting) :
  h.pump.connection.phase = h.connection.phase
  := by
  have goes : h.connection.Goes (fun _ => False) h.pump.connection := goes_pump h
  apply goes.phase

/-- Octets that have arrived leave the connection at rest if it is open then. -/
theorem rests_feedFrames {octets : Bytes}
    (nonempty : h.connection.phase = .opened → octets ≠ [])
    (opened : (h.feedFrames octets).connection.phase = .opened) :
  (h.feedFrames octets).Rests
  := by
  rw [feedFrames] at opened ⊢
  split at opened
  · next passed =>
      rcases Bool.or_eq_true_iff.mp passed with closed | empty
      · have phase := of_decide_eq_true closed
        rw [opened] at phase
        contradiction
      · exact absurd (List.isEmpty_iff.mp empty) (nonempty opened)
  · next live =>
      rw [if_neg live]
      split at opened
      · next fault frames _ =>
          have closed : (fail none fault (h.onConnection ({ · with frames }))).connection.isClosed
              = true := by
            cases fault <;> apply isClosed_close
          rw [Connection.isClosed, opened] at closed
          contradiction
      · apply rests_pump
        rwa [phase_pump] at opened

theorem rests_feed {octets : Bytes} (nonempty : octets ≠ [])
    (opened : (h.feed octets).connection.phase = .opened) :
  (h.feed octets).Rests
  := by
  rw [feed] at opened ⊢
  split at opened
  · next awaiting =>
      rw [if_pos awaiting]
      dsimp only at opened ⊢
      split at opened
      · cases awaiting.symm.trans opened
      · next long =>
          rw [if_neg long]
          apply rests_feedFrames _ opened
          intro phase
          change ite _ _ _ = _ at phase
          split at phase <;> contradiction
  · next greeted =>
      rw [if_neg greeted]
      apply rests_feedFrames (fun _ => nonempty) opened

end Hosting

end MessageBroker
