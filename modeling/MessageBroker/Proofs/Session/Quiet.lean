import MessageBroker.Proofs.Session.Opening
import MessageBroker.Proofs.Session.Relating

/-!
# Quiet changes

Most of what a session does concerns neither its deliveries to the peer nor its transactions: it
changes the ends of links, counts transfers, and tells the peer.  Such a change is quiet.  The
deliveries that a session has begun are counted by the transfers that begin them.
-/

namespace MessageBroker

/-- Whether an output begins a delivery. -/
def Outgoing.begins (output : Outgoing) : Bool :=
  match output.performative with
  | .transfer transfer => transfer.deliveryId.isSome
  | _ => false

namespace Session

/-- How many of the deliveries that a session has begun are still to be sent. -/
def begun (session : Session) : Nat :=
  session.outbox.countP Outgoing.begins

/-- One session comes from another by a change that begins so many deliveries, but concerns
neither the accounts of unsettled deliveries nor the transactions. -/
structure Begins (count : Nat) (session session' : Session) : Prop where
  /-- The same deliveries are unsettled. -/
  outgoingUnsettled : session'.outgoingUnsettled = session.outgoingUnsettled
  /-- The next delivery has the same number. -/
  nextDeliveryId : session'.nextDeliveryId = session.nextDeliveryId
  /-- The transactions are the same. -/
  transactions : session'.transactions = session.transactions
  /-- So many deliveries were begun. -/
  begun : session'.begun = session.begun + count

/-- One session comes from another by a change that begins no delivery. -/
abbrev Quiet (session session' : Session) : Prop :=
  Begins 0 session session'

theorem Begins.trans {first second : Nat} {session session' session'' : Session}
    (h : Begins first session session') (h' : Begins second session' session'') :
  Begins (first + second) session session''
  := by
  constructor
  · rw [h'.outgoingUnsettled, h.outgoingUnsettled]
  · rw [h'.nextDeliveryId, h.nextDeliveryId]
  · rw [h'.transactions, h.transactions]
  · rw [h'.begun, h.begun, Nat.add_assoc]

theorem Quiet.refl (session : Session) :
  session.Quiet session
  := ⟨rfl, rfl, rfl, rfl⟩

theorem Quiet.trans {session session' session'' : Session} (h : session.Quiet session')
    (h' : session'.Quiet session'') :
  session.Quiet session''
  := Begins.trans h h'

variable (session : Session)

/-! ### Output -/

/-- Dispositions begin no delivery. -/
theorem begun_flush :
  session.flush.begun = session.begun
  := by
  rw [Session.begun, flush, List.countP_append, List.countP_map, Session.begun]
  have hnone : ∀ dispositions : List Disposition,
      dispositions.countP (Outgoing.begins ∘ fun disposition =>
        ⟨.disposition disposition, none⟩) = 0 := by
    intro dispositions
    apply List.countP_eq_zero.mpr
    intro disposition _
    simp [Outgoing.begins]
  rw [hnone, Nat.add_zero]

theorem begins_emit (performative : Performative) (payload : Option Bytes) :
  Begins (if Outgoing.begins ⟨performative, payload⟩ then 1 else 0) session
    (session.emit performative payload)
  := by
  refine ⟨rfl, rfl, rfl, ?_⟩
  have hflush := begun_flush session
  rw [Session.begun] at hflush
  rw [Session.begun, emit, List.countP_append, List.countP_singleton, hflush]

theorem quiet_flush :
  session.Quiet session.flush
  := ⟨rfl, rfl, rfl, begun_flush session⟩

theorem quiet_emit {performative : Performative} {payload : Option Bytes}
    (h : Outgoing.begins ⟨performative, payload⟩ = false) :
  session.Quiet (session.emit performative payload)
  := by
  have hbegins := session.begins_emit performative payload
  rw [h] at hbegins
  exact hbegins

theorem quiet_emitSessionFlow :
  session.Quiet session.emitSessionFlow
  := session.quiet_emit rfl

theorem quiet_emitLinkFlow (store : QueueStore) (handle : UInt32) :
  session.Quiet (session.emitLinkFlow store handle)
  := by
  rw [emitLinkFlow]
  split
  · exact session.quiet_emit rfl
  · exact .refl session

/-! ### Endpoints and settlements -/

theorem quiet_putEndpoint (handle : UInt32) (endpoint : Endpoint) :
  session.Quiet (session.putEndpoint handle endpoint)
  := ⟨rfl, rfl, rfl, rfl⟩

theorem quiet_settle (handle id : UInt32) :
  session.Quiet (session.settle handle id)
  := ⟨rfl, rfl, rfl, rfl⟩

theorem quiet_tell (settlement : Settlement) :
  session.Quiet (session.tell settlement)
  := ⟨rfl, rfl, rfl, rfl⟩

theorem quiet_forget (id : UInt32) :
  session.Quiet (session.forget id)
  := by
  rw [forget]
  split
  · exact ⟨rfl, rfl, rfl, rfl⟩
  · exact .refl session

theorem quiet_onSenderDisposition (disposition : Disposition) :
  session.Quiet (session.onSenderDisposition disposition)
  := related_onSenderDisposition .refl .trans quiet_forget session disposition

end Session

/-! ### Quiet operations -/

/-- One state comes from another by a quiet change of the session, the queues being the same. -/
structure Serving.Quiet (s s' : Serving) : Prop where
  /-- The session was changed quietly. -/
  session : s.session.Quiet s'.session
  /-- The queues are the same. -/
  store : s'.store = s.store

namespace Serving.Quiet

theorem refl (s : Serving) :
  s.Quiet s
  := ⟨.refl s.session, rfl⟩

theorem trans {s s' s'' : Serving} (h : s.Quiet s') (h' : s'.Quiet s'') :
  s.Quiet s''
  := ⟨Session.Quiet.trans h.session h'.session, h'.store.trans h.store⟩

theorem onSession {s : Serving} {change : Session → Session}
    (h : s.session.Quiet (change s.session)) :
  s.Quiet (s.onSession change)
  := ⟨h, rfl⟩

end Serving.Quiet

open Session

theorem Serving.quiet_giveBackCredit (s : Serving) (handle : UInt32) :
  s.Quiet (s.giveBackCredit handle)
  := by
  rw [giveBackCredit]
  split
  · exact .refl s
  · split
    · exact .refl s
    · apply Quiet.onSession
      exact (quiet_putEndpoint _ _ _).trans (quiet_emitLinkFlow _ _ _)

namespace Operation

open Serving

/-- To account for deliveries from the peer is quiet. -/
theorem reckons_quiet :
  Serving.Reckons Serving.Quiet
  where
  refl := .refl
  trans := .trans
  settles _ _ _ := .onSession (quiet_settle _ _ _)
  tells _ _ := .onSession (quiet_tell _ _)
  awaits _ _ := .onSession ⟨rfl, rfl, rfl, rfl⟩

theorem quiet_refuse (endpoint : Endpoint) (assembly : Assembly) (report : ErrorReport)
    (s : Serving) :
  s.Quiet ((refuse endpoint assembly report).after s)
  := related_refuse reckons_quiet endpoint assembly report s

theorem quiet_answer (handle : UInt32) (assembly : Assembly) (outcome : DeliveryState)
    (s : Serving) :
  s.Quiet ((answer handle assembly outcome).after s)
  := related_answer reckons_quiet handle assembly outcome s

theorem quiet_replenishCredit (handle : UInt32) (s : Serving) :
  s.Quiet ((replenishCredit handle).after s)
  := by
  rw [replenishCredit, after_modify]
  split
  · exact .refl s
  · split
    · exact .refl s
    · apply Quiet.onSession
      exact (quiet_putEndpoint _ _ _).trans (quiet_emitLinkFlow _ _ _)

theorem quiet_replenishWindow (s : Serving) :
  s.Quiet (replenishWindow s)
  := by
  apply Quiet.onSession
  split
  · exact .refl _
  · apply Session.Quiet.trans _ (quiet_emitSessionFlow _)
    exact ⟨rfl, rfl, rfl, rfl⟩

theorem quiet_detachWith (handle : UInt32) (report : ErrorReport) (s : Serving) :
  s.Quiet ((detachWith handle report).after s)
  := by
  obtain ⟨same, -⟩ | ⟨endpoint, -, -, parted⟩ := detachWith_cases handle report s
  · rw [same]
    exact .refl s
  · rw [parted]
    apply Quiet.onSession
    apply Session.Quiet.trans _ (quiet_emit _ rfl)
    split
    · exact ⟨rfl, rfl, rfl, rfl⟩
    · exact quiet_putEndpoint _ _ _

theorem quiet_onDetach (detach : Detach) (s : Serving) :
  s.Quiet ((onDetach detach).after s)
  := by
  obtain ⟨-, same⟩ | ⟨endpoint, -, parted⟩ := onDetach_cases detach s
  · rw [same]
    exact .refl s
  · rw [parted]
    apply Quiet.onSession
    have gone : s.session.Quiet (s.session.unlink detach.handle) := ⟨rfl, rfl, rfl, rfl⟩
    split
    · exact gone
    · exact gone.trans (quiet_emit _ rfl)

theorem quiet_onAttach (attach : Attach) (s : Serving) :
  s.Quiet ((onAttach attach).after s)
  := by
  have opened (kind : EndpointKind) (source : Option Source) (target : Option Target) :
      s.session.Quiet (s.session.openLink attach kind source target) :=
    (quiet_emit _ rfl).trans (quiet_putEndpoint _ _ _)
  obtain ⟨-, same⟩ | ⟨-, ⟨kind, -, accepted⟩ | ⟨report, source, target, -, refused⟩⟩ :=
    onAttach_cases attach s
  · rw [same]
    exact .refl s
  · rw [accepted]
    apply Quiet.onSession
    split
    · exact (opened _ _ _).trans (quiet_emitLinkFlow _ _ _)
    · exact opened _ _ _
  · rw [refused]
    exact Quiet.trans (.onSession (opened _ _ _)) (quiet_detachWith _ report _)

/-- A fault of a link is dealt with quietly. -/
theorem quiet_handle (p : Performative) (payload : Bytes) (s : Serving) :
  ((dispatch p payload).after s).Quiet ((handle p payload).after s)
  := by
  obtain h | ⟨key, report, -, h⟩ := handle_cases p payload s
  · rw [h]
    exact .refl _
  · rw [h]
    exact quiet_detachWith key report _

end Operation

end MessageBroker
