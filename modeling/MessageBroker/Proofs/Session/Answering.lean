import MessageBroker.Proofs.Session.Ending
import MessageBroker.Proofs.Session.Lasting

/-!
# Answers to complete deliveries

What the peer is told when a delivery is complete: its outcome, or that its link is detached, and
besides only flows that top up credit and window.  What is to be sent is looked at as it will be
taken, with the settlements that have been gathered turned into dispositions.
-/

namespace MessageBroker

namespace Session

/-- What is to be sent, once the settlements have been turned into dispositions. -/
def pending (session : Session) : List Outgoing :=
  session.flush.outbox

/-- Flows to be sent. -/
def outgoingFlows (flows : List Flow) : List Outgoing :=
  flows.map (⟨.flow ·, none⟩)

/-- The detach to be sent that gives a link up. -/
def outgoingDetach (handle : UInt32) (report : ErrorReport) : Outgoing :=
  ⟨.detach ⟨handle, true, some report⟩, none⟩

/-- Nothing but flows is to be sent besides. -/
def Flows (session session' : Session) : Prop :=
  ∃ flows, session'.pending = session.pending ++ outgoingFlows flows

theorem pending_emit (session : Session) (performative : Performative) (payload : Option Bytes) :
  (session.emit performative payload).pending = session.pending ++ [⟨performative, payload⟩]
  := List.append_nil _

theorem mem_pending_emit (session : Session) (performative : Performative)
    (payload : Option Bytes) :
  ⟨performative, payload⟩ ∈ (session.emit performative payload).pending
  := by
  rw [pending_emit]
  exact List.mem_append_right _ (List.mem_singleton_self _)

namespace Flows

variable {session session' session'' : Session}

theorem of_same (h : session'.pending = session.pending) :
  session.Flows session'
  := ⟨[], h.trans (List.append_nil _).symm⟩

theorem trans (h : session.Flows session') (h' : session'.Flows session'') :
  session.Flows session''
  := by
  obtain ⟨flows, hflows⟩ := h
  obtain ⟨flows', hflows'⟩ := h'
  refine ⟨flows ++ flows', ?_⟩
  rw [hflows', hflows, outgoingFlows, outgoingFlows, outgoingFlows, List.map_append,
    List.append_assoc]

theorem emit (session : Session) (flow : Flow) :
  session.Flows (session.emit (.flow flow) none)
  := ⟨[flow], session.pending_emit _ _⟩

theorem emitLinkFlow (session : Session) (store : QueueStore) (handle : UInt32) :
  session.Flows (session.emitLinkFlow store handle)
  := by
  rw [Session.emitLinkFlow]
  split
  · exact emit session _
  · exact of_same rfl

end Flows

end Session

open Session

namespace Operation

theorem flows_replenishCredit (handle : UInt32) (s : Serving) :
  s.session.Flows ((replenishCredit handle).after s).session
  := by
  rw [replenishCredit, after_modify]
  split
  · exact .of_same rfl
  · split
    · exact .of_same rfl
    · exact Flows.trans (.of_same rfl) (.emitLinkFlow _ _ _)

theorem flows_replenishWindow (s : Serving) :
  s.session.Flows (replenishWindow s).session
  := by
  rw [replenishWindow]
  change s.session.Flows (ite _ _ _)
  split
  · exact .of_same rfl
  · exact Flows.trans (.of_same rfl) (.emit _ _)

/-- When the broker detaches a link, the peer is told so, and nothing else. -/
theorem detachWith_eq_ok {key : UInt32} {endpoint : Endpoint} {s : Serving}
    (hget : s.session.endpoints.get? key = some endpoint)
    (attached : endpoint.link.detachSent = false) (report : ErrorReport) :
  ∃ s', detachWith key report s = .ok () s'
    ∧ s'.session.pending
      = s.session.pending ++ [outgoingDetach endpoint.link.handle report]
  := by
  refine ⟨_, detachWith_of_get? hget attached report, ?_⟩
  change ((ite _ _ _ : Session).emit _ none).pending = _
  rw [pending_emit]
  congr 1
  split <;> rfl

section Complete

variable {s s' : Serving} {transfer : Transfer} {payload : Bytes} {endpoint : Endpoint}
  {assembly : Assembly}

/-- A complete delivery is answered, and the peer is told nothing else but flows. -/
theorem flows_of_completed
    (completed : s.session.completed? (.transfer transfer) payload = some (endpoint, assembly))
    (h : complete endpoint assembly
      (s.onSession fun session => session.count.putEndpoint transfer.handle endpoint)
        = .ok () s') :
  s'.session.Flows ((handle (.transfer transfer) payload).after s).session
  := by
  have hdispatch : dispatch (.transfer transfer) payload s
      = .ok () (replenishWindow ((replenishCredit transfer.handle).after s')) := by
    rw [dispatch, onTransfer_of_completed completed, h]
  rw [after, handle, hdispatch]
  exact (flows_replenishCredit transfer.handle s').trans (flows_replenishWindow _)

/-- The link of a complete delivery is detached, and the peer is told nothing else but flows. -/
theorem detaches_of_completed
    (completed : s.session.completed? (.transfer transfer) payload = some (endpoint, assembly))
    {key : UInt32} {report : ErrorReport}
    (h : complete endpoint assembly
      (s.onSession fun session => session.count.putEndpoint transfer.handle endpoint)
        = .error (.link key report) s')
    {other : Endpoint} (hget : s'.session.endpoints.get? key = some other)
    (attached : other.link.detachSent = false) :
  ∃ flows, ((handle (.transfer transfer) payload).after s).session.pending
    = s'.session.pending ++ outgoingFlows flows ++ [outgoingDetach other.link.handle report]
  := by
  have hdispatch : dispatch (.transfer transfer) payload s
      = .error (.link key report) (replenishWindow s') := by
    rw [dispatch, onTransfer_of_completed completed, h]
  have hget' : (replenishWindow s').session.endpoints.get? key = some other := by
    rw [replenishWindow]
    change (ite _ _ _ : Session).endpoints.get? key = _
    split
    · exact hget
    · exact hget
  obtain ⟨flows, hflows⟩ := flows_replenishWindow s'
  obtain ⟨s'', hok, told⟩ := detachWith_eq_ok hget' attached report
  refine ⟨flows, ?_⟩
  rw [after, handle, hdispatch]
  dsimp only
  rw [hok, ← hflows]
  exact told

end Complete

end Operation

/-! ### Reports -/

namespace Session

/-- The peer is told that a delivery was refused, or that its link is detached, because of an
error; besides only flows are to be sent. -/
def Reports (handle id : UInt32) (report : ErrorReport) (session session' : Session) : Prop :=
  ∃ flows,
    session'.pending
        = (session.tell ⟨id, true, .rejected (some report)⟩).pending ++ outgoingFlows flows
      ∨ session'.pending
        = session.pending ++ outgoingFlows flows ++ [outgoingDetach handle report]

variable {session : Session} {transfer : Transfer} {payload : Bytes} {endpoint : Endpoint}
  {assembly : Assembly}

/-- A delivery is complete on an endpoint that knows its handle and is not detached. -/
theorem Attached.under_of_completed {known : QueueId → Prop} (attached : session.Attached known)
    (completed : session.completed? (.transfer transfer) payload = some (endpoint, assembly)) :
  endpoint.Under known transfer.handle ∧ endpoint.link.detachSent = false
  := by
  obtain ⟨-, before, hget, hsent, -, hcompleted⟩ :=
    Operation.completed?_transfer_eq_some (s := ⟨session, .empty⟩) completed
  obtain ⟨taken, htake, -⟩ := Endpoint.completed?_eq_some_iff.mp hcompleted
  obtain ⟨credit, unsettled, gathered, hsnd⟩ := before.takeAssembly_snd transfer
  have hunder := (attached _ _ hget).takeAssembly transfer
  rw [htake] at hunder hsnd
  refine ⟨hunder, ?_⟩
  obtain rfl : endpoint = _ := hsnd
  exact hsent

end Session

namespace Operation

variable {s : Serving} {transfer : Transfer} {payload : Bytes} {endpoint : Endpoint}
  {assembly : Assembly} {report : ErrorReport}

/-- A complete delivery that comes to nothing is reported to the peer, and no queue changes. -/
theorem reports_of_completed {known : QueueId → Prop} (attached : s.session.Attached known)
    (completed : s.session.completed? (.transfer transfer) payload = some (endpoint, assembly))
    {counted : Serving}
    (hcounted : counted = s.onSession fun session =>
      session.count.putEndpoint transfer.handle endpoint)
    (h : complete endpoint assembly counted = .error (.link endpoint.link.handle report) counted
      ∨ complete endpoint assembly counted
        = .ok () (counted.onSession fun session =>
            (session.settle endpoint.link.handle assembly.id).tell
              ⟨assembly.id, true, .rejected (some report)⟩)) :
  ((handle (.transfer transfer) payload).after s).store = s.store
    ∧ s.session.Reports transfer.handle assembly.id report
        ((handle (.transfer transfer) payload).after s).session
  := by
  obtain ⟨hunder, hsent⟩ := attached.under_of_completed completed
  have hstore := (quiet_of_completed completed).store
  rw [← hcounted] at hstore
  subst hcounted
  rw [(quiet_handle (.transfer transfer) payload s).store]
  change ((onTransfer transfer payload).after s).store = _ ∧ _
  rw [hstore]
  rcases h with herror | hok
  · rw [after_of_error herror]
    refine ⟨rfl, ?_⟩
    have hget : (s.onSession fun session => session.count.putEndpoint transfer.handle endpoint
        ).session.endpoints.get? endpoint.link.handle = some endpoint := by
      rw [hunder.handle]
      exact Table.get?_put_self _ _ _
    obtain ⟨flows, hflows⟩ := detaches_of_completed completed herror hget hsent
    rw [hunder.handle] at hflows
    exact ⟨flows, .inr hflows⟩
  · rw [after_of_ok hok]
    refine ⟨rfl, ?_⟩
    obtain ⟨flows, hflows⟩ := flows_of_completed completed hok
    exact ⟨flows, .inl hflows⟩

/-- A delivery is refused by an outcome, or by a fault of its link. -/
theorem refuse_eq (endpoint : Endpoint) (assembly : Assembly) (report : ErrorReport)
    (s : Serving) :
  refuse endpoint assembly report s = .error (.link endpoint.link.handle report) s
    ∨ refuse endpoint assembly report s
      = .ok () (s.onSession fun session =>
          (session.settle endpoint.link.handle assembly.id).tell
            ⟨assembly.id, true, .rejected (some report)⟩)
  := by
  rw [refuse]
  split
  · exact .inl rfl
  · exact .inr rfl

end Operation

end MessageBroker
