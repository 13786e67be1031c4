import MessageBroker.Proofs.Session.Replenishing
import MessageBroker.Proofs.Session.Speaking

/-!
# What a session admits

How many transfers a session admits, and which number the next one has, is changed by transfers
alone: every transfer is counted, whatever comes of it, and once half of the window is used it is
opened anew and the peer is told.  Apart from that the windows are told, in a flow that names no
link, only when the peer asks for it.  As long as the window is open, no fault is about it.
-/

namespace MessageBroker

open Session

/-! ### Admission -/

namespace Session.Act

/-- Whether the peer sends a transfer. -/
def transfers : Session.Act → Bool
  | .handle (.transfer _) _ => true
  | _ => false

/-- Whether the peer asks for the windows without naming a link. -/
def asks : Session.Act → Bool
  | .handle (.flow flow) _ => flow.handle.isNone && flow.echo
  | _ => false

end Session.Act

/-- The window and the number of the next transfer that an output tells, if it is a flow that names
no link. -/
def Outgoing.windows? (output : Outgoing) : Option (UInt32 × Option UInt32) :=
  match output.performative with
  | .flow flow =>
    if flow.handle = none then some (flow.incomingWindow, flow.nextIncomingId) else none
  | _ => none

/-- What the peer may send. -/
structure Admission where
  /-- What was told about it in flows that name no link. -/
  told : List (UInt32 × Option UInt32)
  /-- The number of the next transfer. -/
  next : UInt32
  /-- How many transfers are admitted. -/
  window : UInt32
  /-- How many transfers are admitted at most. -/
  limit : UInt32

namespace Admission

/-- A transfer is counted. -/
def count (x : Admission) : Admission :=
  { x with window := x.window - 1, next := x.next + 1 }

/-- The window and the number of the next transfer are told. -/
def tell (x : Admission) : Admission :=
  { x with told := x.told ++ [(x.window, some x.next)] }

/-- The window is opened anew and told, if at most half of it is left. -/
def replenish (x : Admission) : Admission :=
  if x.window > x.limit / 2 then x else { x with window := x.limit }.tell

/-- What the peer may send after an act. -/
def after (x : Admission) (act : Session.Act) : Admission :=
  if act.transfers then x.count.replenish
  else if act.asks then x.tell
  else x

end Admission

/-- What the peer may send, and what of it there is still to be told. -/
def Session.admission (session : Session) : Admission where
  told := session.outbox.filterMap Outgoing.windows?
  next := session.nextIncomingId
  window := session.incomingWindow
  limit := session.limits.incomingWindow

namespace Session

variable (session : Session)

theorem filterMap_flush_windows? :
  session.flush.outbox.filterMap Outgoing.windows? = session.outbox.filterMap Outgoing.windows?
  := by
  rw [flush, List.filterMap_append, List.filterMap_map]
  have silent : Outgoing.windows? ∘ (fun disposition => ⟨.disposition disposition, none⟩)
      = fun _ => none := rfl
  rw [silent, List.filterMap_none, List.append_nil]

theorem admission_emit (p : Performative) (payload : Option Bytes) :
  (session.emit p payload).admission = { session.admission with
    told := session.admission.told ++ (Outgoing.windows? ⟨p, payload⟩).toList }
  := by
  have kept : session.flush.outbox.filterMap Outgoing.windows? = session.admission.told :=
    session.filterMap_flush_windows?
  rw [admission, emit]
  dsimp only
  rw [List.filterMap_append, kept]
  cases told : Outgoing.windows? ⟨p, payload⟩ <;> simp [told, admission, flush]

theorem admission_emit_of_none {p : Performative} {payload : Option Bytes}
    (silent : Outgoing.windows? ⟨p, payload⟩ = none) :
  (session.emit p payload).admission = session.admission
  := by
  rw [admission_emit, silent, Option.toList_none, List.append_nil]

theorem admission_emitSessionFlow :
  session.emitSessionFlow.admission = session.admission.tell
  := session.admission_emit _ _

theorem admission_emitLinkFlow (store : QueueStore) (handle : UInt32) :
  (session.emitLinkFlow store handle).admission = session.admission
  := by
  rw [emitLinkFlow]
  split
  · exact session.admission_emit_of_none rfl
  · rfl

theorem admission_sendPieces (transfer : Transfer) (pieces : List Bytes) :
  (session.sendPieces transfer pieces).admission = session.admission
  := by
  apply related_sendPieces (motive := fun session session' =>
    session'.admission = session.admission)
  · exact fun _ => rfl
  · exact fun first second => second.trans first
  · intro session transfer payload
    exact admission_emit_of_none _ rfl

theorem admission_onSenderDisposition (disposition : Disposition) :
  (session.onSenderDisposition disposition).admission = session.admission
  := by
  apply related_onSenderDisposition (motive := fun session session' =>
    session'.admission = session.admission)
  · exact fun _ => rfl
  · exact fun first second => second.trans first
  · intro session id
    rw [forget]
    split <;> rfl

end Session

/-! ### Deliveries to the peer -/

namespace Serving

variable (s : Serving) (key : UInt32)

theorem admission_giveBackCredit :
  (s.giveBackCredit key).session.admission = s.session.admission
  := by
  apply related_giveBackCredit (motive := fun s s' => s'.session.admission = s.session.admission)
  · exact fun _ => rfl
  · exact fun first second => second.trans first
  · exact fun _ _ _ _ => rfl
  · exact fun s store => admission_emitLinkFlow s.session store key

theorem admission_pump :
  (s.pump key).session.admission = s.session.admission
  := by
  apply related_pump (motive := fun s s' => s'.session.admission = s.session.admission)
  · exact fun _ => rfl
  · exact fun first second => second.trans first
  · intro s s' h
    obtain ⟨endpoint, pick, -, -, -, -, rfl⟩ := sendNext?_eq_some h
    exact admission_sendPieces _ _ _
  · exact fun s => s.admission_giveBackCredit key

theorem admission_pumpAll :
  s.pumpAll.session.admission = s.session.admission
  := by
  apply related_pumpAll (motive := fun s s' => s'.session.admission = s.session.admission)
  · exact fun _ => rfl
  · exact fun first second => second.trans first
  · exact admission_pump

end Serving

/-! ### Faults -/

/-- An error that is not about the window. -/
def ErrorReport.OffWindow (report : ErrorReport) : Prop :=
  report.condition ≠ Condition.windowViolation.symbol

/-- A fault that is not about the window. -/
def Fault.OffWindow : Fault → Prop
  | .connection report | .session report | .link _ report => report.OffWindow
  | _ => True

theorem ErrorReport.offWindow {condition : Condition}
    (other : condition.symbol ≠ Condition.windowViolation.symbol) (description : String) :
  (of condition description).OffWindow
  := other

namespace Operation

variable {α β : Type}

/-- An operation that changes nothing about what the peer may send, and whose faults are not about
it. -/
structure Aside (op : Operation α) (s : Serving) : Prop where
  /-- The peer may send the same. -/
  admission : (op.after s).session.admission = s.session.admission
  /-- The faults are not about the window. -/
  fault : ∀ {fault s'}, op s = .error fault s' → fault.OffWindow

namespace Aside

variable {op : Operation α} {next : α → Operation β} {s : Serving}

theorem of_ok {a : α} {s' : Serving} (h : op s = .ok a s')
    (same : s'.session.admission = s.session.admission) :
  op.Aside s
  := by
  constructor
  · rw [after_of_ok h, same]
  · intro fault s'' h'
    rw [h] at h'
    contradiction

theorem pure (a : α) :
  Aside (Pure.pure a) s
  := of_ok rfl rfl

theorem throw {fault : Fault} (off : fault.OffWindow) :
  Aside (throw fault : Operation α) s
  := by
  constructor
  · rfl
  · rintro _ _ ⟨⟩
    exact off

theorem onSession {change : Session → Session}
    (same : (change s.session).admission = s.session.admission) :
  Aside (onSession change) s
  := of_ok rfl same

theorem onStore (change : QueueStore → QueueStore) :
  Aside (onStore change) s
  := of_ok rfl rfl

theorem bind (first : op.Aside s) (rest : ∀ a s', op s = .ok a s' → (next a).Aside s') :
  (op >>= next).Aside s
  := by
  cases h : op s with
  | ok a s' =>
      have same := first.admission
      rw [after_of_ok h] at same
      have second := rest a s' h
      constructor
      · rw [after, run_bind_of_ok h, ← after, second.admission, same]
      · intro fault s'' h'
        rw [run_bind_of_ok h] at h'
        exact second.fault h'
  | error fault s' =>
      have same := first.admission
      rw [after_of_error h] at same
      constructor
      · rw [after_of_error (run_bind_of_error h next), same]
      · intro fault' s'' h'
        rw [run_bind_of_error h] at h'
        cases h'
        exact first.fault h

theorem get_bind {next : Serving → Operation β} (h : (next s).Aside s) :
  (get >>= next).Aside s
  := by
  apply bind (of_ok (run_get s) rfl)
  rintro _ _ ⟨⟩
  exact h

end Aside

/-! ### Deliveries from the peer -/

section

variable (endpoint : Endpoint) (assembly : Assembly) (s : Serving)

theorem aside_refuse {report : ErrorReport} (off : report.OffWindow) :
  (refuse endpoint assembly report).Aside s
  := by
  rw [refuse]
  split
  · exact .throw off
  · exact .onSession rfl

theorem aside_answer (handle : UInt32) (outcome : DeliveryState) :
  (answer handle assembly outcome).Aside s
  := by
  apply Aside.onSession
  split
  · rfl
  · split <;> rfl

theorem offWindow_of_record {ledger : Ledger} {transaction : Bytes} {work : Work}
    {report : ErrorReport} (h : ledger.record transaction work = .error report) :
  report.OffWindow
  := by
  rw [Ledger.record] at h
  split at h
  · contradiction
  · cases h
    exact ErrorReport.offWindow (by decide) _

theorem aside_deliver (queue : QueueId) :
  (deliver endpoint queue assembly).Aside s
  := by
  apply Aside.get_bind
  dsimp only
  split
  · exact .throw (ErrorReport.offWindow (by decide) _)
  · split
    · exact aside_refuse _ _ _ (ErrorReport.offWindow (by decide) _)
    · split
      · split
        · next h => exact aside_refuse _ _ _ (offWindow_of_record h)
        · apply Aside.bind (.onSession rfl)
          intro _ _ _
          apply aside_answer
      · apply Aside.bind (.onStore _)
        intro _ _ _
        apply aside_answer

theorem aside_coordinate (control : TransactionControl) :
  (coordinate endpoint control).Aside s
  := by
  apply Aside.get_bind
  split
  · apply Aside.bind (.onSession rfl)
    intro _ _ _
    apply Aside.pure
  · split
    · exact .of_ok rfl rfl
    · next h =>
        split
        · apply Aside.pure
        · apply Aside.throw
          rw [Ledger.discharge] at h
          split at h
          · contradiction
          · cases h
            exact ErrorReport.offWindow (by decide) _

theorem aside_complete :
  (complete endpoint assembly).Aside s
  := by
  rw [complete]
  split
  · apply aside_deliver
  · rw [carryOutControl]
    split
    · exact .throw (ErrorReport.offWindow (by decide) _)
    · apply (aside_coordinate endpoint s _).bind
      intro _ _ _
      exact .onSession rfl
  · apply Aside.pure

theorem aside_limitSize :
  (limitSize endpoint assembly).Aside s
  := by
  rw [limitSize]
  split
  · apply (aside_refuse _ _ _ (ErrorReport.offWindow (by decide) _)).bind
    intro _ _ _
    apply Aside.pure
  · apply Aside.pure

theorem aside_replenishCredit (handle : UInt32) :
  (replenishCredit handle).Aside s
  := by
  apply Aside.of_ok (run_modify _ s)
  split
  · rfl
  · split
    · rfl
    · apply admission_emitLinkFlow

theorem offWindow_of_onTransfer {credit : LinkCredit} {handle : UInt32} {fault : Fault}
    (h : credit.onTransfer handle = .error fault) :
  fault.OffWindow
  := by
  rw [LinkCredit.onTransfer] at h
  split at h
  · contradiction
  · cases h
    exact ErrorReport.offWindow (by decide) _

theorem offWindow_of_settleMode {link : Link} {requested : Option ReceiverSettleMode}
    {report : ErrorReport} (h : link.settleMode requested = .error report) :
  report.OffWindow
  := by
  rw [Link.settleMode.eq_def] at h
  split at h
  · contradiction
  · cases h
    exact ErrorReport.offWindow (by decide) _
  · contradiction

theorem offWindow_of_insert {unsettled : Unsettled} {tag : Bytes} {id : UInt32}
    {report : ErrorReport} (h : unsettled.insert tag id = .error report) :
  report.OffWindow
  := by
  rw [Unsettled.insert] at h
  split at h
  · cases h
    exact ErrorReport.offWindow (by decide) _
  · contradiction

theorem offWindow_of_startDelivery {link : Link} {transfer : Transfer} {fault : Fault}
    (h : (Endpoint.startDelivery link transfer).1 = .error fault) :
  fault.OffWindow
  := by
  revert h
  fun_cases Endpoint.startDelivery link transfer with
  | case1 _ _ _ _ _ hcredit =>
      rintro ⟨⟩
      exact offWindow_of_onTransfer hcredit
  | case2 _ _ _ _ _ _ _ _ hmode =>
      rintro ⟨⟩
      exact offWindow_of_settleMode hmode
  | case4 _ _ _ _ _ _ _ _ _ _ _ _ hinsert =>
      rintro ⟨⟩
      exact offWindow_of_insert hinsert
  | case6 =>
      rintro ⟨⟩
      exact ErrorReport.offWindow (by decide) _
  | _ =>
      intro h
      cases h

theorem offWindow_of_takeAssembly {endpoint endpoint' : Endpoint} {transfer : Transfer}
    {fault : Fault} (h : endpoint.takeAssembly transfer = (.error fault, endpoint')) :
  fault.OffWindow
  := by
  rw [Endpoint.takeAssembly] at h
  split at h
  · cases h
  · have started : (Endpoint.startDelivery endpoint.link transfer).1 = .error fault :=
      congrArg Prod.fst h
    exact offWindow_of_startDelivery started

theorem aside_receiveOn (transfer : Transfer) (payload : Bytes) :
  (receiveOn endpoint transfer payload).Aside s
  := by
  rw [receiveOn]
  rcases htake : endpoint.takeAssembly transfer with ⟨taken, endpoint'⟩
  dsimp only
  apply Aside.bind (.onSession rfl)
  intro _ _ _
  cases taken with
  | error fault =>
      apply Aside.bind (.throw (offWindow_of_takeAssembly htake))
      intro _ _ h
      contradiction
  | ok taken =>
      apply Aside.bind (.pure taken)
      rintro _ _ ⟨⟩
      split
      · exact .onSession rfl
      · apply (aside_limitSize _ _ _).bind
        intro assembly _ _
        split
        · exact .onSession rfl
        · split
          · apply (aside_complete _ _ _).bind
            intro _ _ _
            apply aside_replenishCredit
          · apply aside_replenishCredit

theorem aside_receive (transfer : Transfer) (payload : Bytes) :
  (receive transfer payload).Aside s
  := by
  apply Aside.get_bind
  split
  · exact .throw (ErrorReport.offWindow (by decide) _)
  · split
    · apply Aside.pure
    · split
      · apply aside_receiveOn
      · exact .throw (ErrorReport.offWindow (by decide) _)

end

/-! ### Dispositions and links -/

theorem aside_take (delivery : OutgoingDelivery) (transaction : Bytes) (s : Serving) :
  (take delivery transaction).Aside s
  := by
  apply Aside.get_bind
  dsimp only
  split
  · exact .onSession rfl
  · next h =>
      apply Aside.bind (.onStore _)
      intro _ _ _
      exact .throw (offWindow_of_record h)

theorem aside_carryOut (delivery : OutgoingDelivery) (outcome : DeliveryState) (s : Serving) :
  (carryOut delivery outcome).Aside s
  := by
  rcases carryOut_cases delivery outcome with h | ⟨counted, h⟩ | ⟨transaction, h⟩
  · rw [h]
    apply Aside.onStore
  · rw [h]
    apply Aside.onStore
  · rw [h]
    apply aside_take

theorem aside_carryOutEach (decided : List (UInt32 × OutgoingDelivery × DeliveryState))
    (s : Serving) :
  (carryOutEach decided).Aside s
  := by
  induction decided generalizing s with
  | nil => apply Aside.pure
  | cons row others ih =>
      obtain ⟨id, delivery, outcome⟩ := row
      apply Aside.bind (.onSession rfl)
      intro _ _ _
      apply (aside_carryOut delivery outcome _).bind
      intro _ _ _
      apply ih

theorem aside_onDisposition (disposition : Disposition) (s : Serving) :
  (onDisposition disposition).Aside s
  := by
  have pumps (s : Serving) : Aside (modify Serving.pumpAll) s :=
    .of_ok (run_modify _ s) s.admission_pumpAll
  rw [onDisposition]
  split
  · rw [onReceiverDisposition]
    split
    · apply Aside.pure
    · apply Aside.get_bind
      apply (aside_carryOutEach _ _).bind
      intro _ s' _
      split
      · apply Aside.bind (.onSession (admission_emit_of_none _ rfl))
        intro _ _ _
        apply pumps
      · apply pumps
  · exact .onSession (admission_onSenderDisposition _ _)

theorem aside_detachWith (handle : UInt32) {report : ErrorReport} (off : report.OffWindow)
    (s : Serving) :
  (detachWith handle report).Aside s
  := by
  cases hget : s.session.endpoints.get? handle with
  | none =>
      apply Aside.get_bind
      rw [hget]
      exact .throw off
  | some endpoint =>
      cases attached : endpoint.link.detachSent with
      | true =>
          apply Aside.get_bind
          rw [hget]
          dsimp only
          rw [if_pos attached]
          apply Aside.pure
      | false =>
          apply Aside.of_ok (detachWith_of_get? hget attached report)
          apply (admission_emit_of_none _ rfl).trans
          split <;> rfl

theorem aside_onDetach (detach : Detach) (s : Serving) :
  (onDetach detach).Aside s
  := by
  apply Aside.get_bind
  split
  · exact .throw (ErrorReport.offWindow (by decide) _)
  · apply Aside.bind (.onSession rfl)
    intro _ _ _
    split
    · exact .onSession (admission_emit_of_none _ rfl)
    · apply Aside.pure

theorem aside_acceptAttach (link : Link) (kind : EndpointKind) (s : Serving) :
  (acceptAttach link kind).Aside s
  := by
  apply Aside.bind (.onSession (admission_emit_of_none _ rfl))
  intro _ s' _
  split
  · exact .of_ok (run_modify _ s') (admission_emitLinkFlow _ _ _)
  · exact .onSession rfl

theorem aside_refuseAttach (link : Link) {report : ErrorReport} (off : report.OffWindow)
    (s : Serving) :
  (refuseAttach link report).Aside s
  := by
  apply Aside.bind (.onSession (admission_emit_of_none _ rfl))
  intro _ _ _
  exact aside_detachWith _ off _

theorem offWindow_of_queueAt {store : QueueStore} {address : Option String} {report : ErrorReport}
    (h : EndpointKind.queueAt store address = .error report) :
  report.OffWindow
  := by
  rw [EndpointKind.queueAt.eq_def] at h
  split at h
  · cases h
    exact ErrorReport.offWindow (by decide) _
  · split at h
    · contradiction
    · cases h
      exact ErrorReport.offWindow (by decide) _

theorem offWindow_of_ofAttach {store : QueueStore} {attach : Attach} {report : ErrorReport}
    (h : EndpointKind.ofAttach store attach = .error report) :
  report.OffWindow
  := by
  rw [EndpointKind.ofAttach] at h
  split at h
  · split at h
    · contradiction
    · next node _ =>
        cases found : EndpointKind.queueAt store node.address with
        | ok queue =>
            rw [found] at h
            contradiction
        | error report' =>
            rw [found] at h
            cases h
            exact offWindow_of_queueAt found
    · cases h
      exact ErrorReport.offWindow (by decide) _
  · cases found : EndpointKind.queueAt store (attach.source.bind (·.address)) with
    | ok queue =>
        simp only [found, bind, Except.bind] at h
        split at h <;> contradiction
    | error report' =>
        rw [found] at h
        cases h
        exact offWindow_of_queueAt found

theorem aside_onAttach (attach : Attach) (s : Serving) :
  (onAttach attach).Aside s
  := by
  apply Aside.get_bind
  dsimp only
  split
  · exact .throw (ErrorReport.offWindow (by decide) _)
  · split
    · apply aside_acceptAttach
    · next h => exact aside_refuseAttach _ (offWindow_of_ofAttach h) _

/-! ### Flows and transfers -/

/-- The windows are told if the peer asks for it without naming a link. -/
theorem admission_onFlow (flow : Flow) (s : Serving) :
  ((onFlow flow).after s).session.admission
    = if flow.handle.isNone && flow.echo then s.session.admission.tell else s.session.admission
  := by
  cases hflow : flow.handle with
  | none =>
      rw [after_of_ok (onFlow_of_none hflow s), Serving.admission_pumpAll]
      cases flow.echo with
      | true => exact admission_emitSessionFlow _
      | false => rfl
  | some key =>
      rw [Option.isNone_some, Bool.false_and, if_neg Bool.false_ne_true]
      cases hget : s.session.endpoints.get? key with
      | none =>
          rw [after_of_error (onFlow_of_unattached hflow hget)]
          rfl
      | some endpoint =>
          rw [after_of_ok (onFlow_of_get? hflow hget), Serving.echo]
          have pumped : (if endpoint.kind.isSending then
              ((s.onSession (tellWindows flow)).onSession
                (·.putEndpoint key (endpoint.credited flow))).pump key
              else s.onSession (tellWindows flow)).session.admission = s.session.admission := by
            split
            · exact Serving.admission_pump _ key
            · rfl
          split
          · exact (admission_emitLinkFlow _ _ _).trans pumped
          · exact pumped

theorem offWindow_onFlow {flow : Flow} {s s' : Serving} {fault : Fault}
    (h : onFlow flow s = .error fault s') :
  fault.OffWindow
  := by
  cases hflow : flow.handle with
  | none =>
      rw [onFlow_of_none hflow] at h
      contradiction
  | some key =>
      cases hget : s.session.endpoints.get? key with
      | none =>
          rw [onFlow_of_unattached hflow hget] at h
          cases h
          exact ErrorReport.offWindow (by decide) _
      | some endpoint =>
          rw [onFlow_of_get? hflow hget] at h
          contradiction

theorem admission_replenishWindow (s : Serving) :
  (replenishWindow s).session.admission = s.session.admission.replenish
  := by
  rw [replenishWindow, Serving.onSession, Admission.replenish]
  dsimp only
  rw [apply_ite Session.admission, admission_emitSessionFlow]
  rfl

section

variable {transfer : Transfer} {payload : Bytes} {s : Serving}
  (window : s.session.incomingWindow ≠ 0)

include window

/-- A transfer is counted whatever comes of it, and then the window may be opened anew. -/
theorem admission_onTransfer :
  ((onTransfer transfer payload).after s).session.admission = s.session.admission.count.replenish
  := by
  have received := (aside_receive (s.onSession (·.count)) transfer payload).admission
  rw [after, onTransfer_of_counted window]
  -- The window is looked at after the transfer was taken, and after it was refused alike.
  split
  · next h =>
      rw [after_of_ok h] at received
      exact (admission_replenishWindow _).trans (congrArg Admission.replenish received)
  · next h =>
      rw [after_of_error h] at received
      exact (admission_replenishWindow _).trans (congrArg Admission.replenish received)

theorem offWindow_onTransfer {s' : Serving} {fault : Fault}
    (h : onTransfer transfer payload s = .error fault s') :
  fault.OffWindow
  := by
  rw [onTransfer_of_counted window] at h
  split at h
  · contradiction
  · next received =>
      cases h
      exact (aside_receive _ transfer payload).fault received

/-- As long as the window is open, no performative of the peer leads to a fault that is about it. -/
theorem offWindow_dispatch {p : Performative} {s' : Serving} {fault : Fault}
    (h : dispatch p payload s = .error fault s') :
  fault.OffWindow
  := by
  rw [dispatch.eq_def] at h
  split at h
  · exact (aside_onAttach _ s).fault h
  · exact offWindow_onFlow h
  · exact offWindow_onTransfer window h
  · exact (aside_onDisposition _ s).fault h
  · exact (aside_onDetach _ s).fault h
  · cases h
    exact ErrorReport.offWindow (by decide) _

theorem offWindow_handle {p : Performative} {s' : Serving} {fault : Fault}
    (h : handle p payload s = .error fault s') :
  fault.OffWindow
  := by
  rw [handle] at h
  split at h
  · next raised =>
      have off : Fault.OffWindow (.link _ _) := offWindow_dispatch window raised
      exact (aside_detachWith _ off _).fault h
  · exact offWindow_dispatch window h

/-- What the peer may send once a performative of it was handled. -/
theorem admission_handle (p : Performative) :
  ((handle p payload).after s).session.admission = s.session.admission.after (.handle p payload)
  := by
  have dispatched : ((dispatch p payload).after s).session.admission
      = s.session.admission.after (.handle p payload) := by
    cases p with
    | transfer transfer => exact admission_onTransfer window
    | flow flow => exact admission_onFlow flow s
    | attach attach => exact (aside_onAttach attach s).admission
    | disposition disposition => exact (aside_onDisposition disposition s).admission
    | detach detach => exact (aside_onDetach detach s).admission
    | _ => rfl
  rw [← dispatched]
  -- Only a fault about a link is answered by the session itself, by detaching the link.
  obtain handled | ⟨key, report, raised, handled⟩ := handle_cases p payload s
  · rw [handled]
  · rw [handled]
    have off : Fault.OffWindow (.link key report) := offWindow_dispatch window raised
    exact (aside_detachWith key off _).admission

end

end Operation

/-- What the peer may send after an act, unless what is to be sent is taken. -/
theorem Session.Act.admission_run {act : Session.Act} (taking : act ≠ .takeOutput) {s : Serving}
    (window : s.session.incomingWindow ≠ 0) :
  (act.run s).2.session.admission = s.session.admission.after act
  := by
  cases act with
  | handle p payload => exact Operation.admission_handle window p
  | pumpAll => exact s.admission_pumpAll
  | recover => exact Serving.admission_pumpAll _
  | finish => rfl
  | takeOutput => contradiction

end MessageBroker
