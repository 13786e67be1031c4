import MessageBroker.Proofs.Session.Replenishing

/-!
# What the peer is told of its deliveries

A session tells what became of deliveries from the peer by dispositions that it writes as their
receiver.  It does so only when it handles a transfer, and then at most of the delivery that the
transfer belongs to.
-/

namespace MessageBroker

open Session

/-- Whether an output tells what became of deliveries from the peer. -/
def Outgoing.isReceipt (output : Outgoing) : Bool :=
  match output.performative with
  | .disposition disposition => disposition.role = .receiver
  | _ => false

namespace Session

/-- What is to be sent that tells what became of deliveries from the peer. -/
def receipts (session : Session) : List Outgoing :=
  session.pending.filter Outgoing.isReceipt

/-- Nothing is told about deliveries from the peer. -/
def Mute (session session' : Session) : Prop :=
  session'.receipts = session.receipts

variable {session session' session'' : Session}

theorem Mute.refl (session : Session) :
  session.Mute session
  := rfl

theorem Mute.trans (h : session.Mute session') (h' : session'.Mute session'') :
  session.Mute session''
  := Eq.trans h' h

theorem mute_emit (session : Session) {performative : Performative} {payload : Option Bytes}
    (h : Outgoing.isReceipt ⟨performative, payload⟩ = false) :
  session.Mute (session.emit performative payload)
  := by
  rw [Mute, receipts, pending_emit, List.filter_append, List.filter_singleton, h]
  exact List.append_nil _

theorem Flows.mute (flows : session.Flows session') :
  session.Mute session'
  := by
  obtain ⟨told, hflows⟩ := flows
  have none : (outgoingFlows told).filter Outgoing.isReceipt = [] := by
    apply List.filter_eq_nil_iff.mpr
    intro output hmem
    obtain ⟨flow, -, rfl⟩ := List.mem_map.mp hmem
    exact Bool.false_ne_true
  rw [Mute, receipts, hflows, List.filter_append, none, List.append_nil]
  rfl

variable (session : Session)

theorem mute_emitLinkFlow (store : QueueStore) (handle : UInt32) :
  session.Mute (session.emitLinkFlow store handle)
  := (Flows.emitLinkFlow session store handle).mute

theorem mute_sendPieces (transfer : Transfer) (pieces : List Bytes) :
  session.Mute (session.sendPieces transfer pieces)
  := by
  apply related_sendPieces .refl .trans
  intro session transfer payload
  rw [sendTransfer]
  exact Mute.trans rfl (mute_emit _ rfl)

theorem mute_onSenderDisposition (disposition : Disposition) :
  session.Mute (session.onSenderDisposition disposition)
  := by
  apply related_onSenderDisposition .refl .trans
  intro session id
  rw [forget]
  split
  · exact rfl
  · exact .refl session

end Session

/-! ### Deliveries to the peer -/

namespace Serving

variable (s : Serving)

theorem mute_pump (key : UInt32) :
  s.session.Mute (s.pump key).session
  := by
  revert s
  apply related_pump (motive := fun s s' => s.session.Mute s'.session)
  · exact fun s => .refl s.session
  · exact .trans
  · intro s s' hnext
    obtain ⟨endpoint, pick, -, -, -, -, rfl⟩ := sendNext?_eq_some hnext
    exact Mute.trans rfl (mute_sendPieces _ _ _)
  · apply related_giveBackCredit (motive := fun s s' => s.session.Mute s'.session)
    · exact fun s => .refl s.session
    · exact .trans
    · exact fun _ _ _ _ => rfl
    · exact fun s store => mute_emitLinkFlow s.session store key

theorem mute_pumpAll :
  s.session.Mute s.pumpAll.session
  := by
  revert s
  apply related_pumpAll (motive := fun s s' => s.session.Mute s'.session)
  · exact fun s => .refl s.session
  · exact .trans
  · exact mute_pump

end Serving

namespace Operation

theorem mute_carryOutEach (decided : List (UInt32 × OutgoingDelivery × DeliveryState))
    (s : Serving) :
  s.session.Mute ((carryOutEach decided).after s).session
  := by
  obtain ⟨_, _, hcarried⟩ := session_carryOutEach decided s
  rw [hcarried]
  exact rfl

theorem mute_onDisposition (disposition : Disposition) (s : Serving) :
  s.session.Mute ((onDisposition disposition).after s).session
  := by
  rw [onDisposition]
  split
  · apply related_onReceiverDisposition (motive := fun s s' => s.session.Mute s'.session)
    · exact fun s => .refl s.session
    · exact .trans
    · exact mute_carryOutEach _ s
    · exact fun s => mute_emit _ rfl
    · exact Serving.mute_pumpAll
  · exact mute_onSenderDisposition s.session disposition

/-! ### Links -/

theorem mute_detachWith (handle : UInt32) (report : ErrorReport) (s : Serving) :
  s.session.Mute ((detachWith handle report).after s).session
  := by
  obtain ⟨same, -⟩ | ⟨endpoint, -, -, parted⟩ := detachWith_cases handle report s
  · rw [same]
    exact .refl s.session
  · rw [parted]
    apply Mute.trans _ (mute_emit _ rfl)
    split
    · exact rfl
    · exact rfl

theorem mute_onDetach (detach : Detach) (s : Serving) :
  s.session.Mute ((onDetach detach).after s).session
  := by
  obtain ⟨-, same⟩ | ⟨endpoint, -, parted⟩ := onDetach_cases detach s
  · rw [same]
    exact .refl s.session
  · rw [parted]
    dsimp only [Serving.onSession]
    split
    · exact rfl
    · exact Mute.trans rfl (mute_emit _ rfl)

theorem mute_onAttach (attach : Attach) (s : Serving) :
  s.session.Mute ((onAttach attach).after s).session
  := by
  have opened (kind : EndpointKind) (source : Option Source) (target : Option Target) :
      s.session.Mute (s.session.openLink attach kind source target) :=
    Mute.trans (mute_emit _ rfl) rfl
  obtain ⟨-, same⟩ | ⟨-, ⟨kind, -, accepted⟩ | ⟨report, source, target, -, refused⟩⟩ :=
    onAttach_cases attach s
  · rw [same]
    exact .refl s.session
  · rw [accepted]
    dsimp only [Serving.onSession]
    split
    · exact (opened _ _ _).trans (mute_emitLinkFlow _ _ _)
    · exact opened _ _ _
  · rw [refused]
    apply Mute.trans _ (mute_detachWith _ report _)
    exact opened .refused source target

theorem mute_onFlow (flow : Flow) (s : Serving) :
  s.session.Mute ((onFlow flow).after s).session
  := by
  revert s
  apply related_onFlow (motive := fun s s' => s.session.Mute s'.session)
  · exact fun s => .refl s.session
  · exact .trans
  · exact fun _ => rfl
  · exact fun _ _ _ _ _ => rfl
  · exact fun _ => mute_emit _ rfl
  · exact fun s handle => mute_emitLinkFlow s.session s.store handle
  · exact Serving.mute_pump
  · exact Serving.mute_pumpAll

/-! ### Transfers -/

section Transfers

variable {s : Serving} {transfer : Transfer} {endpoint : Endpoint} {taken assembly : Assembly}
  {result : EStateM.Result Fault Serving Unit}

/-- In what is left of an operation at most one thing more is told about deliveries from the peer,
namely about that with a number. -/
def TellsOf (id : UInt32) (session : Session) (result : EStateM.Result Fault Serving Unit) : Prop :=
  session.Mute (leaving result).session
    ∨ ∃ settlement : Settlement, settlement.id = id
      ∧ (session.tell settlement).Mute (leaving result).session

theorem Receives.tellsOf (receives : Receives endpoint transfer assembly s result) :
  TellsOf assembly.id s.session result
  := by
  cases receives with
  | aborted | fault | more => exact .inl rfl
  | refused => exact .inr ⟨_, rfl, rfl⟩
  | refusedLast =>
      exact .inr ⟨_, rfl, Mute.trans rfl (flows_replenishCredit transfer.handle _).mute⟩
  | dropped => exact .inl (flows_replenishCredit transfer.handle s).mute

theorem Completes.tellsOf (completes : Completes endpoint assembly s result) :
  TellsOf assembly.id s.session result
  := by
  cases completes with
  | fault | settled => exact .inl rfl
  | told | awaited => exact .inr ⟨_, rfl, rfl⟩

/-- A transfer that is received tells at most about the delivery that it belongs to. -/
theorem tellsOf_receiveOn (receives : endpoint.kind.isReceiving = true)
    (htake : (endpoint.takeAssembly transfer).1 = .ok taken) (payload : Bytes) (s : Serving) :
  TellsOf taken.id s.session (receiveOn endpoint transfer payload s)
  := by
  obtain ⟨credit, unsettled, gathered, hsnd⟩ := endpoint.takeAssembly_snd transfer
  generalize hother : (endpoint.takeAssembly transfer).2 = other at hsnd
  have htake' : endpoint.takeAssembly transfer = (.ok taken, other) := Prod.ext htake hother
  have number := (Assembly.push_other taken payload).1
  cases hcompleted : endpoint.completed? transfer payload with
  | none =>
      have told := (receives_receiveOn hcompleted htake' s).tellsOf
      rw [number] at told
      exact told
  | some completed =>
      obtain ⟨other', assembly⟩ := completed
      obtain ⟨taken', htaken, rfl, -⟩ := Endpoint.completed?_eq_some_iff.mp hcompleted
      obtain ⟨hsame, rfl⟩ := Prod.mk.inj (htake'.symm.trans htaken)
      obtain rfl := Except.ok.inj hsame
      have receives' : other.kind.isReceiving = true := by
        rw [hsnd]
        exact receives
      have completes := completes_complete other (taken.push payload)
        (s.onSession (·.putEndpoint transfer.handle other)) receives'
      rw [receiveOn_of_completed hcompleted, run_bind]
      have told := completes.tellsOf
      rw [number] at told
      generalize complete other (taken.push payload) _ = result at told
      cases result with
      | error fault s' => exact told
      | ok _ s' =>
          have flows : s'.session.Mute ((replenishCredit transfer.handle).after s').session :=
            (flows_replenishCredit transfer.handle s').mute
          rcases told with mute | ⟨settlement, names, told⟩
          · exact .inl (mute.trans flows)
          · exact .inr ⟨settlement, names, told.trans flows⟩

/-- Topping the window up, and detaching a link that is at fault, tells nothing more. -/
theorem mute_detaching (result : EStateM.Result Fault Serving Unit) :
  (leaving result).session.Mute (detaching (mapState replenishWindow result)).session
  := by
  cases result with
  | ok _ s => exact (flows_replenishWindow s).mute
  | error fault s =>
      have flows := (flows_replenishWindow s).mute
      cases fault with
      | link key report => exact flows.trans (mute_detachWith key report _)
      | _ => exact flows

end Transfers

end Operation

/-! ### Everything that is done with a session -/

/-- One session comes from another by an act by which at most one thing is told about deliveries
from the peer: about that which a transfer belongs to, if the peer has sent one. -/
inductive Session.Acknowledges (act : Session.Act) (session session' : Session) : Prop where
  /-- Nothing is told. -/
  | mute (mute : session.Mute session')
  /-- It is told what became of the delivery of a transfer. -/
  | told {transfer : Transfer} {payload : Bytes} {endpoint : Endpoint} {taken : Assembly}
      {settlement : Settlement} (asked : act = .handle (.transfer transfer) payload)
      (there : session.endpoints.get? transfer.handle = some endpoint)
      (belongs : (endpoint.takeAssembly transfer).1 = .ok taken)
      (names : settlement.id = taken.id) (told : (session.tell settlement).Mute session')

namespace Operation

theorem acknowledges_onTransfer (transfer : Transfer) (payload : Bytes) (s : Serving) :
  s.session.Acknowledges (.handle (.transfer transfer) payload)
    (detaching (onTransfer transfer payload s)).session
  := by
  by_cases window : s.session.incomingWindow = 0
  · rw [onTransfer, if_pos window]
    exact .mute (.refl s.session)
  · rw [onTransfer_of_admitted window]
    have after := mute_detaching (receive transfer payload (s.onSession (·.count)))
    revert after
    generalize hreceived : receive transfer payload (s.onSession (·.count)) = result
    generalize detaching (mapState replenishWindow result) = s'
    intro after
    cases there : s.session.endpoints.get? transfer.handle with
    | none =>
        rw [receive_of_none (by exact there)] at hreceived
        subst hreceived
        exact .mute after
    | some endpoint =>
        rw [receive_of_some (by exact there)] at hreceived
        split at hreceived
        · subst hreceived
          exact .mute after
        · split at hreceived
          · next receives =>
              cases htake : (endpoint.takeAssembly transfer).1 with
              | error fault =>
                  rw [receiveOn_of_error (Prod.ext htake rfl)] at hreceived
                  subst hreceived
                  exact .mute after
              | ok taken =>
                  have told := tellsOf_receiveOn receives htake payload (s.onSession (·.count))
                  rw [hreceived] at told
                  rcases told with mute | ⟨settlement, names, told⟩
                  · exact .mute (mute.trans after)
                  · exact .told rfl there htake names (told.trans after)
          · subst hreceived
            exact .mute after

theorem acknowledges_handle (p : Performative) (payload : Bytes) (s : Serving) :
  s.session.Acknowledges (.handle p payload) ((Operation.handle p payload).after s).session
  := by
  have others (mute : s.session.Mute ((dispatch p payload).after s).session) :
      s.session.Acknowledges (.handle p payload) ((Operation.handle p payload).after s).session := by
    obtain h | ⟨key, report, -, h⟩ := handle_cases p payload s
    · rw [h]
      exact .mute mute
    · rw [h]
      exact .mute (mute.trans (mute_detachWith key report _))
  cases p with
  | transfer transfer =>
      rw [after_handle]
      exact acknowledges_onTransfer transfer payload s
  | attach attach => exact others (mute_onAttach attach s)
  | flow flow => exact others (mute_onFlow flow s)
  | disposition disposition => exact others (mute_onDisposition disposition s)
  | detach detach => exact others (mute_onDetach detach s)
  | _ => exact others (.refl s.session)

end Operation

/-- Whatever is done with a session, but for taking what it has to send, it tells at most of the
delivery of a transfer what became of it. -/
theorem Session.Act.acknowledges_run (act : Session.Act) (taking : act ≠ .takeOutput)
    (s : Serving) :
  s.session.Acknowledges act (act.run s).2.session
  := by
  cases act with
  | handle p payload => exact Operation.acknowledges_handle p payload s
  | pumpAll => exact .mute s.mute_pumpAll
  | recover => exact .mute (Mute.trans rfl (Serving.mute_pumpAll _))
  | finish => exact .mute rfl
  | takeOutput => contradiction

end MessageBroker
