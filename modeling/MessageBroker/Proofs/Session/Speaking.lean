import MessageBroker.Proofs.Session.Alike

/-!
# What a session tells about its links

A session tells something about a link, or changes what it may still tell about it, in a few ways
only, each under a condition of its own.  Every act is made up of them, so that what holds along
each of them holds along every act.
-/

namespace MessageBroker

open Session

/-! ### What the peer asks for -/

namespace Session.Act

variable (handle : UInt32)

/-- The peer attaches a link. -/
def Attaches : Session.Act → Prop
  | .handle (.attach attach) _ => attach.handle = handle
  | _ => False

/-- The peer detaches a link. -/
def Detaches : Session.Act → Prop
  | .handle (.detach detach) _ => detach.handle = handle
  | _ => False

/-- The peer wants a flow that names a link to be answered. -/
def Echoes : Session.Act → Prop
  | .handle (.flow flow) _ => flow.handle = some handle ∧ flow.echo = true
  | _ => False

/-- The peer wants the credit of a link to be used up or given back. -/
def Drains : Session.Act → Prop
  | .handle (.flow flow) _ => flow.handle = some handle ∧ flow.drain = true
  | _ => False

/-- The session after a flow of the peer has told the windows, if the peer sends one. -/
def informed (session : Session) : Session.Act → Session
  | .handle (.flow flow) _ => Operation.tellWindows flow session
  | _ => session

end Session.Act

/-! ### What is told about links -/

/-- The end of a link that is just attached: neither end has detached it, and the peer has not asked
for credit to be given back. -/
structure Endpoint.Fresh (handle : UInt32) (endpoint : Endpoint) : Prop where
  /-- The link has the handle as its number. -/
  handle : endpoint.link.handle = handle
  /-- The broker has not detached the link. -/
  detachSent : endpoint.link.detachSent = false
  /-- The peer has not detached the link. -/
  detachReceived : endpoint.link.detachReceived = false
  /-- The peer has not asked for credit to be given back. -/
  drain : endpoint.link.credit.drain = false

/-- The end of a link on which a delivery is sent: it is paid for with credit. -/
structure Endpoint.Pays (endpoint endpoint' : Endpoint) : Prop where
  /-- One of the credit is used. -/
  link : endpoint'.link = { endpoint.link with credit := endpoint.link.credit.spend }
  /-- Messages go to the peer or not, as before. -/
  sending : endpoint'.kind.isSending = endpoint.kind.isSending

/-- The end of a link that has given back the credit that is left. -/
def Endpoint.gaveBack (endpoint : Endpoint) : Endpoint :=
  endpoint.onLink fun link => { link with credit := link.credit.giveBack.2 }

/-- One session comes from another by an act, or a part of it, that tells the peer about links only
as it may. -/
inductive Session.Speaks (act : Session.Act) : Session → Session → Prop where
  /-- Nothing is told about links. -/
  | alike {session session' : Session} (alike : session.Alike session') : Speaks act session session'
  /-- One thing is told after another. -/
  | trans {session session' session'' : Session} (first : Speaks act session session')
      (second : Speaks act session' session'') : Speaks act session session''
  /-- The credit of a link is told, unless the broker has detached the link.  The peer may ask for
  it, and then it is told even so. -/
  | flow {session : Session} {key : UInt32} {endpoint : Endpoint} {flow : Flow}
      (there : session.endpoints.get? key = some endpoint) (names : flow.handle = some key)
      (may : endpoint.link.detachSent = false ∨ act.Echoes key) :
      Speaks act session (session.emit (.flow flow) none)
  /-- A link is attached, because the peer has done so, under a handle that is not in use. -/
  | attach {session : Session} {key : UInt32} {endpoint : Endpoint} {attach : Attach}
      (asked : act.Attaches key) (free : session.endpoints.get? key = none)
      (names : attach.handle = key) (fresh : endpoint.Fresh key) :
      Speaks act session ((session.emit (.attach attach) none).putEndpoint key endpoint)
  /-- A link is detached because of an error; no flow is one. -/
  | detach {session : Session} {key : UInt32} {endpoint : Endpoint} {report : ErrorReport}
      (unasked : ∀ handle, ¬ act.Credits handle)
      (there : session.endpoints.get? key = some endpoint)
      (attached : endpoint.link.detachSent = false) :
      Speaks act session
        ((if endpoint.link.detachReceived then
          { session with endpoints := session.endpoints.erase key }
        else session.putEndpoint key endpoint.givenUp).emit
          (.detach ⟨endpoint.link.handle, true, some report⟩) none)
  /-- The peer detaches a link that the broker has detached. -/
  | drop {session : Session} {key : UInt32} {endpoint : Endpoint} (asked : act.Detaches key)
      (there : session.endpoints.get? key = some endpoint)
      (parted : endpoint.link.detachSent = true) :
      Speaks act session { session with endpoints := session.endpoints.erase key }
  /-- A link is detached because the peer has done so. -/
  | answer {session : Session} {key : UInt32} {endpoint : Endpoint} {detach : Detach}
      (asked : act.Detaches key) (there : session.endpoints.get? key = some endpoint)
      (attached : endpoint.link.detachSent = false) (names : detach.handle = endpoint.link.handle) :
      Speaks act session
        ({ session with endpoints := session.endpoints.erase key }.emit (.detach detach) none)
  /-- The links are dropped, because the session ends. -/
  | finish {session : Session} (ends : act = .finish) : Speaks act session { session with endpoints := [] }
  /-- A flow of the peer gives a link credit. -/
  | credit {session : Session} {key : UInt32} {endpoint : Endpoint} {flow : Flow} {payload : Bytes}
      (asked : act = .handle (.flow flow) payload) (names : flow.handle = some key)
      (there : session.endpoints.get? key = some endpoint)
      (sending : endpoint.kind.isSending = true) :
      Speaks act session (session.putEndpoint key (endpoint.credited flow))
  /-- Credit is given back on a link. -/
  | giveBack {session : Session} {key : UInt32} {endpoint : Endpoint} {flow : Flow}
      (there : session.endpoints.get? key = some endpoint)
      (drain : endpoint.link.credit.drain = true) (may : endpoint.link.credit.maySend = true)
      (names : flow.handle = some key) :
      Speaks act session ((session.putEndpoint key endpoint.gaveBack).emit (.flow flow) none)
  /-- A delivery is sent on a link that is attached and has credit, while the window is open. -/
  | deliver {session : Session} {key id : UInt32} {endpoint endpoint' : Endpoint} {settled : Bool}
      {payload : Bytes} (window : session.remoteIncomingWindow ≠ 0)
      (there : session.endpoints.get? key = some endpoint)
      (attached : endpoint.link.isAttached = true) (may : endpoint.link.credit.maySend = true)
      (pays : endpoint.Pays endpoint') :
      Speaks act session ((session.putEndpoint key endpoint').sendDelivery key id settled payload)

variable {act : Session.Act}

theorem Session.Speaks.refl (session : Session) :
  session.Speaks act session
  := .alike (.refl session)

theorem LinkCredit.of_giveBack {c : LinkCredit} (h : c.giveBack.1 = true) :
  c.drain = true ∧ c.maySend = true
  := by
  rw [giveBack] at h
  split at h
  · next hgives => exact Bool.and_eq_true_iff.mp hgives
  · contradiction

namespace Session

/-- The credit of a link is told if there is such a link. -/
theorem speaks_emitLinkFlow {session : Session} {key : UInt32}
    (may : ∀ endpoint, session.endpoints.get? key = some endpoint →
      endpoint.link.detachSent = false ∨ act.Echoes key) (store : QueueStore) :
  session.Speaks act (session.emitLinkFlow store key)
  := by
  rw [emitLinkFlow]
  split
  · next endpoint hget => exact .flow hget rfl (may endpoint hget)
  · exact .refl session

theorem emitLinkFlow_putEndpoint (session : Session) (store : QueueStore) (key : UInt32)
    (endpoint : Endpoint) :
  (session.putEndpoint key endpoint).emitLinkFlow store key
    = (session.putEndpoint key endpoint).emit
        (.flow ((session.putEndpoint key endpoint).linkFlow store key endpoint)) none
  := by
  have hget : (session.putEndpoint key endpoint).endpoints.get? key = some endpoint :=
    Table.get?_put_self key endpoint _
  rw [emitLinkFlow, hget]

end Session

/-! ### Deliveries to the peer -/

namespace Serving

variable (s : Serving) (key : UInt32)

theorem speaks_sendNext? {s s' : Serving} {key : UInt32} (h : s.sendNext? key = some s') :
  s.session.Speaks act s'.session
  := by
  have window : s.session.remoteIncomingWindow ≠ 0 := by
    intro hzero
    rw [sendNext?, if_pos hzero] at h
    contradiction
  obtain ⟨endpoint, pick, hget, hpick, attached, may, rfl⟩ := sendNext?_eq_some h
  obtain ⟨hbefore, hafter⟩ := Endpoint.pick?_isSending hpick
  -- The accounts are changed first, which makes no difference to the endpoint.
  have haccounts : s.session.Alike { s.session with
      nextDeliveryId := s.session.nextDeliveryId + 1
      outgoingUnsettled :=
        if endpoint.link.sndSettleMode = .settled || pick.copied then s.session.outgoingUnsettled
        else s.session.outgoingUnsettled.put s.session.nextDeliveryId
          ⟨key, pick.queue, pick.entry.id⟩ } :=
    .of_same rfl rfl rfl rfl rfl
  apply Speaks.trans (.alike haccounts)
  exact .deliver window hget attached may ⟨rfl, hafter.trans hbefore.symm⟩

theorem speaks_giveBackCredit :
  s.session.Speaks act (s.giveBackCredit key).session
  := by
  rw [giveBackCredit]
  split
  · exact .refl s.session
  · next endpoint hget =>
      split
      · exact .refl s.session
      · next credit hgives =>
          obtain ⟨drain, may⟩ := LinkCredit.of_giveBack (congrArg Prod.fst hgives)
          obtain rfl : credit = endpoint.link.credit.giveBack.2 := (congrArg Prod.snd hgives).symm
          rw [onSession, emitLinkFlow_putEndpoint]
          exact .giveBack hget drain may rfl

theorem speaks_pump :
  s.session.Speaks act (s.pump key).session
  := by
  revert s
  apply related_pump (motive := fun s s' => s.session.Speaks act s'.session)
  · exact fun s => .refl s.session
  · exact .trans
  · exact speaks_sendNext?
  · exact fun s => s.speaks_giveBackCredit key

theorem speaks_pumpAll :
  s.session.Speaks act s.pumpAll.session
  := by
  revert s
  apply related_pumpAll (motive := fun s s' => s.session.Speaks act s'.session)
  · exact fun s => .refl s.session
  · exact .trans
  · exact speaks_pump

theorem speaks_recover :
  s.session.Speaks act s.recover.2.session
  := by
  have hforget : s.session.Alike { s.session with outgoingUnsettled := [] } :=
    .of_same rfl rfl rfl rfl rfl
  rw [recover]
  apply Speaks.trans (.alike hforget)
  exact speaks_pumpAll ⟨{ s.session with outgoingUnsettled := [] }, _⟩

/-- The credit of a link is told to a peer that asks for it. -/
theorem speaks_echo {flow : Flow} {key : UInt32} (names : flow.handle = some key)
    (payload : Bytes) (s : Serving) :
  s.session.Speaks (.handle (.flow flow) payload) (s.echo flow key).session
  := by
  rw [echo]
  split
  · next hecho =>
      have echoes : Act.Echoes key (.handle (.flow flow) payload) := ⟨names, hecho⟩
      exact speaks_emitLinkFlow (fun _ _ => .inr echoes) s.store
  · exact .refl s.session

end Serving

namespace Operation

/-! ### Dispositions -/

theorem speaks_onReceiverDisposition (disposition : Disposition) (s : Serving) :
  s.session.Speaks act ((onReceiverDisposition disposition).after s).session
  := by
  apply related_onReceiverDisposition (motive := fun s s' => s.session.Speaks act s'.session)
  · exact fun s => .refl s.session
  · exact .trans
  · exact .alike (alike_carryOutEach _ s)
  · exact fun s => .alike (s.session.alike_emit rfl rfl)
  · exact Serving.speaks_pumpAll

theorem speaks_onDisposition (disposition : Disposition) (s : Serving) :
  s.session.Speaks act ((onDisposition disposition).after s).session
  := by
  rw [onDisposition]
  split
  · exact speaks_onReceiverDisposition disposition s
  · exact .alike (s.session.alike_onSenderDisposition disposition)

/-! ### Transfers -/

/-- Credit is granted on a link that messages come on, unless the broker has detached it. -/
theorem speaks_replenishCredit {key : UInt32} {s : Serving}
    (receives : ∀ endpoint, s.session.endpoints.get? key = some endpoint →
      endpoint.kind.isSending = false) :
  s.session.Speaks act ((replenishCredit key).after s).session
  := by
  rw [replenishCredit, after_modify]
  split
  · exact .refl s.session
  · next endpoint hget =>
      split
      · exact .refl s.session
      · next hlive =>
          have hsent : endpoint.link.detachSent = false := by
            rw [Bool.or_eq_true, not_or, Bool.not_eq_true] at hlive
            exact hlive.1
          have steady := endpoint.steady_grant (receives endpoint hget) s.session.limits.linkCredit
          apply Speaks.trans (.alike (alike_putEndpoint hget steady))
          rw [Serving.onSession, emitLinkFlow_putEndpoint]
          exact .flow (Table.get?_put_self key _ _) rfl (.inl hsent)

theorem speaks_receiveOn {endpoint : Endpoint} {transfer : Transfer} {s : Serving}
    (hget : s.session.endpoints.get? transfer.handle = some endpoint)
    (receives : endpoint.kind.isReceiving = true) (payload : Bytes) :
  s.session.Speaks act ((receiveOn endpoint transfer payload).after s).session
  := by
  have hsending := Endpoint.isSending_of_isReceiving receives
  have received := related_receiveOn reckons_alike endpoint transfer payload
    (fun endpoint' htake => by
      rw [← htake]
      exact alike_putEndpoint hget (Endpoint.steady_takeAssembly hsending transfer))
    (fun s _ => s.session.alike_update _ fun _ => ⟨rfl, rfl, rfl, rfl, rfl, fun _ => rfl⟩)
    (fun s endpoint' assembly _ => alike_complete endpoint' assembly s)
  obtain alike | ⟨s', alike, last⟩ := received
  · exact .alike alike
  · rw [last]
    apply Speaks.trans (.alike alike)
    apply speaks_replenishCredit
    intro later hlater
    obtain ⟨before, hbefore, steady⟩ := alike.there hlater
    rw [hget] at hbefore
    cases hbefore
    exact steady.sending.trans hsending

theorem speaks_onTransfer (transfer : Transfer) (payload : Bytes) (s : Serving) :
  s.session.Speaks act ((onTransfer transfer payload).after s).session
  := by
  have counts : s.session.Alike (s.onSession (·.count)).session := .of_same rfl rfl rfl rfl rfl
  obtain same | counted | ⟨-, endpoint, hget, -, receives, received⟩ :=
    onTransfer_cases transfer payload s
  · rw [same]
    exact .refl s.session
  · rw [counted]
    exact .alike (counts.trans (alike_replenishWindow _))
  · rw [received]
    apply Speaks.trans _ (.alike (alike_replenishWindow _))
    exact Speaks.trans (.alike counts) (speaks_receiveOn (by exact hget) receives payload)

/-! ### Detaching and attaching -/

theorem speaks_detachWith (unasked : ∀ handle, ¬ act.Credits handle) (key : UInt32)
    (report : ErrorReport) (s : Serving) :
  s.session.Speaks act ((detachWith key report).after s).session
  := by
  obtain ⟨same, -⟩ | ⟨endpoint, hget, hsent, parted⟩ := detachWith_cases key report s
  · rw [same]
    exact .refl s.session
  · rw [parted]
    exact .detach unasked hget hsent

theorem speaks_onDetach {detach : Detach} (asked : act.Detaches detach.handle) (s : Serving) :
  s.session.Speaks act ((onDetach detach).after s).session
  := by
  obtain ⟨-, same⟩ | ⟨endpoint, hget, parted⟩ := onDetach_cases detach s
  · rw [same]
    exact .refl s.session
  · rw [parted]
    have forgotten : s.session.Alike { s.session with
        incomingUnsettled :=
          s.session.incomingUnsettled.filter fun row => row.2 ≠ detach.handle } :=
      .of_same rfl rfl rfl rfl rfl
    apply Speaks.trans (.alike forgotten)
    dsimp only [Serving.onSession]
    split
    · next hsent => exact .drop asked hget hsent
    · next hsent => exact .answer asked hget (by simpa using hsent) rfl

theorem speaks_onAttach {attach : Attach} (asked : act.Attaches attach.handle) (s : Serving) :
  s.session.Speaks act ((onAttach attach).after s).session
  := by
  obtain ⟨-, same⟩ | ⟨free, h⟩ := onAttach_cases attach s
  · rw [same]
    exact .refl s.session
  · have opened (kind : EndpointKind) (source : Option Source) (target : Option Target) :
        s.session.Speaks act (s.session.openLink attach kind source target) := by
      apply Speaks.attach asked free
      · rfl
      · exact ⟨rfl, rfl, rfl, by cases kind <;> rfl⟩
    obtain ⟨kind, -, accepted⟩ | ⟨report, source, target, -, refused⟩ := h
    · rw [accepted]
      dsimp only [Serving.onSession]
      split
      · apply Speaks.trans (opened _ _ _) (speaks_emitLinkFlow _ _)
        intro endpoint hget
        rw [get?_openLink] at hget
        cases hget
        exact .inl rfl
      · exact opened _ _ _
    · have unasked : ∀ handle, ¬ act.Credits handle := by
        cases act with
        | handle p payload =>
            cases p with
            | attach attach => exact fun _ => id
            | _ => contradiction
        | _ => contradiction
      rw [refused]
      apply Speaks.trans _ (speaks_detachWith unasked _ report _)
      exact opened .refused source target

/-! ### Flows -/

/-- A flow is no fault of a link. -/
theorem onFlow_ne_link (flow : Flow) (s s' : Serving) (handle : UInt32) (report : ErrorReport) :
  onFlow flow s ≠ .error (.link handle report) s'
  := by
  intro h
  cases hflow : flow.handle with
  | none =>
      rw [onFlow_of_none hflow] at h
      contradiction
  | some key =>
      cases hget : s.session.endpoints.get? key with
      | none =>
          rw [onFlow_of_unattached hflow hget] at h
          cases h
      | some endpoint =>
          rw [onFlow_of_get? hflow hget] at h
          contradiction

theorem after_handle_flow (flow : Flow) (payload : Bytes) (s : Serving) :
  (Operation.handle (.flow flow) payload).after s = (onFlow flow).after s
  := by
  rw [after, Operation.handle, dispatch]
  split
  · next h => exact absurd h (onFlow_ne_link flow s _ _ _)
  · rfl

theorem speaks_onFlow (flow : Flow) (payload : Bytes) (s : Serving) :
  (tellWindows flow s.session).Speaks (.handle (.flow flow) payload)
    ((onFlow flow).after s).session
  := by
  generalize ht : s.onSession (tellWindows flow) = t
  have hsession : tellWindows flow s.session = t.session := by
    rw [← ht]
    rfl
  rw [hsession]
  cases hflow : flow.handle with
  | none =>
      rw [after_of_ok (onFlow_of_none hflow s), ht]
      apply Speaks.trans _ (Serving.speaks_pumpAll _)
      split
      · exact .alike t.session.alike_emitSessionFlow
      · exact .refl t.session
  | some key =>
      cases hget : s.session.endpoints.get? key with
      | none =>
          rw [after_of_error (onFlow_of_unattached hflow hget), ht]
          exact .refl t.session
      | some endpoint =>
          rw [after_of_ok (onFlow_of_get? hflow hget), ht]
          have there : t.session.endpoints.get? key = some endpoint := by
            rw [← ht]
            exact hget
          apply Speaks.trans _ (Serving.speaks_echo hflow payload _)
          split
          · next sending =>
              apply Speaks.trans _ (Serving.speaks_pump _ key)
              exact .credit rfl hflow there sending
          · exact .refl t.session

/-! ### Everything that is done with a session -/

theorem speaks_handle (p : Performative) (payload : Bytes) (s : Serving) :
  (Act.informed s.session (.handle p payload)).Speaks (.handle p payload)
    ((Operation.handle p payload).after s).session
  := by
  by_cases hflow : ∃ flow, p = .flow flow
  · obtain ⟨flow, rfl⟩ := hflow
    rw [after_handle_flow]
    exact speaks_onFlow flow payload s
  · have unasked : ∀ handle, ¬ Act.Credits handle (.handle p payload) := by
      intro handle hcredits
      cases p with
      | flow flow => exact hflow ⟨flow, rfl⟩
      | _ => contradiction
    have hdispatch : (Act.informed s.session (.handle p payload)).Speaks (.handle p payload)
        ((dispatch p payload).after s).session := by
      cases p with
      | attach attach =>
          have asked : Act.Attaches attach.handle (.handle (.attach attach) payload) := rfl
          exact speaks_onAttach asked s
      | flow flow => exact absurd ⟨flow, rfl⟩ hflow
      | transfer transfer => exact speaks_onTransfer transfer payload s
      | disposition disposition => exact speaks_onDisposition disposition s
      | detach detach =>
          have asked : Act.Detaches detach.handle (.handle (.detach detach) payload) := rfl
          exact speaks_onDetach asked s
      | _ => exact .refl s.session
    obtain h | ⟨key, report, -, h⟩ := handle_cases p payload s
    · rw [h]
      exact hdispatch
    · rw [h]
      exact hdispatch.trans (speaks_detachWith unasked key report _)

end Operation

/-- Whatever is done with a session, but for taking what it has to send, is made up of what it may
tell about links. -/
theorem Session.Act.speaks_run (act : Session.Act) (taking : act ≠ .takeOutput) (s : Serving) :
  (act.informed s.session).Speaks act (act.run s).2.session
  := by
  cases act with
  | handle p payload => exact Operation.speaks_handle p payload s
  | pumpAll => exact s.speaks_pumpAll
  | recover => exact s.speaks_recover
  | finish =>
      apply Speaks.trans (.finish rfl)
      exact .alike (.of_same rfl rfl rfl rfl rfl)
  | takeOutput => contradiction

end MessageBroker
