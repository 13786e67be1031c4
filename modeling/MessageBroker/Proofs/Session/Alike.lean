import MessageBroker.Proofs.Session.Allowance

/-!
# Changes that tell nothing about links

Attaches, flows, transfers and detaches name a link; nothing else that a session tells the peer
does.  Most of what a session does tells the peer about no link, and changes nothing that bears on
what it may still tell about one: it settles deliveries, records them and takes them in.
-/

namespace MessageBroker

open Session

/-- The link that an output names. -/
def Outgoing.link? (output : Outgoing) : Option UInt32 :=
  match output.performative with
  | .attach attach => some attach.handle
  | .flow flow => flow.handle
  | .transfer transfer => some transfer.handle
  | .detach detach => some detach.handle
  | _ => none

/-- Whether a performative is one of a session, between its begin and its end. -/
def Performative.isOfSession : Performative → Bool
  | .attach _ | .flow _ | .transfer _ | .disposition _ | .detach _ => true
  | .openConnection _ | .beginSession _ | .endSession _ | .closeConnection _ => false

/-! ### Ends of links that stay as they are -/

/-- What bears on the things told about a link is the same at its end. -/
structure Endpoint.Steady (endpoint endpoint' : Endpoint) : Prop where
  /-- The link has the same number. -/
  handle : endpoint'.link.handle = endpoint.link.handle
  /-- The broker has detached the link or not, as before. -/
  detachSent : endpoint'.link.detachSent = endpoint.link.detachSent
  /-- The peer has detached the link or not, as before. -/
  detachReceived : endpoint'.link.detachReceived = endpoint.link.detachReceived
  /-- Messages go to the peer or not, as before. -/
  sending : endpoint'.kind.isSending = endpoint.kind.isSending
  /-- The peer wants credit given back or not, as before. -/
  drain : endpoint'.link.credit.drain = endpoint.link.credit.drain
  /-- The credit is the same where messages go to the peer. -/
  credit : endpoint.kind.isSending = true → endpoint'.link.credit = endpoint.link.credit

namespace Endpoint

variable {endpoint endpoint' endpoint'' : Endpoint}

theorem Steady.refl (endpoint : Endpoint) :
  endpoint.Steady endpoint
  := ⟨rfl, rfl, rfl, rfl, rfl, fun _ => rfl⟩

theorem Steady.trans (h : endpoint.Steady endpoint') (h' : endpoint'.Steady endpoint'') :
  endpoint.Steady endpoint''
  := by
  constructor
  · exact h'.handle.trans h.handle
  · exact h'.detachSent.trans h.detachSent
  · exact h'.detachReceived.trans h.detachReceived
  · exact h'.sending.trans h.sending
  · exact h'.drain.trans h.drain
  · intro hsending
    exact (h'.credit (h.sending.trans hsending)).trans (h.credit hsending)

theorem steady_settle (endpoint : Endpoint) (id : UInt32) :
  endpoint.Steady (endpoint.settle id)
  := ⟨rfl, rfl, rfl, rfl, rfl, fun _ => rfl⟩

/-- A delivery uses credit; only a flow says what is to become of the rest. -/
theorem drain_startDelivery (link : Link) (transfer : Transfer) :
  (startDelivery link transfer).2.credit.drain = link.credit.drain
  := by
  rw [startDelivery]
  split
  · split
    · rfl
    · next credit hcredit =>
        have hdrain : credit.drain = link.credit.drain := by
          rw [LinkCredit.onTransfer] at hcredit
          split at hcredit
          · cases hcredit
            rfl
          · contradiction
        dsimp only
        split
        · exact hdrain
        · split
          · exact hdrain
          · split
            · exact hdrain
            · exact hdrain
  · rfl

/-- Where messages come from the peer, a delivery uses the credit of the peer. -/
theorem steady_takeAssembly {endpoint : Endpoint} (receives : endpoint.kind.isSending = false)
    (transfer : Transfer) :
  endpoint.Steady (endpoint.takeAssembly transfer).2
  := by
  have hdrain : (endpoint.takeAssembly transfer).2.link.credit.drain
      = endpoint.link.credit.drain := by
    rw [takeAssembly]
    split
    · rfl
    · exact drain_startDelivery endpoint.link transfer
  obtain ⟨credit, unsettled, assembly, h⟩ := endpoint.takeAssembly_snd transfer
  rw [h] at hdrain ⊢
  exact ⟨rfl, rfl, rfl, rfl, hdrain, fun hsending => by simp [receives] at hsending⟩

/-- Credit is granted where messages come from the peer. -/
theorem steady_grant {endpoint : Endpoint} (receives : endpoint.kind.isSending = false)
    (credit : UInt32) :
  endpoint.Steady (endpoint.onLink fun link => { link with credit := link.credit.grant credit })
  := ⟨rfl, rfl, rfl, rfl, rfl, fun hsending => by simp [receives] at hsending⟩

end Endpoint

/-! ### Changes that tell nothing about links -/

/-- A session changes in nothing that bears on the things told about links, and tells nothing about
them. -/
structure Session.Alike (session session' : Session) : Prop where
  /-- The limits are the same. -/
  limits : session'.limits = session.limits
  /-- The next transfer has the same number. -/
  nextOutgoingId : session'.nextOutgoingId = session.nextOutgoingId
  /-- The peer accepts as many transfers. -/
  remoteIncomingWindow : session'.remoteIncomingWindow = session.remoteIncomingWindow
  /-- The ends of the links are the same. -/
  endpoints : ∀ key,
    Option.Rel Endpoint.Steady (session.endpoints.get? key) (session'.endpoints.get? key)
  /-- What is told names no link. -/
  outbox : ∃ told, session'.outbox = session.outbox ++ told ∧ ∀ output ∈ told, output.link? = none
  /-- What is told are performatives of the session, without payload. -/
  kinds : ∀ output ∈ session'.outbox,
    output ∈ session.outbox
      ∨ output.performative.isOfSession = true ∧ output.payload = none

namespace Session

variable {session session' session'' : Session}

theorem rel_steady_refl (endpoint : Option Endpoint) :
  Option.Rel Endpoint.Steady endpoint endpoint
  := by
  cases endpoint with
  | none => exact .none
  | some endpoint => exact .some (.refl endpoint)

namespace Alike

/-- A change of the accounts of deliveries and transactions, or of what is to be told about
deliveries. -/
theorem of_same (limits : session'.limits = session.limits)
    (nextOutgoingId : session'.nextOutgoingId = session.nextOutgoingId)
    (window : session'.remoteIncomingWindow = session.remoteIncomingWindow)
    (endpoints : session'.endpoints = session.endpoints)
    (outbox : session'.outbox = session.outbox) :
  session.Alike session'
  := by
  refine ⟨limits, nextOutgoingId, window, fun key => ?_, ⟨[], ?_, by simp⟩,
    fun output hmem => .inl ?_⟩
  · rw [endpoints]
    exact rel_steady_refl _
  · rw [outbox, List.append_nil]
  · rwa [outbox] at hmem

theorem refl (session : Session) :
  session.Alike session
  := of_same rfl rfl rfl rfl rfl

theorem trans (h : session.Alike session') (h' : session'.Alike session'') :
  session.Alike session''
  := by
  refine ⟨h'.limits.trans h.limits, h'.nextOutgoingId.trans h.nextOutgoingId,
    h'.remoteIncomingWindow.trans h.remoteIncomingWindow, fun key => ?_, ?_, fun output hmem => ?_⟩
  · have hfirst := h.endpoints key
    have hsecond := h'.endpoints key
    revert hfirst hsecond
    generalize session.endpoints.get? key = x
    generalize session'.endpoints.get? key = y
    generalize session''.endpoints.get? key = z
    intro hfirst hsecond
    cases hfirst with
    | none => exact hsecond
    | some steady =>
        cases hsecond with
        | some steady' => exact .some (steady.trans steady')
  · obtain ⟨told, htold, hnone⟩ := h.outbox
    obtain ⟨told', htold', hnone'⟩ := h'.outbox
    refine ⟨told ++ told', by rw [htold', htold, List.append_assoc], ?_⟩
    intro output hmem
    exact (List.mem_append.mp hmem).elim (hnone output) (hnone' output)
  · exact (h'.kinds output hmem).elim (h.kinds output) .inr

variable {key : UInt32}

/-- An end of a link that is there afterwards was there before. -/
theorem there (h : session.Alike session') {endpoint' : Endpoint}
    (hget : session'.endpoints.get? key = some endpoint') :
  ∃ endpoint, session.endpoints.get? key = some endpoint ∧ endpoint.Steady endpoint'
  := by
  have hrel := h.endpoints key
  rw [hget] at hrel
  revert hrel
  generalize session.endpoints.get? key = x
  intro hrel
  cases hrel with
  | some steady => exact ⟨_, rfl, steady⟩

theorem free (h : session.Alike session') (hget : session'.endpoints.get? key = none) :
  session.endpoints.get? key = none
  := by
  have hrel := h.endpoints key
  rw [hget] at hrel
  revert hrel
  generalize session.endpoints.get? key = x
  intro hrel
  cases hrel
  rfl

end Alike

variable (session : Session)

theorem alike_putEndpoint {session : Session} {key : UInt32} {endpoint endpoint' : Endpoint}
    (h : session.endpoints.get? key = some endpoint) (steady : endpoint.Steady endpoint') :
  session.Alike (session.putEndpoint key endpoint')
  := by
  refine ⟨rfl, rfl, rfl, fun other => ?_, ⟨[], (List.append_nil _).symm, by simp⟩, fun _ => .inl⟩
  rw [putEndpoint]
  dsimp only
  rw [Table.get?_put]
  split
  · next hkey =>
      rw [hkey, h]
      exact .some steady
  · exact rel_steady_refl _

theorem alike_update (key : UInt32) {change : Endpoint → Endpoint}
    (steady : ∀ endpoint : Endpoint, endpoint.Steady (change endpoint)) :
  session.Alike { session with endpoints := session.endpoints.update key change }
  := by
  refine ⟨rfl, rfl, rfl, fun other => ?_, ⟨[], (List.append_nil _).symm, by simp⟩, fun _ => .inl⟩
  dsimp only
  rw [Table.get?_update]
  split
  · cases session.endpoints.get? other with
    | none => exact .none
    | some endpoint => exact .some (steady endpoint)
  · exact rel_steady_refl _

theorem alike_settle (key id : UInt32) :
  session.Alike (session.settle key id)
  := session.alike_update key fun endpoint => endpoint.steady_settle id

theorem alike_tell (settlement : Settlement) :
  session.Alike (session.tell settlement)
  := .of_same rfl rfl rfl rfl rfl

theorem alike_forget (id : UInt32) :
  session.Alike (session.forget id)
  := by
  rw [forget]
  split
  · exact (session.alike_settle _ id).trans (.of_same rfl rfl rfl rfl rfl)
  · exact .refl session

theorem alike_onSenderDisposition (disposition : Disposition) :
  session.Alike (session.onSenderDisposition disposition)
  := related_onSenderDisposition .refl .trans alike_forget session disposition

/-- Dispositions name no link. -/
theorem alike_flush :
  session.Alike session.flush
  := by
  have hdisposition : ∀ output ∈ (Settlement.coalesce .receiver session.settlements).map
        (fun disposition => (⟨.disposition disposition, none⟩ : Outgoing)),
      output.link? = none ∧ output.performative.isOfSession = true ∧ output.payload = none := by
    intro output hmem
    obtain ⟨disposition, -, rfl⟩ := List.mem_map.mp hmem
    exact ⟨rfl, rfl, rfl⟩
  refine ⟨rfl, rfl, rfl, fun _ => rel_steady_refl _,
    ⟨_, rfl, fun output hmem => (hdisposition output hmem).1⟩, fun output hmem => ?_⟩
  exact (List.mem_append.mp hmem).imp_right fun hmem => (hdisposition output hmem).2

theorem alike_emit {p : Performative} (h : Outgoing.link? ⟨p, none⟩ = none)
    (kind : p.isOfSession = true) :
  session.Alike (session.emit p none)
  := by
  apply session.alike_flush.trans
  refine ⟨rfl, rfl, rfl, fun _ => rel_steady_refl _, ⟨_, rfl, by simp [h]⟩, fun output hmem => ?_⟩
  apply (List.mem_append.mp hmem).imp_right
  intro hlast
  rw [List.mem_singleton.mp hlast]
  exact ⟨kind, rfl⟩

theorem alike_emitSessionFlow :
  session.Alike session.emitSessionFlow
  := session.alike_emit rfl rfl

end Session

/-! ### Operations that tell nothing about links -/

namespace Operation

theorem alike_carryOutEach (decided : List (UInt32 × OutgoingDelivery × DeliveryState))
    (s : Serving) :
  s.session.Alike ((carryOutEach decided).after s).session
  := by
  obtain ⟨_, _, hcarried⟩ := session_carryOutEach decided s
  rw [hcarried]
  exact .of_same rfl rfl rfl rfl rfl

/-- To account for deliveries from the peer tells nothing about links. -/
theorem reckons_alike :
  Serving.Reckons fun s s' => s.session.Alike s'.session
  where
  refl s := .refl s.session
  trans := .trans
  settles s := s.session.alike_settle
  tells s := s.session.alike_tell
  awaits _ _ := .of_same rfl rfl rfl rfl rfl

theorem alike_complete (endpoint : Endpoint) (assembly : Assembly) (s : Serving) :
  s.session.Alike ((complete endpoint assembly).after s).session
  := by
  refine related_complete reckons_alike ?_ ?_ ?_ endpoint assembly s
  · exact fun _ _ => .of_same rfl rfl rfl rfl rfl
  · exact fun s _ _ => .refl s.session
  · exact fun _ _ _ _ _ _ _ => .of_same rfl rfl rfl rfl rfl

theorem alike_replenishWindow (s : Serving) :
  s.session.Alike (replenishWindow s).session
  := by
  rw [replenishWindow]
  change s.session.Alike (ite _ _ _)
  split
  · exact .refl s.session
  · apply Alike.trans _ (alike_emitSessionFlow _)
    exact .of_same rfl rfl rfl rfl rfl

end Operation

end MessageBroker
