import MessageBroker.Proofs.Operation
import MessageBroker.Proofs.Table
import MessageBroker.Session.Handling

/-!
# Links are opened and closed

What is left when the peer attaches a link, when the peer detaches one, and when the broker detaches
one because of an error.
-/

namespace MessageBroker

/-! ### What is put in place and taken away -/

/-- A link that this end has detached is no more once the other end has detached it. -/
theorem Link.isDetached_sendDetach (link : Link) (error : Option ErrorReport) :
  (link.sendDetach error).2.isDetached = link.detachReceived
  := by
  cases hreceived : link.detachReceived with
  | false => simp [isDetached, state, sendDetach, hreceived]
  | true => simp [isDetached, state, sendDetach, hreceived]

namespace Endpoint

/-- The end of a link that the broker detaches: the delivery whose transfers are arriving is given
up. -/
def givenUp (endpoint : Endpoint) : Endpoint :=
  let settled :=
    match endpoint.assembly with
    | some assembly => { endpoint.settle assembly.id with assembly := none }
    | none => endpoint
  { settled with link := { settled.link with detachSent := true } }

theorem detachSent_givenUp (endpoint : Endpoint) :
  endpoint.givenUp.link.detachSent = true
  := rfl

/-- The end of a link that the peer attaches, on the terms of the attach but for a terminus that may be
lacking.  If messages come from the peer, it has credit. -/
def opened (attach : Attach) (limits : SessionLimits) (kind : EndpointKind) (source : Option Source)
    (target : Option Target) : Endpoint where
  link :=
    let link := Link.ofAttach attach limits.maxMessageSize
    { link with
      attachSent := true
      source
      target
      credit := if kind.isReceiving then link.credit.grant limits.linkCredit else link.credit }
  kind
  assembly := none

end Endpoint

namespace Session

variable (session : Session)

/-- A session that has attached a link as the peer has, and is to tell so. -/
def openLink (attach : Attach) (kind : EndpointKind) (source : Option Source)
    (target : Option Target) : Session :=
  (session.emit
    (.attach { Link.ofAttach attach session.limits.maxMessageSize with source, target }.sendAttach.1)
    none).putEndpoint attach.handle (.opened attach session.limits kind source target)

/-- A session without a link that the peer has detached. -/
def unlink (handle : UInt32) : Session :=
  { session with
    endpoints := session.endpoints.erase handle
    incomingUnsettled := session.incomingUnsettled.filter fun row => row.2 ≠ handle }

theorem get?_openLink (attach : Attach) (kind : EndpointKind) (source : Option Source)
    (target : Option Target) :
  (session.openLink attach kind source target).endpoints.get? attach.handle
    = some (.opened attach session.limits kind source target)
  := Table.get?_put_self _ _ _

end Session

namespace Operation

/-! ### Detaching -/

/-- What the broker does to a link that it detaches, and tells the peer. -/
theorem detachWith_of_get? {key : UInt32} {endpoint : Endpoint} {s : Serving}
    (hget : s.session.endpoints.get? key = some endpoint)
    (attached : endpoint.link.detachSent = false) (report : ErrorReport) :
  detachWith key report s
    = .ok () (s.onSession fun session =>
        (if endpoint.link.detachReceived then
          { session with endpoints := session.endpoints.erase key }
        else session.putEndpoint key endpoint.givenUp).emit
          (.detach ⟨endpoint.link.handle, true, some report⟩) none)
  := by
  rw [detachWith, run_get_bind, hget]
  dsimp only
  rw [if_neg (by simp [attached])]
  rw [run_onSession, Endpoint.givenUp]
  cases endpoint.assembly with
  | none =>
      simp only [Link.isDetached_sendDetach]
      rfl
  | some assembly =>
      simp only [Link.isDetached_sendDetach]
      rfl

/-- The end of a link that the broker detaches stays until the peer does so. -/
theorem get?_detachWith {key : UInt32} {endpoint : Endpoint} {s : Serving}
    (hget : s.session.endpoints.get? key = some endpoint)
    (attached : endpoint.link.detachSent = false)
    (there : endpoint.link.detachReceived = false) (report : ErrorReport) :
  ((detachWith key report).after s).session.endpoints.get? key = some endpoint.givenUp
  := by
  rw [after_of_ok (detachWith_of_get? hget attached report)]
  change ((if endpoint.link.detachReceived then _ else _ : Session).emit _ none).endpoints.get? key
    = _
  rw [if_neg (by simp [there])]
  exact Table.get?_put_self key _ _

/-- Nothing is left to be done about a link that is not there or that the broker has detached; any
other is detached, and the peer is told. -/
theorem detachWith_cases (key : UInt32) (report : ErrorReport) (s : Serving) :
  ((detachWith key report).after s = s
      ∧ ∀ endpoint, s.session.endpoints.get? key = some endpoint → endpoint.link.detachSent = true)
    ∨ ∃ endpoint, s.session.endpoints.get? key = some endpoint ∧ endpoint.link.detachSent = false
      ∧ (detachWith key report).after s = s.onSession fun session =>
        (if endpoint.link.detachReceived then
          { session with endpoints := session.endpoints.erase key }
        else session.putEndpoint key endpoint.givenUp).emit
          (.detach ⟨endpoint.link.handle, true, some report⟩) none
  := by
  cases hget : s.session.endpoints.get? key with
  | none =>
      refine .inl ⟨?_, by simp⟩
      rw [detachWith, after_get_bind, hget]
      rfl
  | some endpoint =>
      cases hsent : endpoint.link.detachSent with
      | true =>
          refine .inl ⟨?_, by simp [hsent]⟩
          rw [detachWith, after_get_bind, hget]
          dsimp only
          rw [if_pos hsent]
          rfl
      | false => exact .inr ⟨endpoint, rfl, hsent, after_of_ok (detachWith_of_get? hget hsent report)⟩

/-- A link that the peer detaches is no more, and the peer is told so unless the broker has detached the
link before. -/
theorem onDetach_cases (detach : Detach) (s : Serving) :
  (s.session.endpoints.get? detach.handle = none ∧ (onDetach detach).after s = s)
    ∨ ∃ endpoint, s.session.endpoints.get? detach.handle = some endpoint
      ∧ (onDetach detach).after s = s.onSession fun session =>
        if endpoint.link.detachSent then session.unlink detach.handle
        else (session.unlink detach.handle).emit
          (.detach ⟨endpoint.link.handle, detach.closed, none⟩) none
  := by
  cases hget : s.session.endpoints.get? detach.handle with
  | none =>
      left
      rw [onDetach, after_get_bind, hget]
      exact ⟨rfl, rfl⟩
  | some endpoint =>
      refine .inr ⟨endpoint, rfl, ?_⟩
      rw [onDetach, after_get_bind, hget]
      dsimp only
      rw [after_onSession_bind]
      cases endpoint.link.detachSent with
      | true => rfl
      | false => rfl

/-! ### Attaching -/

/-- A link without one of its termini, attached and detached at once. -/
def attachDetach (bare : Link) (report : ErrorReport) : Operation Unit := do
  onSession fun session =>
    (session.emit (.attach bare.sendAttach.1) none).putEndpoint bare.sendAttach.2.handle
      ⟨bare.sendAttach.2, .refused, none⟩
  detachWith bare.sendAttach.2.handle report

/-- A link that is refused is attached and detached at once, with the terminus of the peer. -/
theorem refuseAttach_eq (link : Link) (report : ErrorReport) :
  ∃ source target, refuseAttach link report = attachDetach { link with source, target } report
    ∧ (link.role = .receiver → source = link.source)
    ∧ (link.role = .sender → target = link.target)
  := by
  cases hrole : link.role with
  | receiver =>
      refine ⟨link.source, none, ?_, fun _ => rfl, by simp⟩
      rw [refuseAttach, hrole]
      rfl
  | sender =>
      refine ⟨none, link.target, ?_, by simp, fun _ => rfl⟩
      rw [refuseAttach, hrole]
      rfl

/-- What is left of an attach of the peer.  Nothing changes if its handle is in use.  If it is accepted,
the link is attached, and the peer is told its credit if messages come from the peer.  Otherwise the
link is attached and detached at once. -/
theorem onAttach_cases (attach : Attach) (s : Serving) :
  (s.session.endpoints.has attach.handle = true ∧ (onAttach attach).after s = s)
    ∨ s.session.endpoints.get? attach.handle = none
      ∧ ((∃ kind, EndpointKind.ofAttach s.store attach = .ok kind
          ∧ (onAttach attach).after s = s.onSession fun session =>
            if kind.isReceiving then
              (session.openLink attach kind attach.source attach.target).emitLinkFlow s.store
                attach.handle
            else session.openLink attach kind attach.source attach.target)
        ∨ ∃ report source target, EndpointKind.ofAttach s.store attach = .error report
          ∧ (onAttach attach).after s = (detachWith attach.handle report).after
            (s.onSession (·.openLink attach .refused source target)))
  := by
  cases hused : s.session.endpoints.has attach.handle with
  | true =>
      left
      rw [onAttach, after_get_bind, if_pos hused]
      exact ⟨rfl, rfl⟩
  | false =>
      refine .inr ⟨by simpa [Table.has] using hused, ?_⟩
      rw [onAttach, after_get_bind, if_neg (by simp [hused])]
      dsimp only
      split
      · next kind hkind =>
          refine .inl ⟨kind, hkind, ?_⟩
          rw [acceptAttach]
          dsimp only [Session.openLink, Endpoint.opened]
          rw [after_onSession_bind]
          cases kind.isReceiving with
          | true => rfl
          | false => rfl
      · next report hreport =>
          obtain ⟨source, target, hrefuse, -, -⟩ :=
            refuseAttach_eq (.ofAttach attach s.session.limits.maxMessageSize) report
          refine .inr ⟨report, source, target, hreport, ?_⟩
          rw [hrefuse, attachDetach, after_onSession_bind]
          rfl

/-! ### All performatives -/

/-- What a performative leaves stands, but that a link at fault is detached then. -/
theorem handle_cases (p : Performative) (payload : Bytes) (s : Serving) :
  (handle p payload).after s = (dispatch p payload).after s
    ∨ ∃ key report, dispatch p payload s = .error (.link key report) ((dispatch p payload).after s)
      ∧ (handle p payload).after s = (detachWith key report).after ((dispatch p payload).after s)
  := by
  rw [after, after, handle]
  split
  · next key report s' h =>
      rw [h]
      exact .inr ⟨key, report, rfl, rfl⟩
  · exact .inl rfl

end Operation

end MessageBroker
