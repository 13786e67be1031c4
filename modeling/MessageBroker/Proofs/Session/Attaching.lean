import MessageBroker.Proofs.Session.Answering
import MessageBroker.Proofs.Session.Sizes

/-!
# Answers to attaches

An attach of the peer is answered by one that tells the same name and the same terminus of the peer.
If the link is refused, a detach follows that tells why.
-/

namespace MessageBroker

open Session

/-- Where only flows are to be sent besides, everything is that was to be sent. -/
theorem Session.Flows.keeps {session session' : Session} (flows : session.Flows session')
    {output : Outgoing} (hmem : output ∈ session.pending) :
  output ∈ session'.pending
  := by
  obtain ⟨told, htold⟩ := flows
  rw [htold]
  apply List.mem_append_left _ hmem

/-- What is told answers an attach of the peer, which is accepted or refused. -/
structure Attach.Answered (attach : Attach) (outcome : Except ErrorReport EndpointKind)
    (told : List Outgoing) : Prop where
  /-- The link is attached under the same name, and the peer's end of it is as the peer says. -/
  attached : ∃ reply : Attach, ⟨.attach reply, none⟩ ∈ told ∧ reply.name = attach.name
    ∧ (attach.role = .sender → reply.source = attach.source)
    ∧ (attach.role = .receiver → reply.target = attach.target)
  /-- If the link is refused, it is detached, and the peer is told why. -/
  refused : ∀ report, outcome = .error report → outgoingDetach attach.handle report ∈ told

/-- What the answer to an attach repeats, however large it is: the name, what the peer says of its
own end, and why the link is refused. -/
inductive Attach.Repeats (attach : Attach) (outcome : Except ErrorReport EndpointKind) :
    Value → Prop where
  /-- The name of the link. -/
  | name : Repeats attach outcome (.string attach.name)
  /-- The source, if the peer is the sender. -/
  | source {source : Source} (role : attach.role = .sender) (there : attach.source = some source) :
      Repeats attach outcome source.toValue
  /-- The target, if the peer is the receiver. -/
  | target {target : Target} (role : attach.role = .receiver)
      (there : attach.target = some target) : Repeats attach outcome target.toValue
  /-- Why the link is refused. -/
  | report {report : ErrorReport} (refused : outcome = .error report) :
      Repeats attach outcome report.toValue

/-- Whatever the answer to an attach repeats, some frame of the answer is larger. -/
theorem Attach.Answered.exceeds {attach : Attach} {outcome : Except ErrorReport EndpointKind}
    {told : List Outgoing} (answered : attach.Answered outcome told) {field : Value}
    (repeats : attach.Repeats outcome field) :
  ∃ output ∈ told, field.encode.length < output.size
  := by
  obtain ⟨reply, hmem, name, source, target⟩ := answered.attached
  cases repeats with
  | name =>
      refine ⟨_, hmem, ?_⟩
      apply Outgoing.length_encode_lt_size
      · rw [← name]
        simp [Performative.whole]
      · rfl
  | source role there =>
      refine ⟨_, hmem, ?_⟩
      apply Outgoing.length_encode_lt_size
      · simp [Performative.whole, source role, there, fieldOf]
      · rfl
  | @target terminus role there =>
      refine ⟨_, hmem, ?_⟩
      apply Outgoing.length_encode_lt_size
      · simp [Performative.whole, target role, there, fieldOf]
      · cases terminus <;> rfl
  | report refused =>
      refine ⟨_, answered.refused _ refused, ?_⟩
      apply Outgoing.length_encode_lt_size
      · simp [outgoingDetach, Performative.whole, fieldOf]
      · rfl

namespace Operation

variable {attach : Attach} {s : Serving}

/-- A link that is accepted is told so. -/
theorem acceptAttach_eq_ok (link : Link) (kind : EndpointKind) (s : Serving) :
  ∃ s', acceptAttach link kind s = .ok () s'
    ∧ ⟨.attach link.sendAttach.1, none⟩ ∈ s'.session.pending
  := by
  have told := mem_pending_emit s.session (.attach link.sendAttach.1) none
  rw [acceptAttach]
  dsimp only
  rw [run_onSession_bind]
  split
  · refine ⟨_, rfl, ?_⟩
    apply (Flows.emitLinkFlow _ _ _).keeps
    exact told
  · exact ⟨_, rfl, told⟩

/-- Nothing but the answer is told of a link that is accepted on which no messages come. -/
theorem acceptAttach_of_sending {kind : EndpointKind} (sends : kind.isReceiving = false)
    (link : Link) (s : Serving) :
  acceptAttach link kind s
    = .ok () (s.onSession fun session =>
        (session.emit (.attach link.sendAttach.1) none).putEndpoint link.handle
          ⟨link.sendAttach.2, kind, none⟩)
  := by
  rw [acceptAttach]
  dsimp only
  rw [run_onSession_bind, if_neg (by simp [sends])]
  rfl

/-- A link that is attached and detached at once is told so. -/
theorem attachDetach_eq_ok (bare : Link) (attached : bare.detachSent = false)
    (report : ErrorReport) (s : Serving) :
  ∃ s', attachDetach bare report s = .ok () s'
    ∧ ⟨.attach bare.sendAttach.1, none⟩ ∈ s'.session.pending
    ∧ outgoingDetach bare.handle report ∈ s'.session.pending
  := by
  rw [attachDetach, run_onSession_bind]
  obtain ⟨s', hok, told⟩ :=
    detachWith_eq_ok (s := s.onSession fun session =>
      (session.emit (.attach bare.sendAttach.1) none).putEndpoint bare.sendAttach.2.handle
        ⟨bare.sendAttach.2, .refused, none⟩) (Table.get?_put_self _ _ _) attached report
  refine ⟨s', hok, ?_⟩
  rw [told]
  constructor
  · exact List.mem_append_left _ (mem_pending_emit s.session (.attach bare.sendAttach.1) none)
  · exact List.mem_append_right _ (List.mem_singleton_self _)

/-- An attach under a handle that is free is answered. -/
theorem onAttach_eq_ok (free : s.session.endpoints.get? attach.handle = none) :
  ∃ s', onAttach attach s = .ok () s'
    ∧ attach.Answered (EndpointKind.ofAttach s.store attach) s'.session.pending
  := by
  rw [onAttach, run_get_bind, if_neg (by simp [Table.has, free])]
  cases hkind : EndpointKind.ofAttach s.store attach with
  | ok kind =>
      obtain ⟨s', hok, told⟩ :=
        acceptAttach_eq_ok (.ofAttach attach s.session.limits.maxMessageSize) kind s
      refine ⟨s', hok, ⟨_, told, rfl, fun _ => rfl, fun _ => rfl⟩, ?_⟩
      rintro report ⟨⟩
  | error report =>
      obtain ⟨source, target, hrefuse, keepsSource, keepsTarget⟩ :=
        refuseAttach_eq (.ofAttach attach s.session.limits.maxMessageSize) report
      obtain ⟨s', hok, told, detached⟩ := attachDetach_eq_ok
        { Link.ofAttach attach s.session.limits.maxMessageSize with source, target } rfl report s
      rw [← hrefuse] at hok
      refine ⟨s', hok, ⟨_, told, rfl, ?_, ?_⟩, ?_⟩
      · intro role
        apply keepsSource
        change attach.role.opposite = _
        rw [role]
        rfl
      · intro role
        apply keepsTarget
        change attach.role.opposite = _
        rw [role]
        rfl
      · rintro report ⟨⟩
        exact detached

/-- An attach under a handle that is free, by which no messages are to come, is answered by one
attach. -/
theorem handle_attach_of_sending (free : s.session.endpoints.get? attach.handle = none)
    {kind : EndpointKind} (accepted : EndpointKind.ofAttach s.store attach = .ok kind)
    (sends : kind.isReceiving = false) (payload : Bytes) :
  handle (.attach attach) payload s
    = .ok () (s.onSession fun session =>
        (session.emit
          (.attach (Link.ofAttach attach s.session.limits.maxMessageSize).sendAttach.1)
          none).putEndpoint attach.handle
            ⟨(Link.ofAttach attach s.session.limits.maxMessageSize).sendAttach.2, kind, none⟩)
  := by
  rw [handle, dispatch, onAttach, run_get_bind, if_neg (by simp [Table.has, free]), accepted]
  dsimp only
  rw [acceptAttach_of_sending sends]
  rfl

theorem handle_attach_eq_ok (free : s.session.endpoints.get? attach.handle = none)
    (payload : Bytes) :
  ∃ s', handle (.attach attach) payload s = .ok () s'
    ∧ attach.Answered (EndpointKind.ofAttach s.store attach) s'.session.pending
  := by
  obtain ⟨s', hok, answered⟩ := onAttach_eq_ok free
  refine ⟨s', ?_, answered⟩
  rw [handle, dispatch, hok]

end Operation

end MessageBroker
