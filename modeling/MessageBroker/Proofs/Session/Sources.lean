import MessageBroker.Proofs.Session.Attaching
import MessageBroker.Proofs.Session.Replenishing

/-!
# Where messages come from

A link on which messages go to the peer keeps its source until the peer detaches it or the session
ends, whatever else is done with the session.  It comes about only by an attach of the peer under a
handle that is not in use, and its source is the one that the attach names.
-/

namespace MessageBroker

open Session

/-- On the link with a handle messages go to the peer, from a source. -/
def Session.Serves (session : Session) (handle : UInt32) (source : Option Source) : Prop :=
  ∃ endpoint, session.endpoints.get? handle = some endpoint ∧ endpoint.kind.isSending = true
    ∧ endpoint.link.source = source

/-- By an act the link with a handle comes to its end: the peer detaches it, or the session
ends. -/
def Session.Act.Parts (handle : UInt32) (act : Session.Act) : Prop :=
  act.Detaches handle ∨ act = .finish

/-- By an act the peer attaches a link with a handle, on which messages are to go to it from a
source. -/
def Session.Act.Requests (store : QueueStore) (handle : UInt32) (source : Option Source)
    (act : Session.Act) : Prop :=
  ∃ attach payload kind, act = .handle (.attach attach) payload ∧ attach.handle = handle
    ∧ EndpointKind.ofAttach store attach = .ok kind ∧ kind.isSending = true
    ∧ attach.source = source

variable {act : Session.Act} {session session' session'' : Session} {handle : UInt32}
  {source : Option Source}

/-! ### Links that are there -/

theorem Endpoint.kind_givenUp (endpoint : Endpoint) :
  endpoint.givenUp.kind = endpoint.kind
  := by
  rw [givenUp]
  cases endpoint.assembly <;> rfl

namespace Session

/-- The end of the link with a handle, if it is there, was there before, and messages went to the
peer on it or not, as now. -/
def Inherits (handle : UInt32) (session session' : Session) : Prop :=
  ∀ endpoint', session'.endpoints.get? handle = some endpoint' →
    ∃ endpoint, session.endpoints.get? handle = some endpoint
      ∧ endpoint.kind.isSending = endpoint'.kind.isSending

namespace Inherits

theorem of_endpoints (h : session'.endpoints = session.endpoints) :
  session.Inherits handle session'
  := by
  intro endpoint hget
  rw [h] at hget
  exact ⟨endpoint, hget, rfl⟩

theorem trans (h : session.Inherits handle session') (h' : session'.Inherits handle session'') :
  session.Inherits handle session''
  := by
  intro endpoint'' hget''
  obtain ⟨endpoint', hget', same'⟩ := h' endpoint'' hget''
  obtain ⟨endpoint, hget, same⟩ := h endpoint' hget'
  exact ⟨endpoint, hget, same.trans same'⟩

theorem put {key : UInt32} {endpoint endpoint' : Endpoint}
    (there : session.endpoints.get? key = some endpoint)
    (same : endpoint'.kind.isSending = endpoint.kind.isSending) :
  session.Inherits handle (session.putEndpoint key endpoint')
  := by
  intro after hget
  rw [putEndpoint, Table.get?_put] at hget
  split at hget
  · next key =>
      obtain rfl := Option.some.inj hget
      exact ⟨endpoint, key ▸ there, same.symm⟩
  · exact ⟨after, hget, rfl⟩

theorem put_of_other {key : UInt32} (other : handle ≠ key) (endpoint' : Endpoint) :
  session.Inherits handle (session.putEndpoint key endpoint')
  := by
  intro after hget
  rw [putEndpoint, Table.get?_put, if_neg other] at hget
  exact ⟨after, hget, rfl⟩

theorem erase (session : Session) (key : UInt32) :
  session.Inherits handle { session with endpoints := session.endpoints.erase key }
  := by
  intro after hget
  rw [Table.get?_erase] at hget
  split at hget
  · contradiction
  · exact ⟨after, hget, rfl⟩

end Inherits

theorem Alike.inherits (alike : session.Alike session') :
  session.Inherits handle session'
  := by
  intro endpoint' hget
  have related := alike.endpoints handle
  rw [hget] at related
  cases hbefore : session.endpoints.get? handle with
  | none =>
      rw [hbefore] at related
      contradiction
  | some endpoint =>
      rw [hbefore] at related
      cases related with
      | some steady => exact ⟨endpoint, rfl, steady.sending.symm⟩

/-- A link comes about only when the peer attaches it. -/
theorem Speaks.inherits (speaks : session.Speaks act session') (unasked : ¬ act.Attaches handle) :
  session.Inherits handle session'
  := by
  induction speaks with
  | alike alike => exact alike.inherits
  | trans _ _ first second => exact first.trans second
  | flow => exact .of_endpoints rfl
  | @attach session key endpoint attach asked =>
      change (session.emit (.attach attach) none).Inherits handle _
      apply Inherits.put_of_other
      rintro rfl
      exact unasked asked
  | @detach session key endpoint report _ there =>
      change session.Inherits handle (ite _ _ _ : Session)
      split
      · exact .erase session key
      · exact .put there (congrArg _ endpoint.kind_givenUp)
  | @drop session key => exact .erase session key
  | @answer session key => exact .erase session key
  | finish =>
      intro endpoint' hget
      contradiction
  | credit _ _ there => exact .put there rfl
  | @giveBack session key endpoint _ there =>
      change session.Inherits handle (session.putEndpoint key endpoint.gaveBack)
      exact .put there rfl
  | @deliver session key id endpoint endpoint' settled payload _ there _ _ pays =>
      apply Inherits.trans (.put there pays.sending)
      exact .of_endpoints (endpoints_sendPieces _ _ _)

/-- A link goes on on which messages go to the peer, unless the peer has attached it anew. -/
theorem Inherits.serves {known : QueueId → Prop} {alone : Prop}
    (inherits : session.Inherits handle session')
    (continues : session.Continues known alone handle session') (undisturbed : alone)
    (under : ∀ endpoint, session.endpoints.get? handle = some endpoint →
      endpoint.Under known handle) :
  session'.Serves handle source ↔ session.Serves handle source
  := by
  have goes (endpoint : Endpoint) (hget : session.endpoints.get? handle = some endpoint) :=
    continues.goes undisturbed endpoint hget (under endpoint hget).detachReceived
  constructor
  · rintro ⟨endpoint', hget', sending, rfl⟩
    obtain ⟨endpoint, hget, same⟩ := inherits endpoint' hget'
    obtain ⟨after, hafter, continued⟩ := goes endpoint hget
    obtain rfl := Option.some.inj (hafter.symm.trans hget')
    exact ⟨endpoint, hget, same.trans sending, continued.source.symm⟩
  · rintro ⟨endpoint, hget, sending, rfl⟩
    obtain ⟨endpoint', hget', continued⟩ := goes endpoint hget
    obtain ⟨before, hbefore, same⟩ := inherits endpoint' hget'
    obtain rfl := Option.some.inj (hbefore.symm.trans hget)
    exact ⟨endpoint', hget', same.symm.trans sending, continued.source⟩

end Session

namespace Operation

variable {s : Serving}

/-- A transfer on a link on which messages go to the peer is a fault of the link. -/
theorem endpoints_onTransfer_of_sending {transfer : Transfer} {endpoint : Endpoint}
    (hget : s.session.endpoints.get? transfer.handle = some endpoint)
    (sending : endpoint.kind.isSending = true) (payload : Bytes) :
  ((onTransfer transfer payload).after s).session.endpoints = s.session.endpoints
  := by
  by_cases window : s.session.incomingWindow = 0
  · rw [after, onTransfer, if_pos window]
    rfl
  · have receives := Endpoint.isReceiving_of_isSending sending
    rw [after, onTransfer_of_admitted window, receive_of_some (by exact hget)]
    split
    · exact endpoints_replenishWindow _
    · rw [if_neg (by simp [receives])]
      exact endpoints_replenishWindow _

/-- A link on which messages go to the peer goes on when a transfer comes on it. -/
theorem continues_handle_transfer (known : QueueId → Prop) (alone : Prop) {transfer : Transfer}
    {endpoint : Endpoint} (hget : s.session.endpoints.get? transfer.handle = some endpoint)
    (sending : endpoint.kind.isSending = true) (payload : Bytes) :
  s.session.Continues known alone transfer.handle
    ((Operation.handle (.transfer transfer) payload).after s).session
  := by
  have continues := continues_onTransfer known transfer payload s transfer.handle
  have same := endpoints_onTransfer_of_sending hget sending payload
  have received : s.session.Continues known alone transfer.handle
      ((onTransfer transfer payload).after s).session := by
    refine ⟨continues.limits, continues.window, fun _ before hbefore _ => ?_, continues.under⟩
    rw [same]
    exact ⟨before, hbefore, .refl before⟩
  rw [after_handle, dispatch]
  rw [after] at received
  cases hresult : onTransfer transfer payload s with
  | ok _ s' =>
      rw [hresult] at received
      exact received
  | error fault s' =>
      rw [hresult] at received
      cases fault with
      | link key report => exact received.trans (continues_detachWith _ _ _ key report s')
      | _ => exact received

theorem after_handle_detach (detach : Detach) (payload : Bytes) (s : Serving) :
  (Operation.handle (.detach detach) payload).after s = (onDetach detach).after s
  := by
  rw [after_handle, dispatch, after, onDetach, run_get_bind]
  cases s.session.endpoints.get? detach.handle with
  | none => rfl
  | some endpoint =>
      dsimp only
      rw [run_onSession_bind]
      cases endpoint.link.detachSent with
      | true => rfl
      | false => rfl

/-- No link is left with a handle once the peer has detached it. -/
theorem get?_handle_detach (detach : Detach) (payload : Bytes) (s : Serving) :
  ((Operation.handle (.detach detach) payload).after s).session.endpoints.get? detach.handle = none
  := by
  have gone := (Table.get?_erase s.session.endpoints detach.handle detach.handle).trans (if_pos rfl)
  rw [after_handle_detach]
  obtain ⟨free, same⟩ | ⟨endpoint, -, parted⟩ := onDetach_cases detach s
  · rw [same, free]
  · rw [parted]
    dsimp only [Serving.onSession]
    split
    · exact gone
    · exact gone

/-- The end of a link that is accepted. -/
theorem get?_onAttach_of_ok {attach : Attach} {kind : EndpointKind}
    (free : s.session.endpoints.get? attach.handle = none)
    (accepted : EndpointKind.ofAttach s.store attach = .ok kind) :
  ((onAttach attach).after s).session.endpoints.get? attach.handle
    = some (.opened attach s.session.limits kind attach.source attach.target)
  := by
  obtain ⟨used, -⟩ | ⟨-, ⟨kind', hkind, left⟩ | ⟨report, -, -, refused, -⟩⟩ :=
    onAttach_cases attach s
  · simp [Table.has, free] at used
  · obtain rfl := Except.ok.inj (accepted.symm.trans hkind)
    rw [left]
    dsimp only [Serving.onSession]
    split
    · rw [endpoints_emitLinkFlow]
      exact get?_openLink _ _ _ _ _
    · exact get?_openLink _ _ _ _ _
  · rw [accepted] at refused
    contradiction

/-- The end of a link that is refused: it is attached and detached at once. -/
theorem get?_onAttach_of_error {attach : Attach} {report : ErrorReport}
    (free : s.session.endpoints.get? attach.handle = none)
    (refused : EndpointKind.ofAttach s.store attach = .error report) :
  ∃ source target, ((onAttach attach).after s).session.endpoints.get? attach.handle
    = some (Endpoint.opened attach s.session.limits .refused source target).givenUp
  := by
  obtain ⟨used, -⟩ | ⟨-, ⟨kind, accepted, -⟩ | ⟨_, source, target, -, left⟩⟩ :=
    onAttach_cases attach s
  · simp [Table.has, free] at used
  · rw [refused] at accepted
    contradiction
  · refine ⟨source, target, ?_⟩
    rw [left]
    exact get?_detachWith (s.session.get?_openLink _ _ _ _) rfl rfl _

theorem after_handle_attach {attach : Attach}
    (free : s.session.endpoints.get? attach.handle = none) (payload : Bytes) :
  (Operation.handle (.attach attach) payload).after s = (onAttach attach).after s
  := by
  obtain ⟨s', hok, -⟩ := onAttach_eq_ok free
  rw [after_handle, dispatch, after, hok]
  rfl

/-- An attach under a handle that is not in use puts the end of a link there on which messages go to
the peer if the peer is to receive them and it is accepted, from the source that it names. -/
theorem serves_handle_attach {attach : Attach}
    (free : s.session.endpoints.get? attach.handle = none) (payload : Bytes) :
  ((Operation.handle (.attach attach) payload).after s).session.Serves attach.handle source
    ↔ (∃ kind, EndpointKind.ofAttach s.store attach = .ok kind ∧ kind.isSending = true)
      ∧ attach.source = source
  := by
  rw [after_handle_attach free]
  cases hkind : EndpointKind.ofAttach s.store attach with
  | ok kind =>
      have hget := get?_onAttach_of_ok free hkind
      constructor
      · rintro ⟨endpoint, hendpoint, sending, rfl⟩
        obtain rfl := Option.some.inj (hget.symm.trans hendpoint)
        exact ⟨⟨kind, rfl, sending⟩, rfl⟩
      · rintro ⟨⟨kind, ⟨⟩, sending⟩, rfl⟩
        exact ⟨_, hget, sending, rfl⟩
  | error report =>
      obtain ⟨source', target, hget⟩ := get?_onAttach_of_error free hkind
      constructor
      · rintro ⟨endpoint, hendpoint, sending, -⟩
        obtain rfl := Option.some.inj (hget.symm.trans hendpoint)
        contradiction
      · rintro ⟨⟨kind, ⟨⟩, -⟩, -⟩

/-- An attach under a handle that is in use is refused, and the session left as it is. -/
theorem handle_attach_of_used {attach : Attach} {endpoint : Endpoint}
    (used : s.session.endpoints.get? attach.handle = some endpoint) (payload : Bytes) :
  Operation.handle (.attach attach) payload s
    = .error (.onSession .handleInUse s!"handle {attach.handle} is already in use") s
  := by
  rw [handle, dispatch, onAttach, run_get_bind, if_pos (by simp [Table.has, used])]
  rfl

theorem after_handle_attach_of_used {attach : Attach} {endpoint : Endpoint}
    (used : s.session.endpoints.get? attach.handle = some endpoint) (payload : Bytes) :
  (Operation.handle (.attach attach) payload).after s = s
  := after_of_error (handle_attach_of_used used payload)

end Operation

/-! ### Everything that is done with a session -/

namespace Session.Act

variable {s : Serving} {known : QueueId → Prop}

/-- No links come about unless the peer attaches them. -/
theorem inherits_run (act : Session.Act) (s : Serving) (unasked : ¬ act.Attaches handle) :
  s.session.Inherits handle (act.run s).2.session
  := by
  by_cases taking : act = .takeOutput
  · subst taking
    exact .of_endpoints rfl
  · apply Inherits.trans _ ((act.speaks_run taking s).inherits unasked)
    exact .of_endpoints (act.informed_same s.session).1

/-- The delivery that arrives on a link is concerned with the end of the link, and with the transfers
that come on it. -/
theorem concerns_iff :
  act.Concerns handle
    ↔ act.Parts handle
      ∨ ∃ transfer payload, act = .handle (.transfer transfer) payload ∧ transfer.handle = handle
  := by
  constructor
  · intro concerns
    cases act with
    | handle p payload =>
        cases p with
        | transfer transfer => exact .inr ⟨transfer, payload, rfl, concerns⟩
        | detach detach => exact .inl (.inl concerns)
        | _ => contradiction
    | finish => exact .inl (.inr rfl)
    | _ => contradiction
  · rintro ((detaches | rfl) | ⟨transfer, payload, rfl, names⟩)
    · cases act with
      | handle p payload =>
          cases p with
          | detach detach => exact detaches
          | _ => contradiction
      | _ => contradiction
    · trivial
    · exact names

theorem Parts.concerns (parts : act.Parts handle) :
  act.Concerns handle
  := concerns_iff.mpr (.inl parts)

/-- A link on which messages go to the peer goes on until it comes to its end. -/
theorem continues_run_of_sending (act : Session.Act)
    (hknown : ∀ queue, s.store.Has queue → known queue) {endpoint : Endpoint}
    (hget : s.session.endpoints.get? handle = some endpoint)
    (sending : endpoint.kind.isSending = true) :
  s.session.Continues known (¬ act.Parts handle) handle (act.run s).2.session
  := by
  have continues := act.continues_run hknown handle
  by_cases concerns : act.Concerns handle
  · rcases concerns_iff.mp concerns with parts | ⟨transfer, payload, rfl, rfl⟩
    · exact ⟨continues.limits, continues.window, fun lasts => absurd parts lasts, continues.under⟩
    · exact Operation.continues_handle_transfer _ _ hget sending payload
  · exact ⟨continues.limits, continues.window, fun _ => continues.goes concerns, continues.under⟩

theorem Parts.get?_run (parts : act.Parts handle) (s : Serving) :
  (act.run s).2.session.endpoints.get? handle = none
  := by
  obtain detaches | rfl := parts
  · cases act with
    | handle p payload =>
        cases p with
        | detach detach =>
            obtain rfl : detach.handle = handle := detaches
            exact Operation.get?_handle_detach detach payload s
        | _ => contradiction
    | _ => contradiction
  · rfl

theorem not_parts_of_attaches (attaches : act.Attaches handle) :
  ¬ act.Parts handle
  := by
  cases act with
  | handle p payload =>
      cases p with
      | attach attach => exact fun parts => parts.concerns
      | _ => contradiction
  | _ => contradiction

theorem Requests.attaches {store : QueueStore}
    (requests : act.Requests store handle source) :
  act.Attaches handle
  := by
  obtain ⟨attach, payload, kind, rfl, names, -⟩ := requests
  exact names

/-- Whatever is done with a session, messages go to the peer on a link as before until the link
comes to its end, or from when the peer attaches it under a handle that is not in use. -/
theorem serves_run (act : Session.Act) (hknown : ∀ queue, s.store.Has queue → known queue)
    (attached : s.session.Attached known) (handle : UInt32) (source : Option Source) :
  (act.run s).2.session.Serves handle source
    ↔ s.session.Serves handle source ∧ ¬ act.Parts handle
      ∨ s.session.endpoints.get? handle = none ∧ act.Requests s.store handle source
  := by
  by_cases attaches : act.Attaches handle
  · have lasts := not_parts_of_attaches attaches
    cases act with
    | handle p payload =>
        cases p with
        | attach attach =>
            obtain rfl : attach.handle = handle := attaches
            change ((Operation.handle (.attach attach) payload).after s).session.Serves _ _ ↔ _
            cases hget : s.session.endpoints.get? attach.handle with
            | none =>
                rw [Operation.serves_handle_attach hget payload]
                constructor
                · rintro ⟨⟨kind, accepted, sending⟩, rfl⟩
                  exact .inr ⟨rfl, attach, payload, kind, rfl, rfl, accepted, sending, rfl⟩
                · rintro (⟨⟨endpoint, hendpoint, -⟩, -⟩ | ⟨-, requests⟩)
                  · rw [hget] at hendpoint
                    contradiction
                  · obtain ⟨_, _, kind, ⟨⟩, -, accepted, sending, named⟩ := requests
                    exact ⟨⟨kind, accepted, sending⟩, named⟩
            | some endpoint =>
                rw [Operation.after_handle_attach_of_used hget payload]
                simp [lasts]
        | _ => contradiction
    | _ => contradiction
  · have silent : ¬ act.Requests s.store handle source :=
      fun requests => attaches requests.attaches
    rw [or_iff_left fun h => silent h.2]
    by_cases parts : act.Parts handle
    · constructor
      · rintro ⟨endpoint, hget, -⟩
        rw [parts.get?_run s] at hget
        contradiction
      · exact fun serves => absurd parts serves.2
    · rw [and_iff_left parts]
      have inherits := act.inherits_run s attaches
      by_cases serving : ∃ endpoint, s.session.endpoints.get? handle = some endpoint
          ∧ endpoint.kind.isSending = true
      · obtain ⟨endpoint, hget, sending⟩ := serving
        exact inherits.serves (act.continues_run_of_sending hknown hget sending) parts
          (attached handle)
      · constructor
        · rintro ⟨endpoint', hget', sending, -⟩
          obtain ⟨endpoint, hget, same⟩ := inherits endpoint' hget'
          exact absurd ⟨endpoint, hget, same.trans sending⟩ serving
        · rintro ⟨endpoint, hget, sending, -⟩
          exact absurd ⟨endpoint, hget, sending⟩ serving

end Session.Act

end MessageBroker
