import MessageBroker.Proofs.Session.Quiet

/-!
# Deliveries that are completed

A transfer may complete a delivery: it is the last of its delivery, which is neither aborted nor
larger than its link accepts.  Only then is anything done that is not quiet, by what stands behind
the endpoint.
-/

namespace MessageBroker

/-- The delivery that a transfer completes on an endpoint, if it does, and the endpoint without
it. -/
def Endpoint.completed? (endpoint : Endpoint) (transfer : Transfer) (payload : Bytes) :
    Option (Endpoint × Assembly) :=
  match endpoint.takeAssembly transfer with
  | (.ok assembly, endpoint) =>
    let assembly := assembly.push payload
    if transfer.aborted || transfer.more || assembly.discarding
        || endpoint.link.exceedsMaxMessageSize assembly.size then none
    else some (endpoint, assembly)
  | (.error _, _) => none

/-- The delivery that a performative completes, if it does, and its endpoint without it. -/
def Session.completed? (session : Session) (p : Performative) (payload : Bytes) :
    Option (Endpoint × Assembly) :=
  match p with
  | .transfer transfer =>
    if session.incomingWindow = 0 then none
    else
      match session.endpoints.get? transfer.handle with
      | some endpoint =>
        if endpoint.link.detachSent || !endpoint.kind.isReceiving then none
        else endpoint.completed? transfer payload
      | none => none
  | _ => none

/-- The transaction control that a performative completes, if it does. -/
def Session.control? (session : Session) (p : Performative) (payload : Bytes) :
    Option TransactionControl :=
  match session.completed? p payload with
  | some (endpoint, assembly) =>
    if endpoint.kind = .coordinator then (Operation.controlOf assembly.payload).toOption else none
  | none => none

/-- A session after a transfer was counted. -/
def Session.count (session : Session) : Session :=
  { session with
    incomingWindow := session.incomingWindow - 1
    nextIncomingId := session.nextIncomingId + 1 }

namespace Operation

theorem limitSize_of_within {endpoint : Endpoint} {assembly : Assembly}
    (h : (!assembly.discarding && endpoint.link.exceedsMaxMessageSize assembly.size) = false)
    (s : Serving) :
  limitSize endpoint assembly s = .ok assembly s
  := by
  rw [limitSize, h]
  rfl

/-- A size limit that is passed leaves a delivery as it is, or drops its payloads. -/
theorem limitSize_eq_ok {endpoint : Endpoint} {assembly assembly' : Assembly} {s s' : Serving}
    (h : limitSize endpoint assembly s = .ok assembly' s') :
  assembly' = assembly ∧ s' = s ∧ (!assembly.discarding
      && endpoint.link.exceedsMaxMessageSize assembly.size) = false
    ∨ assembly' = assembly.discard ∧ endpoint.link.exceedsMaxMessageSize assembly.size = true
        ∧ assembly.discarding = false
  := by
  rw [limitSize] at h
  split at h
  · next hexceeds =>
      right
      rw [run_bind] at h
      split at h
      · obtain ⟨rfl, -⟩ := EStateM.Result.ok.inj h
        simp only [Bool.and_eq_true, Bool.not_eq_true'] at hexceeds
        exact ⟨rfl, hexceeds.2, hexceeds.1⟩
      · contradiction
  · next hwithin =>
      left
      obtain ⟨rfl, rfl⟩ := EStateM.Result.ok.inj h
      exact ⟨rfl, rfl, by simpa using hwithin⟩

/-- A size limit that fails is the fault of the link. -/
theorem limitSize_eq_error {endpoint : Endpoint} {assembly : Assembly} {fault : Fault}
    {s s' : Serving} (h : limitSize endpoint assembly s = .error fault s') :
  (∃ report, fault = .link endpoint.link.handle report) ∧ s' = s
    ∧ endpoint.link.exceedsMaxMessageSize assembly.size = true ∧ assembly.discarding = false
  := by
  rw [limitSize] at h
  split at h
  · next hexceeds =>
      simp only [Bool.and_eq_true, Bool.not_eq_true'] at hexceeds
      rw [run_bind, refuse] at h
      split at h
      · next _ _ hrefuse =>
          split at hrefuse
          · contradiction
          · contradiction
      · next fault' s'' hrefuse =>
          obtain ⟨rfl, rfl⟩ := EStateM.Result.error.inj h
          split at hrefuse
          · obtain ⟨rfl, rfl⟩ := EStateM.Result.error.inj hrefuse
            exact ⟨⟨_, rfl⟩, rfl, hexceeds.2, hexceeds.1⟩
          · contradiction
  · contradiction

end Operation

namespace Endpoint

variable {endpoint endpoint' : Endpoint} {transfer : Transfer} {payload : Bytes}
  {assembly : Assembly}

/-- What it takes for a transfer to complete a delivery. -/
theorem completed?_eq_some_iff :
  endpoint.completed? transfer payload = some (endpoint', assembly)
    ↔ ∃ taken, endpoint.takeAssembly transfer = (.ok taken, endpoint')
        ∧ assembly = taken.push payload ∧ transfer.aborted = false ∧ transfer.more = false
        ∧ assembly.discarding = false
        ∧ endpoint'.link.exceedsMaxMessageSize assembly.size = false
  := by
  rw [completed?]
  obtain ⟨result, other⟩ := endpoint.takeAssembly transfer
  cases result with
  | error fault => simp
  | ok taken =>
      constructor
      · intro h
        dsimp only at h
        split at h
        · contradiction
        · next hnot =>
            obtain ⟨rfl, rfl⟩ := Prod.mk.inj (Option.some.inj h)
            simp only [Bool.or_eq_true, not_or, Bool.not_eq_true] at hnot
            obtain ⟨⟨⟨haborted, hmore⟩, hdiscarding⟩, hsize⟩ := hnot
            exact ⟨taken, rfl, rfl, haborted, hmore, hdiscarding, hsize⟩
      · rintro ⟨taken', htake, rfl, haborted, hmore, hdiscarding, hsize⟩
        obtain ⟨hresult, rfl⟩ := Prod.mk.inj htake
        obtain rfl := Except.ok.inj hresult
        dsimp only
        rw [haborted, hmore, hdiscarding, hsize]
        rfl

/-- What it takes for a transfer to complete no delivery. -/
theorem completed?_eq_none_iff :
  endpoint.completed? transfer payload = none
    ↔ ∀ taken endpoint', endpoint.takeAssembly transfer = (.ok taken, endpoint') →
        transfer.aborted = true ∨ transfer.more = true
          ∨ (taken.push payload).discarding = true
          ∨ endpoint'.link.exceedsMaxMessageSize (taken.push payload).size = true
  := by
  rw [completed?]
  obtain ⟨result, other⟩ := endpoint.takeAssembly transfer
  cases result with
  | error fault => simp
  | ok taken =>
      simp
      grind

end Endpoint

namespace Operation

section ReceiveOn

variable {endpoint endpoint' : Endpoint} {transfer : Transfer} {payload : Bytes}

/-- A transfer that belongs to no delivery has no effect but on its endpoint. -/
theorem receiveOn_of_error {fault : Fault}
    (h : endpoint.takeAssembly transfer = (.error fault, endpoint')) (s : Serving) :
  receiveOn endpoint transfer payload s
    = .error fault (s.onSession (·.putEndpoint transfer.handle endpoint'))
  := by
  rw [receiveOn, h]
  rfl

/-- A transfer that aborts its delivery settles it. -/
theorem receiveOn_of_aborted {taken : Assembly}
    (h : endpoint.takeAssembly transfer = (.ok taken, endpoint'))
    (aborted : transfer.aborted = true) (s : Serving) :
  receiveOn endpoint transfer payload s
    = .ok () ((s.onSession (·.putEndpoint transfer.handle endpoint')).onSession
        (·.settle transfer.handle taken.id))
  := by
  rw [receiveOn, h]
  dsimp only
  rw [run_onSession_bind, ofExcept]
  change (if transfer.aborted = true then _ else _ : Operation Unit) _ = _
  rw [if_pos aborted]
  rfl

/-- Puts an assembly that goes on back. -/
def putAssembly (handle : UInt32) (assembly : Assembly) (s : Serving) : Serving :=
  s.onSession fun session =>
    { session with
      endpoints := session.endpoints.update handle ({ · with assembly := some assembly }) }

/-- A transfer that does not abort its delivery is gathered, and may complete it. -/
theorem receiveOn_of_taken {taken : Assembly}
    (h : endpoint.takeAssembly transfer = (.ok taken, endpoint'))
    (aborted : transfer.aborted = false) (s : Serving) :
  receiveOn endpoint transfer payload s
    = (limitSize endpoint' (taken.push payload) >>= fun assembly =>
        if transfer.more then modify (putAssembly transfer.handle assembly)
        else
          (if assembly.discarding then pure () else complete endpoint' assembly) >>= fun _ =>
            replenishCredit transfer.handle)
      (s.onSession (·.putEndpoint transfer.handle endpoint'))
  := by
  rw [receiveOn, h]
  dsimp only
  rw [run_onSession_bind, ofExcept]
  change (if transfer.aborted = true then _ else _ : Operation Unit) _ = _
  rw [if_neg (by simp [aborted])]
  apply congrFun (congrArg (limitSize endpoint' (taken.push payload) >>= ·) _)
  funext assembly
  split
  · rfl
  · cases assembly.discarding <;> rfl

/-- A delivery that is completed is brought to what stands behind its endpoint. -/
theorem receiveOn_of_completed {assembly : Assembly}
    (h : endpoint.completed? transfer payload = some (endpoint', assembly)) (s : Serving) :
  receiveOn endpoint transfer payload s
    = (complete endpoint' assembly >>= fun _ => replenishCredit transfer.handle)
        (s.onSession (·.putEndpoint transfer.handle endpoint'))
  := by
  obtain ⟨taken, htake, rfl, haborted, hmore, hdiscarding, hsize⟩ :=
    Endpoint.completed?_eq_some_iff.mp h
  have hwithin : (!(taken.push payload).discarding
      && endpoint'.link.exceedsMaxMessageSize (taken.push payload).size) = false := by
    rw [hsize, Bool.and_false]
  rw [receiveOn_of_taken htake haborted, run_bind_of_ok (limitSize_of_within hwithin _), hmore,
    hdiscarding]
  rfl

/-- What a transfer gathers that completes no delivery is not brought to its end. -/
theorem not_completes_of_none (h : endpoint.completed? transfer payload = none)
    {taken : Assembly} (htake : endpoint.takeAssembly transfer = (.ok taken, endpoint'))
    {assembly : Assembly} {s s' : Serving} :
  ¬ (transfer.aborted = false ∧ ¬ transfer.more = true ∧ ¬ assembly.discarding = true
      ∧ limitSize endpoint' (taken.push payload) s = .ok assembly s')
  := by
  rintro ⟨haborted, hmore, hdiscarding, hok⟩
  rcases limitSize_eq_ok hok with ⟨rfl, -, hwithin⟩ | ⟨rfl, -⟩
  · rcases Endpoint.completed?_eq_none_iff.mp h _ _ htake with
      habort | hgoes | hdrops | hexceeds
    · simp [haborted] at habort
    · exact hmore hgoes
    · exact hdiscarding hdrops
    · simp [hdiscarding, hexceeds] at hwithin
  · exact hdiscarding rfl

/-- What goes on when the delivery of a transfer is taken off its link, accounted for, brought to its
end or put back goes on when the transfer is received, until credit is topped up, if it is. -/
theorem related_receiveOn {motive : Serving → Serving → Prop} (reckons : Serving.Reckons motive)
    (endpoint : Endpoint) (transfer : Transfer) (payload : Bytes) {s : Serving} (takes : ∀ endpoint', (endpoint.takeAssembly transfer).2 = endpoint' →
      motive s (s.onSession (·.putEndpoint transfer.handle endpoint')))
    (keeps : ∀ s assembly, motive s (putAssembly transfer.handle assembly s))
    (completes : ∀ s endpoint' assembly,
      endpoint.completed? transfer payload = some (endpoint', assembly) →
      motive s ((complete endpoint' assembly).after s)) :
  motive s ((receiveOn endpoint transfer payload).after s)
    ∨ ∃ s', motive s s' ∧ (receiveOn endpoint transfer payload).after s
        = (replenishCredit transfer.handle).after s'
  := by
  cases hcompleted : endpoint.completed? transfer payload with
  | some completed =>
      obtain ⟨endpoint', assembly⟩ := completed
      obtain ⟨taken, htake, -⟩ := Endpoint.completed?_eq_some_iff.mp hcompleted
      have brought := reckons.trans (takes endpoint' (by rw [htake]))
        (completes _ endpoint' assembly hcompleted)
      rw [after, receiveOn_of_completed hcompleted, ← after]
      apply after_bind (motive := fun left => motive s left
        ∨ ∃ s', motive s s' ∧ left = (replenishCredit transfer.handle).after s') (.inl brought)
      exact fun _ _ => .inr ⟨_, brought, rfl⟩
  | none =>
      rcases htake : endpoint.takeAssembly transfer with ⟨result, endpoint'⟩
      have took := takes endpoint' (by rw [htake])
      cases result with
      | error fault =>
          rw [after_of_error (receiveOn_of_error htake s)]
          exact .inl took
      | ok taken =>
          cases haborted : transfer.aborted with
          | true =>
              rw [after_of_ok (receiveOn_of_aborted htake haborted s)]
              exact .inl (reckons.trans took (reckons.settles _ _ _))
          | false =>
              rw [after, receiveOn_of_taken htake haborted, ← after]
              have limited := reckons.trans took
                (related_limitSize reckons endpoint' (taken.push payload) _)
              apply after_bind (motive := fun left => motive s left
                ∨ ∃ s', motive s s' ∧ left = (replenishCredit transfer.handle).after s')
                (.inl limited)
              intro assembly hok
              split
              · exact .inl (reckons.trans limited (keeps _ assembly))
              · next hmore =>
                  split
                  · exact .inr ⟨_, limited, rfl⟩
                  · next hdiscarding =>
                      exact absurd ⟨haborted, hmore, hdiscarding, hok⟩
                        (not_completes_of_none hcompleted htake)

/-- A transfer that completes no delivery is quiet. -/
theorem quiet_receiveOn (h : endpoint.completed? transfer payload = none) (s : Serving) :
  s.Quiet ((receiveOn endpoint transfer payload).after s)
  := by
  have received := related_receiveOn reckons_quiet endpoint transfer payload (s := s)
    (fun _ _ => .onSession (Session.quiet_putEndpoint _ _ _)) (fun _ _ => .onSession ⟨rfl, rfl, rfl, rfl⟩)
    (fun _ _ _ hcompleted => by rw [h] at hcompleted; contradiction)
  obtain quiet | ⟨s', quiet, last⟩ := received
  · exact quiet
  · rw [last]
    exact quiet.trans (quiet_replenishCredit _ s')

end ReceiveOn

section OnTransfer

variable {transfer : Transfer} {payload : Bytes} {s : Serving}

/-- A transfer that is counted is received, and the window is then topped up. -/
theorem onTransfer_of_counted (h : s.session.incomingWindow ≠ 0) :
  onTransfer transfer payload s
    = match receive transfer payload (s.onSession (·.count)) with
      | .ok () s => .ok () (replenishWindow s)
      | .error fault s => .error fault (replenishWindow s)
  := by
  rw [onTransfer, if_neg h]
  rfl

theorem quiet_count (s : Serving) :
  s.Quiet (s.onSession (·.count))
  := .onSession ⟨rfl, rfl, rfl, rfl⟩

/-- What a session completes, it completes on an endpoint that takes messages and is not
detached. -/
theorem completed?_transfer_eq_some {endpoint' : Endpoint} {assembly : Assembly}
    (h : s.session.completed? (.transfer transfer) payload = some (endpoint', assembly)) :
  s.session.incomingWindow ≠ 0
    ∧ ∃ endpoint, s.session.endpoints.get? transfer.handle = some endpoint
        ∧ endpoint.link.detachSent = false ∧ endpoint.kind.isReceiving = true
        ∧ endpoint.completed? transfer payload = some (endpoint', assembly)
  := by
  rw [Session.completed?] at h
  split at h
  · contradiction
  · next hwindow =>
      refine ⟨hwindow, ?_⟩
      split at h
      · next endpoint hget =>
          split at h
          · contradiction
          · next hreceives =>
              simp only [Bool.or_eq_true, Bool.not_eq_true', not_or, Bool.not_eq_true,
                Bool.not_eq_false] at hreceives
              exact ⟨endpoint, hget, hreceives.1, hreceives.2, h⟩
      · contradiction

/-- A transfer on a handle that no link has is a fault of the session. -/
theorem receive_of_none (h : s.session.endpoints.get? transfer.handle = none) :
  receive transfer payload s
    = .error (.onSession .unattachedHandle s!"transfer on unattached handle {transfer.handle}") s
  := by
  rw [receive, run_get_bind, h]
  rfl

/-- What becomes of a transfer on a link. -/
theorem receive_of_some {endpoint : Endpoint}
    (h : s.session.endpoints.get? transfer.handle = some endpoint) :
  receive transfer payload s
    = (if endpoint.link.detachSent then pure ()
        else if endpoint.kind.isReceiving then receiveOn endpoint transfer payload
        else throw (.onLink transfer.handle .illegalState
          "transfer on a link where the broker is the sender") : Operation Unit) s
  := by
  rw [receive, run_get_bind, h]

/-- A transfer is received on an endpoint that takes messages and is not detached. -/
theorem receive_of_get? {endpoint : Endpoint}
    (hget : s.session.endpoints.get? transfer.handle = some endpoint)
    (attached : endpoint.link.detachSent = false) (receives : endpoint.kind.isReceiving = true) :
  receive transfer payload s = receiveOn endpoint transfer payload s
  := by
  rw [receive_of_some hget, if_neg (by simp [attached]), if_pos receives]

/-- What a transfer leaves: nothing is changed while the window is closed.  Otherwise the transfer is
counted, received if its link takes messages and is not detached, and the window is topped up. -/
theorem onTransfer_cases (transfer : Transfer) (payload : Bytes) (s : Serving) :
  (onTransfer transfer payload).after s = s
    ∨ (onTransfer transfer payload).after s = replenishWindow (s.onSession (·.count))
    ∨ s.session.incomingWindow ≠ 0
      ∧ ∃ endpoint, s.session.endpoints.get? transfer.handle = some endpoint
        ∧ endpoint.link.detachSent = false ∧ endpoint.kind.isReceiving = true
        ∧ (onTransfer transfer payload).after s = replenishWindow
          ((receiveOn endpoint transfer payload).after (s.onSession (·.count)))
  := by
  by_cases window : s.session.incomingWindow = 0
  · left
    rw [after, onTransfer, if_pos window]
    rfl
  · right
    have topped : (onTransfer transfer payload).after s
        = replenishWindow ((receive transfer payload).after (s.onSession (·.count))) := by
      rw [after, onTransfer_of_counted window, after]
      cases receive transfer payload (s.onSession (·.count)) <;> rfl
    rw [topped]
    cases hget : s.session.endpoints.get? transfer.handle with
    | none =>
        left
        rw [after, receive_of_none (by exact hget)]
        rfl
    | some endpoint =>
        rw [after, receive_of_some (by exact hget)]
        split
        · exact .inl rfl
        · next attached =>
            split
            · next receives => exact .inr ⟨window, endpoint, rfl, by simpa using attached, receives, rfl⟩
            · exact .inl rfl

/-- A transfer that completes no delivery is quiet. -/
theorem quiet_onTransfer (h : s.session.completed? (.transfer transfer) payload = none) :
  s.Quiet ((onTransfer transfer payload).after s)
  := by
  obtain same | counted | ⟨window, endpoint, hget, attached, receives, received⟩ :=
    onTransfer_cases transfer payload s
  · rw [same]
    exact .refl s
  · rw [counted]
    exact (quiet_count s).trans (quiet_replenishWindow _)
  · rw [Session.completed?, if_neg window, hget] at h
    dsimp only at h
    rw [if_neg (by simp [attached, receives])] at h
    rw [received]
    exact ((quiet_count s).trans (quiet_receiveOn h _)).trans (quiet_replenishWindow _)

/-- A delivery that a transfer completes is brought to what stands behind its endpoint; then
credit and window are topped up. -/
theorem onTransfer_of_completed {endpoint' : Endpoint} {assembly : Assembly}
    (h : s.session.completed? (.transfer transfer) payload = some (endpoint', assembly)) :
  onTransfer transfer payload s
    = match complete endpoint' assembly
          (s.onSession fun session => session.count.putEndpoint transfer.handle endpoint') with
      | .ok () s => .ok () (replenishWindow ((replenishCredit transfer.handle).after s))
      | .error fault s => .error fault (replenishWindow s)
  := by
  obtain ⟨hwindow, endpoint, hget, hdetached, hreceives, hcompleted⟩ :=
    completed?_transfer_eq_some h
  have hreceive : receive transfer payload (s.onSession (·.count))
      = (complete endpoint' assembly >>= fun _ => replenishCredit transfer.handle)
          (s.onSession fun session => session.count.putEndpoint transfer.handle endpoint') := by
    rw [receive_of_get? (by exact hget) hdetached hreceives, receiveOn_of_completed hcompleted]
    rfl
  rw [onTransfer_of_counted hwindow, hreceive, run_bind]
  cases complete endpoint' assembly
      (s.onSession fun session => session.count.putEndpoint transfer.handle endpoint') with
  | ok _ s' => rfl
  | error fault s' => rfl

/-- What is left of a transfer that completes a delivery comes quietly from what is left of
that. -/
theorem quiet_of_completed {endpoint' : Endpoint} {assembly : Assembly}
    (h : s.session.completed? (.transfer transfer) payload = some (endpoint', assembly)) :
  ((complete endpoint' assembly).after
      (s.onSession fun session => session.count.putEndpoint transfer.handle endpoint')).Quiet
    ((onTransfer transfer payload).after s)
  := by
  rw [after, after, onTransfer_of_completed h]
  cases complete endpoint' assembly
      (s.onSession fun session => session.count.putEndpoint transfer.handle endpoint') with
  | ok _ s' => exact (quiet_replenishCredit _ s').trans (quiet_replenishWindow _)
  | error fault s' => exact quiet_replenishWindow s'

end OnTransfer

end Operation

end MessageBroker
