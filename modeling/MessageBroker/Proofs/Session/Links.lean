import MessageBroker.Proofs.Link.Unsettled
import MessageBroker.Proofs.Session.Relating
import MessageBroker.Proofs.Table

/-!
# Links that go on

The end of a link keeps its terms for as long as it is attached, whatever is done with its
session.  Unless the peer sends a transfer or a detach on the link, the delivery whose transfers
are arriving stays as it is too, or the broker gives the link up.
-/

namespace MessageBroker

/-! ### The end of one link -/

/-- The end of a link goes on while the peer leaves it alone: unless the broker detaches the link,
the delivery whose transfers are arriving is the same. -/
structure Endpoint.Continues (endpoint endpoint' : Endpoint) : Prop where
  /-- The link has the same number. -/
  handle : endpoint'.link.handle = endpoint.link.handle
  /-- The peer has detached the link or not, as before. -/
  detachReceived : endpoint'.link.detachReceived = endpoint.link.detachReceived
  /-- Messages come from the same source. -/
  source : endpoint'.link.source = endpoint.link.source
  /-- The largest message has the same size. -/
  maxMessageSize : endpoint'.link.maxMessageSize = endpoint.link.maxMessageSize
  /-- Messages come from the peer or not, as before. -/
  receives : endpoint'.kind.isReceiving = endpoint.kind.isReceiving
  /-- Messages from the peer go to the same place. -/
  kind : endpoint.kind.isReceiving = true → endpoint'.kind = endpoint.kind
  /-- A link that the broker has detached stays detached. -/
  detachSent : endpoint.link.detachSent = true → endpoint'.link.detachSent = true
  /-- Deliveries are only settled. -/
  unsettled : endpoint.link.unsettled.Fades endpoint'.link.unsettled
  /-- The delivery is the same. -/
  assembly : endpoint'.link.detachSent = false → endpoint'.assembly = endpoint.assembly

/-- The end of a link with a handle knows that handle, the peer has not detached the link, and its
messages go to a known queue. -/
structure Endpoint.Under (known : QueueId → Prop) (handle : UInt32) (endpoint : Endpoint) :
    Prop where
  /-- The link has the handle as its number. -/
  handle : endpoint.link.handle = handle
  /-- The peer has not detached the link. -/
  detachReceived : endpoint.link.detachReceived = false
  /-- The queue that messages from the peer go to is known. -/
  known : ∀ queue, endpoint.kind = .receiving queue → known queue

namespace Endpoint

variable {endpoint endpoint' endpoint'' : Endpoint} {known : QueueId → Prop}

theorem Continues.refl (endpoint : Endpoint) :
  endpoint.Continues endpoint
  := ⟨rfl, rfl, rfl, rfl, rfl, fun _ => rfl, fun h => h, .refl _, fun _ => rfl⟩

theorem Continues.trans (h : endpoint.Continues endpoint') (h' : endpoint'.Continues endpoint'') :
  endpoint.Continues endpoint''
  := by
  constructor
  · exact h'.handle.trans h.handle
  · exact h'.detachReceived.trans h.detachReceived
  · exact h'.source.trans h.source
  · exact h'.maxMessageSize.trans h.maxMessageSize
  · exact h'.receives.trans h.receives
  · intro hreceives
    have hkind := h.kind hreceives
    rw [← hkind] at hreceives
    exact (h'.kind hreceives).trans hkind
  · exact fun hsent => h'.detachSent (h.detachSent hsent)
  · exact h.unsettled.trans h'.unsettled
  · intro hattached
    have hbefore : endpoint'.link.detachSent = false := by
      by_contra hsent
      rw [h'.detachSent (by simpa using hsent)] at hattached
      contradiction
    exact (h'.assembly hattached).trans (h.assembly hbefore)

theorem Continues.under (h : endpoint.Continues endpoint') {handle : UInt32}
    (under : endpoint.Under known handle) :
  endpoint'.Under known handle
  := by
  refine ⟨h.handle.trans under.handle, h.detachReceived.trans under.detachReceived, ?_⟩
  intro queue hkind
  apply under.known
  have hreceives := h.receives
  rw [hkind] at hreceives
  rw [← h.kind hreceives.symm, hkind]

/-- A change of credit is of no consequence. -/
theorem continues_onLink {change : Link → Link}
    (h : ∃ credit, change endpoint.link = { endpoint.link with credit }) :
  endpoint.Continues (endpoint.onLink change)
  := by
  obtain ⟨credit, heq⟩ := h
  rw [onLink, heq]
  exact ⟨rfl, rfl, rfl, rfl, rfl, fun _ => rfl, fun h => h, .refl _, fun _ => rfl⟩

theorem continues_settle (endpoint : Endpoint) (id : UInt32) :
  endpoint.Continues (endpoint.settle id)
  := ⟨rfl, rfl, rfl, rfl, rfl, fun _ => rfl, fun h => h, Unsettled.fades_settle _ id, fun _ => rfl⟩

/-- The first transfer of a delivery changes credit and the account of deliveries. -/
theorem startDelivery_snd (link : Link) (transfer : Transfer) :
  ∃ credit unsettled, (startDelivery link transfer).2 = { link with credit, unsettled }
  := by
  rw [startDelivery]
  split
  · split
    · exact ⟨_, _, rfl⟩
    · dsimp only
      split
      · exact ⟨_, _, rfl⟩
      · split
        · exact ⟨_, _, rfl⟩
        · split
          · exact ⟨_, _, rfl⟩
          · exact ⟨_, _, rfl⟩
  · exact ⟨_, _, rfl⟩

/-- A transfer leaves the terms of its link as they are. -/
theorem takeAssembly_snd (endpoint : Endpoint) (transfer : Transfer) :
  ∃ credit unsettled assembly, (endpoint.takeAssembly transfer).2
    = { endpoint with link := { endpoint.link with credit, unsettled }, assembly }
  := by
  rw [takeAssembly]
  split
  · exact ⟨endpoint.link.credit, endpoint.link.unsettled, none, rfl⟩
  · obtain ⟨credit, unsettled, hlink⟩ := startDelivery_snd endpoint.link transfer
    refine ⟨credit, unsettled, endpoint.assembly, ?_⟩
    dsimp only
    rw [hlink]

theorem Under.takeAssembly {handle : UInt32} (under : endpoint.Under known handle)
    (transfer : Transfer) :
  (endpoint.takeAssembly transfer).2.Under known handle
  := by
  obtain ⟨credit, unsettled, assembly, h⟩ := endpoint.takeAssembly_snd transfer
  rw [h]
  exact ⟨under.handle, under.detachReceived, under.known⟩

end Endpoint

/-! ### The links of a session -/

namespace Session

/-- The end of every link knows its handle, and its messages go to a known queue. -/
def Attached (known : QueueId → Prop) (session : Session) : Prop :=
  ∀ handle endpoint, session.endpoints.get? handle = some endpoint → endpoint.Under known handle

theorem Attached.ofBegin (known : QueueId → Prop) (terms : Begin) (limits : SessionLimits) :
  (Session.ofBegin terms limits).Attached known
  := by
  intro handle endpoint h
  contradiction

/-- The link with a handle goes on, if the peer leaves it alone. -/
structure Continues (known : QueueId → Prop) (alone : Prop) (handle : UInt32)
    (session session' : Session) : Prop where
  /-- The limits are the same. -/
  limits : session'.limits = session.limits
  /-- The incoming window is not used up. -/
  window : session.limits.incomingWindow ≠ 0 → session.incomingWindow ≠ 0 →
    session'.incomingWindow ≠ 0
  /-- The end of the link goes on. -/
  goes : alone → ∀ endpoint, session.endpoints.get? handle = some endpoint →
    endpoint.link.detachReceived = false →
      ∃ endpoint', session'.endpoints.get? handle = some endpoint' ∧ endpoint.Continues endpoint'
  /-- The end of the link, or of another in its place, knows its handle. -/
  under : (∀ endpoint, session.endpoints.get? handle = some endpoint → endpoint.Under known handle) →
    ∀ endpoint, session'.endpoints.get? handle = some endpoint → endpoint.Under known handle

theorem Attached.of_continues {known : QueueId → Prop} {session session' : Session}
    (attached : session.Attached known) {alone : UInt32 → Prop}
    (h : ∀ handle, session.Continues known (alone handle) handle session') :
  session'.Attached known
  := fun handle => (h handle).under (attached handle)

namespace Continues

variable {known : QueueId → Prop} {alone : Prop} {handle : UInt32} {session session' session'' : Session}

/-- A change of neither limits, window nor links is of no consequence. -/
theorem of_same (limits : session'.limits = session.limits)
    (window : session'.incomingWindow = session.incomingWindow)
    (endpoints : session'.endpoints = session.endpoints) :
  session.Continues known alone handle session'
  := by
  constructor
  · exact limits
  · intro _ hwindow
    rw [window]
    exact hwindow
  · intro _ endpoint hget _
    refine ⟨endpoint, ?_, .refl endpoint⟩
    rw [endpoints, hget]
  · intro hunder
    rw [endpoints]
    exact hunder

theorem refl (known : QueueId → Prop) (alone : Prop) (handle : UInt32) (session : Session) :
  session.Continues known alone handle session
  := of_same rfl rfl rfl

theorem trans (h : session.Continues known alone handle session')
    (h' : session'.Continues known alone handle session'') :
  session.Continues known alone handle session''
  := by
  constructor
  · exact h'.limits.trans h.limits
  · intro hlimit hwindow
    apply h'.window _ (h.window hlimit hwindow)
    rw [h.limits]
    exact hlimit
  · intro halone endpoint hget hreceived
    obtain ⟨endpoint', hget', hgoes⟩ := h.goes halone endpoint hget hreceived
    obtain ⟨endpoint'', hget'', hgoes'⟩ := h'.goes halone endpoint' hget'
      (hgoes.detachReceived.trans hreceived)
    exact ⟨endpoint'', hget'', hgoes.trans hgoes'⟩
  · exact fun hunder => h'.under (h.under hunder)

/-- An endpoint is put in place of another, or of none. -/
theorem put {key : UInt32} {endpoint' : Endpoint}
    (goes : alone → ∀ endpoint, session.endpoints.get? key = some endpoint →
      endpoint.link.detachReceived = false → key = handle → endpoint.Continues endpoint')
    (under : (∀ endpoint, session.endpoints.get? key = some endpoint → endpoint.Under known key) →
      endpoint'.Under known key) :
  session.Continues known alone handle (session.putEndpoint key endpoint')
  := by
  constructor
  · rfl
  · exact fun _ hwindow => hwindow
  · intro halone endpoint hget hreceived
    rw [putEndpoint]
    dsimp only
    rw [Table.get?_put]
    split
    · next hkey =>
        subst hkey
        exact ⟨endpoint', rfl, goes halone endpoint hget hreceived rfl⟩
    · exact ⟨endpoint, hget, .refl endpoint⟩
  · intro hunder endpoint hget
    rw [putEndpoint] at hget
    dsimp only at hget
    rw [Table.get?_put] at hget
    split at hget
    · next hkey =>
        subst hkey
        obtain rfl := Option.some.inj hget
        exact under hunder
    · exact hunder endpoint hget

/-- An endpoint is put in place of one that goes on as it. -/
theorem put_of_continues {key : UInt32} {endpoint endpoint' : Endpoint}
    (h : session.endpoints.get? key = some endpoint) (continues : endpoint.Continues endpoint') :
  session.Continues known alone handle (session.putEndpoint key endpoint')
  := by
  apply put
  · intro _ before hget _ _
    rw [h] at hget
    obtain rfl := Option.some.inj hget
    exact continues
  · exact fun hunder => continues.under (hunder endpoint h)

/-- A link is taken away that the peer has detached. -/
theorem erase {key : UInt32}
    (parted : alone → key = handle → ∀ endpoint, session.endpoints.get? key = some endpoint →
      endpoint.link.detachReceived = true) :
  session.Continues known alone handle { session with endpoints := session.endpoints.erase key }
  := by
  constructor
  · rfl
  · exact fun _ hwindow => hwindow
  · intro halone endpoint hget hreceived
    dsimp only
    rw [Table.get?_erase]
    split
    · next hkey =>
        subst hkey
        rw [parted halone rfl endpoint hget] at hreceived
        contradiction
    · exact ⟨endpoint, hget, .refl endpoint⟩
  · intro hunder endpoint hget
    dsimp only at hget
    rw [Table.get?_erase] at hget
    split at hget
    · contradiction
    · exact hunder endpoint hget

theorem update {key : UInt32} {change : Endpoint → Endpoint}
    (continues : alone → key = handle → ∀ endpoint : Endpoint, endpoint.Continues (change endpoint))
    (under : ∀ endpoint : Endpoint, endpoint.Under known key → (change endpoint).Under known key) :
  session.Continues known alone handle
    { session with endpoints := session.endpoints.update key change }
  := by
  constructor
  · rfl
  · exact fun _ hwindow => hwindow
  · intro halone endpoint hget _
    dsimp only
    rw [Table.get?_update]
    split
    · next hkey =>
        rw [hget]
        exact ⟨change endpoint, rfl, continues halone hkey.symm endpoint⟩
    · exact ⟨endpoint, hget, .refl endpoint⟩
  · intro hunder endpoint hget
    dsimp only at hget
    rw [Table.get?_update] at hget
    split at hget
    · next hkey =>
        subst hkey
        obtain ⟨before, hbefore, rfl⟩ := Option.map_eq_some_iff.mp hget
        exact under before (hunder before hbefore)
    · exact hunder endpoint hget

end Continues

variable (known : QueueId → Prop) (alone : Prop) (handle : UInt32) (session : Session)

/-! ### Small changes -/

theorem continues_settle (key id : UInt32) :
  session.Continues known alone handle (session.settle key id)
  := .update (fun _ _ endpoint => endpoint.continues_settle id)
    fun endpoint under => (endpoint.continues_settle id).under under

theorem continues_emit (performative : Performative) (payload : Option Bytes) :
  session.Continues known alone handle (session.emit performative payload)
  := .of_same rfl rfl rfl

theorem continues_emitLinkFlow (store : QueueStore) (key : UInt32) :
  session.Continues known alone handle (session.emitLinkFlow store key)
  := by
  rw [emitLinkFlow]
  split
  · exact .of_same rfl rfl rfl
  · exact .refl known alone handle session

theorem continues_forget (id : UInt32) :
  session.Continues known alone handle (session.forget id)
  := by
  rw [forget]
  split
  · next key _ => exact (session.continues_settle known alone handle key id).trans (.of_same rfl rfl rfl)
  · exact .refl known alone handle session

theorem continues_onSenderDisposition (disposition : Disposition) :
  session.Continues known alone handle (session.onSenderDisposition disposition)
  := related_onSenderDisposition (.refl known alone handle) .trans (continues_forget known alone handle)
    session disposition

theorem continues_sendPieces (transfer : Transfer) (pieces : List Bytes) :
  session.Continues known alone handle (session.sendPieces transfer pieces)
  := by
  apply related_sendPieces (.refl known alone handle) .trans
  exact fun _ _ _ => .of_same rfl rfl rfl

end Session

/-! ### Deliveries to the peer -/

/-- Messages are picked for an endpoint that none come from, and none do after. -/
theorem Endpoint.pick?_kind {endpoint : Endpoint} {store : QueueStore} {pick : Endpoint.Pick}
    (h : endpoint.pick? store = some pick) :
  endpoint.kind.isReceiving = false ∧ pick.kind.isReceiving = false
  := by
  rw [Endpoint.pick?] at h
  split at h
  · next hkind =>
      split at h
      · obtain rfl := Option.some.inj h
        rw [hkind]
        exact ⟨rfl, rfl⟩
      · contradiction
  · next hkind =>
      split at h
      · obtain rfl := Option.some.inj h
        rw [hkind]
        exact ⟨rfl, rfl⟩
      · contradiction
  · contradiction

namespace Serving

open Session

variable (known : QueueId → Prop) (alone : Prop) (handle : UInt32) (s : Serving)

theorem continues_send {key : UInt32} {endpoint : Endpoint} {pick : Endpoint.Pick}
    (hget : s.session.endpoints.get? key = some endpoint)
    (hpick : endpoint.pick? s.store = some pick) :
  s.session.Continues known alone handle (s.send key endpoint pick).session
  := by
  obtain ⟨hbefore, hafter⟩ := Endpoint.pick?_kind hpick
  have hput : s.session.Continues known alone handle (s.session.putEndpoint key
      { endpoint with
        kind := pick.kind, link := { endpoint.link with credit := endpoint.link.credit.spend } }) :=
    .put_of_continues hget
      ⟨rfl, rfl, rfl, rfl, hafter.trans hbefore.symm, fun h => by simp [hbefore] at h,
        fun h => h, .refl _, fun _ => rfl⟩
  apply hput.trans
  rw [send, sendDelivery]
  apply Continues.trans _ (continues_sendPieces _ _ _ _ _ _)
  exact .of_same rfl rfl rfl

theorem continues_sendNext? {s s' : Serving} {key : UInt32} (h : s.sendNext? key = some s') :
  s.session.Continues known alone handle s'.session
  := by
  obtain ⟨endpoint, pick, hget, hpick, -, -, rfl⟩ := sendNext?_eq_some h
  exact s.continues_send known alone handle hget hpick

theorem continues_giveBackCredit (key : UInt32) :
  s.session.Continues known alone handle (s.giveBackCredit key).session
  := by
  revert s
  apply related_giveBackCredit
    (motive := fun s s' => s.session.Continues known alone handle s'.session)
  · exact fun s => .refl known alone handle s.session
  · exact .trans
  · exact fun _ _ credit there =>
      .put_of_continues there (Endpoint.continues_onLink ⟨credit, rfl⟩)
  · exact fun s store => s.session.continues_emitLinkFlow known alone handle store key

theorem continues_pump (key : UInt32) :
  s.session.Continues known alone handle (s.pump key).session
  := by
  revert s
  apply related_pump (motive := fun s s' => s.session.Continues known alone handle s'.session)
  · exact fun s => .refl known alone handle s.session
  · exact .trans
  · exact continues_sendNext? known alone handle
  · exact fun s => s.continues_giveBackCredit known alone handle key

theorem continues_pumpAll :
  s.session.Continues known alone handle s.pumpAll.session
  := by
  revert s
  apply related_pumpAll (motive := fun s s' => s.session.Continues known alone handle s'.session)
  · exact fun s => .refl known alone handle s.session
  · exact .trans
  · exact fun s key => s.continues_pump known alone handle key

theorem continues_recover :
  s.session.Continues known alone handle s.recover.2.session
  := by
  have hforget : s.session.Continues known alone handle { s.session with outgoingUnsettled := [] } :=
    .of_same rfl rfl rfl
  rw [recover]
  exact hforget.trans (continues_pumpAll known alone handle ⟨{ s.session with outgoingUnsettled := [] }, _⟩)

/-- A session that has ended has no links. -/
theorem continues_finish :
  s.session.Continues known False handle s.finish.session
  := by
  constructor
  · rfl
  · exact fun _ hwindow => hwindow
  · exact fun h => absurd h id
  · intro _ endpoint hget
    contradiction

end Serving

end MessageBroker
