import MessageBroker.Proofs.Queue.Waiting
import MessageBroker.Proofs.Session.Drawing
import MessageBroker.Proofs.Session.Sizes

/-!
# Deliveries in the order they are begun

When a session sends what waits, it begins deliveries one after another.  They get the numbers that
are next, and their transfers follow each other.  From every queue they take the messages that wait
longest, in the order of these, whichever links they are sent on.
-/

namespace MessageBroker

open Session

/-- A delivery that is begun. -/
structure Dispatch where
  /-- The link that it is sent on. -/
  handle : UInt32
  /-- Its number. -/
  id : UInt32
  /-- Whether it is settled as it is sent. -/
  settled : Bool
  /-- The queue of the message. -/
  queue : QueueId
  /-- The message. -/
  entry : QueueEntry
  /-- Whether the message stays available in its queue. -/
  copied : Bool

namespace Dispatch

/-- The transfers in which a delivery is sent. -/
def outgoing (maxFrameSize : UInt32) (dispatch : Dispatch) : List Outgoing :=
  (cutDelivery maxFrameSize dispatch.handle dispatch.id dispatch.settled
    dispatch.entry.payload).map Parcel.outgoing

/-- What a session keeps of a delivery until it is settled. -/
def delivery (dispatch : Dispatch) : OutgoingDelivery :=
  ⟨dispatch.handle, dispatch.queue, dispatch.entry.id⟩

/-- The numbers of the messages that deliveries take from a queue, in order. -/
def taken (queue : QueueId) (dispatches : List Dispatch) : List Nat :=
  (dispatches.filter fun dispatch => dispatch.queue = queue && !dispatch.copied).map (·.entry.id)

theorem taken_append (queue : QueueId) (dispatches others : List Dispatch) :
  taken queue (dispatches ++ others) = taken queue dispatches ++ taken queue others
  := by
  rw [taken, List.filter_append, List.map_append, taken, taken]

end Dispatch

/-- The queue that messages to the peer come from, and whether they stay there. -/
def EndpointKind.source? : EndpointKind → Option (QueueId × Bool)
  | .consuming queue => some (queue, false)
  | .browsing browser => some (browser.queue, true)
  | _ => none

/-- A message that a browser finds is available. -/
theorem QueueStore.slot?_of_browseNext {store : QueueStore} (sound : store.Sound) {id : QueueId}
    {after : Option Nat} {entry : QueueEntry} (h : store.browseNext id after = some entry) :
  store.slot? (id, entry.id) = some ⟨entry, false⟩
  := by
  obtain ⟨queue, hqueue, hbrowse⟩ := Option.bind_eq_some_iff.mp h
  have hslot := Queue.slot_of_mem_browse (List.mem_of_find?_eq_some hbrowse)
  exact slot?_of_found hqueue ((sound _ queue hqueue).slot?_of_mem hslot)

/-- A browser shows the next message and goes on to it. -/
theorem Browser.next_eq_some {browser browser' : Browser} {store : QueueStore} {entry : QueueEntry}
    (h : browser.next store = (some entry, browser')) :
  store.browseNext browser.queue browser.cursor = some entry
    ∧ browser' = { browser with cursor := some entry.id }
  := by
  rw [next] at h
  split at h
  · next found hfound =>
      obtain ⟨hentry, rfl⟩ := Prod.mk.inj h
      obtain rfl := Option.some.inj hentry
      exact ⟨hfound, rfl⟩
  · cases (Prod.mk.inj h).1

namespace Endpoint

variable {endpoint : Endpoint} {store : QueueStore} {pick : Pick}

/-- A message is picked from the queue that messages come from, and the next one will be. -/
theorem source?_of_pick? (h : endpoint.pick? store = some pick) :
  endpoint.kind.source? = some (pick.queue, pick.copied)
    ∧ pick.kind.source? = some (pick.queue, pick.copied)
  := by
  rw [pick?] at h
  split at h
  · next queue hkind =>
      split at h
      · obtain rfl := Option.some.inj h
        rw [hkind]
        exact ⟨rfl, rfl⟩
      · contradiction
  · next browser hkind =>
      split at h
      · next entry browser' hnext =>
          obtain rfl := Option.some.inj h
          obtain ⟨-, rfl⟩ := Browser.next_eq_some hnext
          rw [hkind]
          exact ⟨rfl, rfl⟩
      · contradiction
  · contradiction

/-- A message that is picked is available. -/
theorem slot?_of_pick? (sound : store.Sound) (h : endpoint.pick? store = some pick) :
  store.slot? (pick.queue, pick.entry.id) = some ⟨pick.entry, false⟩
  := by
  rw [pick?] at h
  split at h
  · split at h
    · next entry store' hacquire =>
        obtain rfl := Option.some.inj h
        exact (QueueStore.acquire_eq_some sound hacquire).1
    · contradiction
  · next browser hkind =>
      split at h
      · next entry browser' hnext =>
          obtain rfl := Option.some.inj h
          obtain ⟨hfound, rfl⟩ := Browser.next_eq_some hnext
          exact QueueStore.slot?_of_browseNext sound hfound
      · contradiction
  · contradiction

end Endpoint

/-! ### What a session has sent -/

/-- The transfers that are to be sent. -/
def Session.transfers (session : Session) : List Outgoing :=
  session.outbox.filter (·.transfer?.isSome)

namespace Session

theorem transfers_flush (session : Session) :
  session.flush.transfers = session.transfers
  := by
  rw [transfers, flush, List.filter_append, transfers]
  apply (congrArg _ (List.filter_eq_nil_iff.mpr _)).trans (List.append_nil _)
  intro output hmem
  obtain ⟨disposition, -, rfl⟩ := List.mem_map.mp hmem
  simp [Outgoing.transfer?]

theorem transfers_emit {p : Performative} (h : Outgoing.transfer? ⟨p, none⟩ = none)
    (session : Session) :
  (session.emit p none).transfers = session.transfers
  := by
  rw [transfers, emit, List.filter_append, ← transfers, session.transfers_flush,
    List.filter_singleton, h]
  exact List.append_nil _

/-- The transfers of a delivery follow those that were to be sent before. -/
theorem transfers_sendDelivery (session : Session) (handle id : UInt32) (settled : Bool)
    (payload : Bytes) :
  (session.sendDelivery handle id settled payload).transfers = session.transfers
    ++ (cutDelivery session.limits.maxFrameSize handle id settled payload).map Parcel.outgoing
  := by
  rw [transfers, outbox_sendDelivery, List.filter_append, ← transfers, session.transfers_flush]
  congr 1
  apply List.filter_eq_self.mpr
  intro output hmem
  obtain ⟨parcel, -, rfl⟩ := List.mem_map.mp hmem
  rfl

end Session

/-! ### Deliveries that are begun -/

namespace Serving

/-- One state comes from another by beginning deliveries, in order. -/
structure Dispatches (dispatches : List Dispatch) (s s' : Serving) : Prop where
  /-- The limits are the same. -/
  limits : s'.session.limits = s.session.limits
  /-- The deliveries have the numbers that were next, in order. -/
  ids : dispatches.map (·.id)
    = (List.range dispatches.length).map fun earlier => s.session.nextDeliveryId + .ofNat earlier
  /-- So many numbers were given out. -/
  nextDeliveryId : s'.session.nextDeliveryId
    = s.session.nextDeliveryId + .ofNat dispatches.length
  /-- So many deliveries were begun. -/
  begun : s'.session.begun = s.session.begun + dispatches.length
  /-- Their transfers are sent, one delivery after another. -/
  transfers : s'.session.transfers = s.session.transfers
    ++ dispatches.flatMap (·.outgoing s.session.limits.maxFrameSize)
  /-- What is unsettled now was so before or is one of them. -/
  unsettled : ∀ id delivery, s'.session.outgoingUnsettled.get? id = some delivery →
    s.session.outgoingUnsettled.get? id = some delivery
      ∨ ∃ dispatch ∈ dispatches, dispatch.id = id ∧ dispatch.settled = false
          ∧ dispatch.delivery = delivery
  /-- Messages come from where they came from. -/
  sources : ∀ handle, (s'.session.endpoints.get? handle).bind (·.kind.source?)
    = (s.session.endpoints.get? handle).bind (·.kind.source?)
  /-- The messages come from where the links take them. -/
  source : ∀ dispatch ∈ dispatches,
    (s.session.endpoints.get? dispatch.handle).bind (·.kind.source?)
      = some (dispatch.queue, dispatch.copied)
  /-- The messages are handed out. -/
  store : s.store.Sound → s.store.Draws s'.store
  /-- The messages were available. -/
  available : s.store.Sound → ∀ dispatch ∈ dispatches,
    s.store.slot? (dispatch.queue, dispatch.entry.id) = some ⟨dispatch.entry, false⟩
  /-- From every queue the messages are taken that have waited longest, in order. -/
  waiting : s.store.Sound → ∀ queue,
    s.store.waiting queue = Dispatch.taken queue dispatches ++ s'.store.waiting queue

namespace Dispatches

variable {dispatches others : List Dispatch} {s s' s'' : Serving}

theorem refl (s : Serving) :
  Dispatches [] s s
  := by
  refine ⟨rfl, rfl, (UInt32.add_zero _).symm, rfl, (List.append_nil _).symm,
    fun _ _ h => .inl h, fun _ => rfl, by simp, .refl, by simp, fun _ _ => rfl⟩

theorem trans (h : Dispatches dispatches s s') (h' : Dispatches others s' s'') :
  Dispatches (dispatches ++ others) s s''
  := by
  constructor
  · exact h'.limits.trans h.limits
  · rw [List.map_append, h.ids, h'.ids, h.nextDeliveryId, List.length_append, List.range_add,
      List.map_append, List.map_map]
    congr 1
    apply List.map_congr_left
    intro earlier _
    rw [Function.comp_apply, UInt32.ofNat_add, UInt32.add_assoc]
  · rw [h'.nextDeliveryId, h.nextDeliveryId, List.length_append, UInt32.ofNat_add,
      UInt32.add_assoc]
  · rw [h'.begun, h.begun, List.length_append, Nat.add_assoc]
  · rw [h'.transfers, h.transfers, h.limits, List.flatMap_append, List.append_assoc]
  · intro id delivery hget
    rcases h'.unsettled id delivery hget with hold | ⟨dispatch, hmem, hrest⟩
    · rcases h.unsettled id delivery hold with holder | ⟨dispatch, hmem, hrest⟩
      · exact .inl holder
      · exact .inr ⟨dispatch, List.mem_append_left _ hmem, hrest⟩
    · exact .inr ⟨dispatch, List.mem_append_right _ hmem, hrest⟩
  · intro handle
    rw [h'.sources, h.sources]
  · intro dispatch hmem
    rcases List.mem_append.mp hmem with hfirst | hlater
    · exact h.source dispatch hfirst
    · rw [← h.sources]
      exact h'.source dispatch hlater
  · intro sound
    have draws := h.store sound
    exact draws.trans (h'.store draws.sound)
  · intro sound dispatch hmem
    have draws := h.store sound
    rcases List.mem_append.mp hmem with hfirst | hlater
    · exact h.available sound dispatch hfirst
    · have hslot := h'.available draws.sound dispatch hlater
      obtain ⟨⟨entry, held⟩, hbefore, rfl⟩ := draws.same _ _ hslot
      cases held with
      | false => exact hbefore
      | true =>
          -- What was held then would be held still.
          rw [draws.kept _ (QueueStore.isHeld_iff.mpr ⟨_, hbefore⟩), hbefore] at hslot
          simp at hslot
  · intro sound queue
    rw [h.waiting sound, h'.waiting (h.store sound).sound, Dispatch.taken_append,
      List.append_assoc]

/-- A quiet change begins no delivery. -/
theorem of_quiet (quiet : s.Quiet s') (limits : s'.session.limits = s.session.limits)
    (transfers : s'.session.transfers = s.session.transfers)
    (sources : ∀ handle, (s'.session.endpoints.get? handle).bind (·.kind.source?)
      = (s.session.endpoints.get? handle).bind (·.kind.source?)) :
  Dispatches [] s s'
  := by
  refine ⟨limits, rfl, ?_, quiet.session.begun, ?_, ?_, sources, by simp, ?_, by simp, ?_⟩
  · exact quiet.session.nextDeliveryId.trans (UInt32.add_zero _).symm
  · exact transfers.trans (List.append_nil _).symm
  · intro id delivery hget
    rw [quiet.session.outgoingUnsettled] at hget
    exact .inl hget
  · intro sound
    rw [quiet.store]
    exact .refl sound
  · intro _ queue
    rw [quiet.store]
    rfl

end Dispatches

variable {s s' : Serving}

/-- A put under a handle where messages come from the same queue changes no source. -/
theorem sources_put {endpoints : Table UInt32 Endpoint} {key : UInt32} {endpoint other : Endpoint}
    (there : endpoints.get? key = some endpoint)
    (same : other.kind.source? = endpoint.kind.source?) (handle : UInt32) :
  ((endpoints.put key other).get? handle).bind (·.kind.source?)
    = (endpoints.get? handle).bind (·.kind.source?)
  := by
  rw [Table.get?_put]
  split
  · next here => rw [here, there, Option.bind_some, Option.bind_some, same]
  · rfl

/-- Credit that is given back begins no delivery. -/
theorem dispatches_giveBackCredit (s : Serving) (key : UInt32) :
  Dispatches [] s (s.giveBackCredit key)
  := by
  have quiet := s.quiet_giveBackCredit key
  rw [giveBackCredit] at quiet ⊢
  split at quiet
  · exact .refl s
  · next endpoint there =>
      split at quiet
      · exact .refl s
      · next credit _ =>
          have same : (endpoint.onLink fun link => { link with credit }).kind.source?
              = endpoint.kind.source? := rfl
          rw [onSession, emitLinkFlow, putEndpoint, Table.get?_put_self] at quiet ⊢
          exact .of_quiet quiet rfl (transfers_emit rfl _) (sources_put there same)

/-- What is begun when a link sends a message that it has picked. -/
def dispatch (s : Serving) (key : UInt32) (endpoint : Endpoint) (pick : Endpoint.Pick) :
    Dispatch where
  handle := key
  id := s.session.nextDeliveryId
  settled := endpoint.link.sndSettleMode = .settled || pick.copied
  queue := pick.queue
  entry := pick.entry
  copied := pick.copied

section Send

variable {key : UInt32} {endpoint : Endpoint} {pick : Endpoint.Pick}

/-- What is unsettled when a link has sent a message was so before, or is its delivery. -/
theorem unsettled_send {id : UInt32} {delivery : OutgoingDelivery}
    (hget : (s.send key endpoint pick).session.outgoingUnsettled.get? id = some delivery) :
  s.session.outgoingUnsettled.get? id = some delivery
    ∨ (s.dispatch key endpoint pick).id = id ∧ (s.dispatch key endpoint pick).settled = false
      ∧ (s.dispatch key endpoint pick).delivery = delivery
  := by
  rw [send] at hget
  rw [(begins_sendDelivery _ key _ _ _).outgoingUnsettled] at hget
  dsimp only at hget
  split at hget
  · exact .inl hget
  · next unsettled =>
      rw [Table.get?_put] at hget
      split at hget
      · next here => exact .inr ⟨here.symm, by simpa [dispatch] using unsettled, Option.some.inj hget⟩
      · exact .inl hget

variable (hpick : endpoint.pick? s.store = some pick)

include hpick

/-- Of the messages that wait in a queue, the first is taken by a link that sends it, unless it is
copied. -/
theorem waiting_send (sound : s.store.Sound) (queue : QueueId) :
  s.store.waiting queue = Dispatch.taken queue [s.dispatch key endpoint pick]
    ++ (s.send key endpoint pick).store.waiting queue
  := by
  rw [send]
  rcases Endpoint.pick?_eq_some hpick with ⟨hcopied, hstore⟩ | ⟨hcopied, hacquire⟩
  · have none : Dispatch.taken queue [s.dispatch key endpoint pick] = [] := by
      simp [Dispatch.taken, dispatch, hcopied]
    rw [none, hcopied, hstore, Bool.not_true, Bool.and_false]
    rfl
  · have first : Dispatch.taken queue [s.dispatch key endpoint pick]
        = if pick.queue = queue then [pick.entry.id] else [] := by
      by_cases here : pick.queue = queue
      · simp [Dispatch.taken, dispatch, hcopied, here]
      · simp [Dispatch.taken, dispatch, hcopied, here]
    have acquired := QueueStore.waiting_of_acquire sound hacquire queue
    have held : pick.store.isHeld (pick.queue, pick.entry.id) = true := by
      rw [QueueStore.isHeld, QueueStore.slot?_acquire sound hacquire, if_pos rfl]
      rfl
    have sound' := QueueStore.Sound.acquire sound hacquire
    have gone : (pick.store.acknowledge pick.queue pick.entry.id).2.waiting queue
        = pick.store.waiting queue := QueueStore.waiting_acknowledge sound' held queue
    rw [first, acquired]
    congr 1
    dsimp only
    split
    · exact gone.symm
    · rfl

/-- A link that sends a message begins one delivery. -/
theorem dispatches_send (there : s.session.endpoints.get? key = some endpoint) :
  Dispatches [s.dispatch key endpoint pick] s (s.send key endpoint pick)
  := by
  have draws := s.draws_send key hpick
  obtain ⟨source, source'⟩ := Endpoint.source?_of_pick? hpick
  constructor
  · exact limits_sendPieces _ _ _
  · exact congrArg (fun id => [id]) (UInt32.add_zero _).symm
  · exact draws.numbers.nextDeliveryId
  · exact draws.numbers.begun
  · rw [List.flatMap_singleton]
    exact transfers_sendDelivery _ key _ _ _
  · intro id delivery hget
    exact (unsettled_send hget).imp_right fun own => ⟨_, List.mem_singleton_self _, own⟩
  · intro handle
    rw [endpoints_send]
    exact sources_put there (source'.trans source.symm) handle
  · intro dispatch hmem
    rw [List.mem_singleton.mp hmem]
    change (s.session.endpoints.get? key).bind _ = _
    rw [there]
    exact source
  · exact draws.store
  · intro sound dispatch hmem
    rw [List.mem_singleton.mp hmem]
    exact Endpoint.slot?_of_pick? sound hpick
  · exact waiting_send hpick

end Send

/-! ### Everything that waits -/

theorem dispatches_pump (s : Serving) (key : UInt32) :
  ∃ dispatches, Dispatches dispatches s (s.pump key)
  := by
  revert s
  apply related_pump (motive := fun s s' => ∃ dispatches, Dispatches dispatches s s')
  · exact fun s => ⟨[], .refl s⟩
  · rintro s s' s'' ⟨_, first⟩ ⟨_, others⟩
    exact ⟨_, first.trans others⟩
  · intro s s' hnext
    obtain ⟨endpoint, pick, there, hpick, -, -, rfl⟩ := sendNext?_eq_some hnext
    exact ⟨_, dispatches_send hpick there⟩
  · exact fun s => ⟨_, dispatches_giveBackCredit s key⟩

theorem dispatches_pumpAll (s : Serving) :
  ∃ dispatches, Dispatches dispatches s s.pumpAll
  := by
  revert s
  apply related_pumpAll (motive := fun s s' => ∃ dispatches, Dispatches dispatches s s')
  · exact fun s => ⟨[], .refl s⟩
  · rintro s s' s'' ⟨_, first⟩ ⟨_, others⟩
    exact ⟨_, first.trans others⟩
  · exact dispatches_pump

/-- A delivery that is begun has one of the numbers that were next. -/
theorem Dispatches.id_of_mem {dispatches : List Dispatch} (h : Dispatches dispatches s s')
    {dispatch : Dispatch} (hmem : dispatch ∈ dispatches) :
  ∃ earlier < dispatches.length, dispatch.id = s.session.nextDeliveryId + .ofNat earlier
  := by
  have among := List.mem_map_of_mem (f := (·.id)) hmem
  rw [h.ids] at among
  obtain ⟨earlier, hrange, hid⟩ := List.mem_map.mp among
  exact ⟨earlier, List.mem_range.mp hrange, hid.symm⟩

/-- The messages that are taken from a queue are in the order of their numbers. -/
theorem Dispatches.ascending {dispatches : List Dispatch} (h : Dispatches dispatches s s')
    (sound : s.store.Sound) (queue : QueueId) :
  (Dispatch.taken queue dispatches).Pairwise (· < ·)
  := by
  have waiting := s.store.waiting_pairwise sound queue
  rw [h.waiting sound] at waiting
  exact (List.pairwise_append.mp waiting).1

end Serving

end MessageBroker
