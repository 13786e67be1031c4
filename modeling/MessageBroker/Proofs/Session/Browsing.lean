import MessageBroker.Proofs.Session.Dispatching
import MessageBroker.Proofs.Session.Draining

/-!
# Messages that are shown

A browser shows the messages of a queue in their order, each at most once, and takes none.  A
session all of whose links to the peer are from browsers sends copies: every one is settled as it is
sent, and neither the queues nor the deliveries that are unsettled are changed.  Once everything has
been sent on such a link that may be, and there is credit left, and the window of the peer is open,
no message waits after the one that was shown last.
-/

namespace MessageBroker

open Session

/-! ### Browsers -/

namespace Browser

/-- A browser shows messages of the queues, one after another. -/
inductive Shows (store : QueueStore) : List QueueEntry → Browser → Browser → Prop where
  /-- It shows none. -/
  | done (browser : Browser) : Shows store [] browser browser
  /-- It shows the next one and goes on. -/
  | next {browser browser' browser'' : Browser} {entry : QueueEntry} {entries : List QueueEntry}
      (found : browser.next store = (some entry, browser'))
      (others : Shows store entries browser' browser'') :
      Shows store (entry :: entries) browser browser''

namespace Shows

variable {store : QueueStore} {browser browser' browser'' : Browser}
  {entries others : List QueueEntry}

theorem one {entry : QueueEntry} (found : browser.next store = (some entry, browser')) :
  Shows store [entry] browser browser'
  := .next found (.done browser')

theorem append (h : Shows store entries browser browser')
    (h' : Shows store others browser' browser'') :
  Shows store (entries ++ others) browser browser''
  := by
  induction h with
  | done => exact h'
  | next found _ ih => exact .next found (ih h')

/-- A browser stays with its queue. -/
theorem queue (h : Shows store entries browser browser') :
  browser'.queue = browser.queue
  := by
  induction h with
  | done => rfl
  | next found _ ih =>
      obtain ⟨-, rfl⟩ := next_eq_some found
      exact ih

/-- A browser remembers the message that it showed last. -/
theorem cursor (h : Shows store entries browser browser') :
  browser'.cursor = (entries.map (·.id)).getLast?.or browser.cursor
  := by
  induction h with
  | done => rfl
  | next found _ ih =>
      obtain ⟨-, rfl⟩ := next_eq_some found
      rw [ih, List.map_cons, List.getLast?_cons]
      cases List.getLast? _ <;> rfl

/-- The messages are shown in their order, and after the one that was shown before. -/
theorem ascending (h : Shows store entries browser browser') :
  (browser.cursor.toList ++ entries.map (·.id)).IsChain (· < ·)
  := by
  induction h with
  | done browser => cases browser.cursor <;> simp
  | @next browser _ _ entry entries found _ ih =>
      obtain ⟨hfound, rfl⟩ := next_eq_some found
      obtain ⟨queue, -, hbrowse⟩ := Option.bind_eq_some_iff.mp hfound
      rw [Queue.browseNext] at hbrowse
      have after : browser.cursor.all (· < entry.id) = true := by
        simpa using List.find?_some hbrowse
      rw [List.map_cons]
      cases hcursor : browser.cursor with
      | none => exact ih
      | some last =>
          rw [hcursor] at after
          exact .cons_cons (of_decide_eq_true after) ih

/-- The messages that are shown are available. -/
theorem available (h : Shows store entries browser browser') (sound : store.Sound) :
  ∀ entry ∈ entries, store.slot? (browser.queue, entry.id) = some ⟨entry, false⟩
  := by
  induction h with
  | done => simp
  | next found _ ih =>
      obtain ⟨hfound, rfl⟩ := next_eq_some found
      intro entry hmem
      rcases List.mem_cons.mp hmem with rfl | hlater
      · exact QueueStore.slot?_of_browseNext sound hfound
      · exact ih entry hlater

end Shows

/-- A browser has nothing more to show if no message waits after the one that it showed last. -/
theorem hasNext_eq_false_iff {browser : Browser} {store : QueueStore} :
  browser.hasNext store = false
    ↔ ∀ number ∈ store.waiting browser.queue, ∃ last ∈ browser.cursor, number ≤ last
  := by
  rw [hasNext, Option.isSome_eq_false_iff, Option.isNone_iff_eq_none,
    QueueStore.browseNext_eq_none_iff]
  cases browser.cursor <;> simp

end Browser

/-! ### Copies -/

/-- A copy of a message that is sent. -/
structure Copy where
  /-- The number of its delivery. -/
  id : UInt32
  /-- The message. -/
  entry : QueueEntry

/-- The transfers in which a copy is sent on a link, settled. -/
def Copy.outgoing (maxFrameSize handle : UInt32) (copy : Copy) : List Outgoing :=
  (cutDelivery maxFrameSize handle copy.id true copy.entry.payload).map Parcel.outgoing

/-- The transfers that are to be sent on a link. -/
def Session.transfersOn (handle : UInt32) (session : Session) : List Outgoing :=
  session.transfers.filter fun output => output.link? = some handle

/-- No messages are taken from a queue to be sent on a link of a session: to the peer go copies. -/
def Session.OnlyBrowses (session : Session) : Prop :=
  ∀ handle endpoint queue, session.endpoints.get? handle = some endpoint →
    endpoint.kind ≠ .consuming queue

theorem EndpointKind.source?_eq_taken {kind : EndpointKind} {queue : QueueId} :
  kind.source? = some (queue, false) ↔ kind = .consuming queue
  := by
  cases kind <;> simp [source?]

/-- The end of a link from which a browser shows messages. -/
def Endpoint.browsing (endpoint : Endpoint) (browser : Browser) (credit : LinkCredit) : Endpoint :=
  { endpoint with kind := .browsing browser, link := { endpoint.link with credit } }

/-- What is picked where nothing is taken is what a browser shows next. -/
theorem Endpoint.copied_of_pick? {endpoint : Endpoint} {store : QueueStore} {pick : Pick}
    (copies : ∀ queue, endpoint.kind ≠ .consuming queue) (h : endpoint.pick? store = some pick) :
  ∃ browser browser' entry, endpoint.kind = .browsing browser
    ∧ browser.next store = (some entry, browser')
    ∧ pick = ⟨entry, browser.queue, true, .browsing browser', store⟩
  := by
  rw [pick?] at h
  split at h
  · next queue hkind => exact absurd hkind (copies queue)
  · next browser hkind =>
      split at h
      · next entry browser' hnext =>
          obtain ⟨-, rfl⟩ := Browser.next_eq_some hnext
          exact ⟨browser, _, entry, hkind, hnext, (Option.some.inj h).symm⟩
      · contradiction
  · contradiction

namespace Session

variable {session session' : Session} {handle : UInt32}

/-- Where messages come from where they came from, nothing is taken if nothing was. -/
theorem OnlyBrowses.of_sources (only : session.OnlyBrowses)
    (sources : ∀ handle, (session'.endpoints.get? handle).bind (·.kind.source?)
      = (session.endpoints.get? handle).bind (·.kind.source?)) :
  session'.OnlyBrowses
  := by
  intro handle endpoint queue there taken
  have same := sources handle
  rw [there, Option.bind_some, EndpointKind.source?_eq_taken.mpr taken] at same
  obtain ⟨before, hbefore, hsource⟩ := Option.bind_eq_some_iff.mp same.symm
  exact only handle before queue hbefore (EndpointKind.source?_eq_taken.mp hsource)

theorem transfersOn_of_transfers (h : session'.transfers = session.transfers) :
  session'.transfersOn handle = session.transfersOn handle
  := by
  rw [transfersOn, h, transfersOn]

/-- The transfers of a delivery are sent on its link. -/
theorem transfersOn_sendDelivery (session : Session) (handle key id : UInt32) (settled : Bool)
    (payload : Bytes) :
  (session.sendDelivery key id settled payload).transfersOn handle
    = session.transfersOn handle
      ++ if key = handle then
          (cutDelivery session.limits.maxFrameSize key id settled payload).map Parcel.outgoing
        else []
  := by
  have onLink : ∀ output ∈
      (cutDelivery session.limits.maxFrameSize key id settled payload).map Parcel.outgoing,
      output.link? = some key := by
    intro output hmem
    obtain ⟨parcel, hparcel, rfl⟩ := List.mem_map.mp hmem
    exact congrArg some (handle_of_mem_cutDelivery hparcel)
  rw [transfersOn, transfers_sendDelivery, List.filter_append, ← transfersOn]
  congr 1
  split
  · next same =>
      apply List.filter_eq_self.mpr
      intro output hmem
      rw [onLink output hmem, same]
      exact decide_eq_true rfl
  · next other =>
      apply List.filter_eq_nil_iff.mpr
      intro output hmem
      simp [onLink output hmem, other]

end Session

/-! ### Links that are left alone -/

namespace Serving

/-- What is done changes neither the queues nor the unsettled deliveries nor the link with a handle,
and sends nothing on it. -/
structure Omits (handle : UInt32) (s s' : Serving) : Prop where
  /-- The queues are as they were. -/
  store : s'.store = s.store
  /-- The limits are the same. -/
  limits : s'.session.limits = s.session.limits
  /-- The same deliveries are unsettled. -/
  unsettled : s'.session.outgoingUnsettled = s.session.outgoingUnsettled
  /-- The end of the link is as it was. -/
  there : s'.session.endpoints.get? handle = s.session.endpoints.get? handle
  /-- Nothing is sent on the link. -/
  transfers : s'.session.transfersOn handle = s.session.transfersOn handle

variable {s s' s'' : Serving} {handle key : UInt32}

namespace Omits

theorem refl (handle : UInt32) (s : Serving) :
  Omits handle s s
  := ⟨rfl, rfl, rfl, rfl, rfl⟩

theorem trans (h : Omits handle s s') (h' : Omits handle s' s'') :
  Omits handle s s''
  := ⟨h'.store.trans h.store, h'.limits.trans h.limits, h'.unsettled.trans h.unsettled,
    h'.there.trans h.there, h'.transfers.trans h.transfers⟩

theorem emit {p : Performative} (h : Outgoing.transfer? ⟨p, none⟩ = none) (s : Serving) :
  Omits handle s (s.onSession (·.emit p none))
  := ⟨rfl, rfl, rfl, rfl, transfersOn_of_transfers (transfers_emit h _)⟩

theorem emitLinkFlow (s : Serving) (store : QueueStore) (key : UInt32) :
  Omits handle s (s.onSession (·.emitLinkFlow store key))
  := by
  rw [onSession, Session.emitLinkFlow]
  split
  · exact .emit rfl s
  · exact .refl handle s

theorem put (other : key ≠ handle) (s : Serving) (endpoint : Endpoint) :
  Omits handle s (s.onSession (·.putEndpoint key endpoint))
  := ⟨rfl, rfl, rfl, (Table.get?_put _ _ _ _).trans (if_neg (Ne.symm other)), rfl⟩

theorem erase (other : key ≠ handle) (s : Serving) :
  Omits handle s (s.onSession fun session =>
    { session with endpoints := session.endpoints.erase key })
  := ⟨rfl, rfl, rfl, (Table.get?_erase _ _ _).trans (if_neg (Ne.symm other)), rfl⟩

end Omits

theorem omits_giveBackCredit (other : key ≠ handle) (s : Serving) :
  Omits handle s (s.giveBackCredit key)
  := by
  rw [giveBackCredit]
  split
  · exact .refl handle s
  · next endpoint there =>
      split
      · exact .refl handle s
      · next credit _ =>
          exact (Omits.put other s (endpoint.onLink fun link => { link with credit })).trans
            (.emitLinkFlow _ s.store key)

/-! ### Messages that are shown on a link -/

/-- What is done changes neither the queues nor the unsettled deliveries, and sends copies of the
messages that the browser of a link shows. -/
structure Shows (handle : UInt32) (copies : List Copy) (s s' : Serving) : Prop where
  /-- The queues are as they were. -/
  store : s'.store = s.store
  /-- The limits are the same. -/
  limits : s'.session.limits = s.session.limits
  /-- The same deliveries are unsettled. -/
  unsettled : s'.session.outgoingUnsettled = s.session.outgoingUnsettled
  /-- The copies are sent on the link. -/
  transfers : s'.session.transfersOn handle = s.session.transfersOn handle
    ++ copies.flatMap (·.outgoing s.session.limits.maxFrameSize handle)
  /-- They are those of the messages that the browser shows, and the credit is used. -/
  shows : ∀ (endpoint : Endpoint) (browser : Browser) (credit : LinkCredit),
    s.session.endpoints.get? handle = some (endpoint.browsing browser credit) →
    ∃ browser' credit', browser.Shows s.store (copies.map (·.entry)) browser'
      ∧ s'.session.endpoints.get? handle = some (endpoint.browsing browser' credit')

variable {copies more : List Copy}

theorem Omits.shows (h : Omits handle s s') :
  Shows handle [] s s'
  := by
  refine ⟨h.store, h.limits, h.unsettled, h.transfers.trans (List.append_nil _).symm, ?_⟩
  intro endpoint browser credit there
  exact ⟨browser, credit, .done browser, h.there.trans there⟩

theorem Shows.refl (handle : UInt32) (s : Serving) :
  Shows handle [] s s
  := (Omits.refl handle s).shows

theorem Shows.trans (h : Shows handle copies s s') (h' : Shows handle more s' s'') :
  Shows handle (copies ++ more) s s''
  := by
  refine ⟨h'.store.trans h.store, h'.limits.trans h.limits, h'.unsettled.trans h.unsettled, ?_, ?_⟩
  · rw [h'.transfers, h.transfers, h.limits, List.flatMap_append, List.append_assoc]
  · intro endpoint browser credit there
    obtain ⟨browser', credit', first, there'⟩ := h.shows endpoint browser credit there
    obtain ⟨browser'', credit'', others, there''⟩ := h'.shows endpoint browser' credit' there'
    rw [h.store] at others
    refine ⟨browser'', credit'', ?_, there''⟩
    rw [List.map_append]
    exact first.append others

/-- A session sends a copy: no message is taken, and the delivery is settled. -/
theorem send_copied (s : Serving) (handle key : UInt32) (endpoint : Endpoint) (entry : QueueEntry)
    (queue : QueueId) (kind : EndpointKind) :
  (s.send key endpoint ⟨entry, queue, true, kind, s.store⟩).store = s.store
    ∧ (s.send key endpoint ⟨entry, queue, true, kind, s.store⟩).session.outgoingUnsettled
      = s.session.outgoingUnsettled
    ∧ (s.send key endpoint ⟨entry, queue, true, kind, s.store⟩).session.transfersOn handle
      = s.session.transfersOn handle
        ++ if key = handle then
            Copy.outgoing s.session.limits.maxFrameSize key ⟨s.session.nextDeliveryId, entry⟩
          else []
  := by
  rw [send, Bool.or_true]
  refine ⟨rfl, ?_, transfersOn_sendDelivery _ handle key _ _ _⟩
  exact (begins_sendDelivery _ key _ _ _).outgoingUnsettled

section Sends

variable (only : s.session.OnlyBrowses)

include only

theorem omits_sendNext? (other : key ≠ handle) (h : s.sendNext? key = some s') :
  Omits handle s s' ∧ s'.session.OnlyBrowses
  := by
  obtain ⟨endpoint, pick, there, hpick, -, -, rfl⟩ := sendNext?_eq_some h
  have sources := (dispatches_send hpick there).sources
  obtain ⟨browser, browser', entry, -, -, rfl⟩ :=
    Endpoint.copied_of_pick? (only key endpoint · there) hpick
  obtain ⟨store, unsettled, transfers⟩ :=
    s.send_copied handle key endpoint entry browser.queue (.browsing browser')
  refine ⟨⟨store, limits_sendPieces _ _ _, unsettled, ?_, ?_⟩, only.of_sources sources⟩
  · rw [endpoints_send, Table.get?_put, if_neg (Ne.symm other)]
  · rw [transfers, if_neg other, List.append_nil]

theorem shows_sendNext? (h : s.sendNext? handle = some s') :
  ∃ copy, Shows handle [copy] s s' ∧ s'.session.OnlyBrowses
  := by
  obtain ⟨endpoint, pick, there, hpick, -, -, rfl⟩ := sendNext?_eq_some h
  have sources := (dispatches_send hpick there).sources
  obtain ⟨browser, browser', entry, hkind, hnext, rfl⟩ :=
    Endpoint.copied_of_pick? (only handle endpoint · there) hpick
  obtain ⟨store, unsettled, transfers⟩ :=
    s.send_copied handle handle endpoint entry browser.queue (.browsing browser')
  rw [if_pos rfl] at transfers
  refine ⟨⟨s.session.nextDeliveryId, entry⟩,
    ⟨store, limits_sendPieces _ _ _, unsettled, ?_, ?_⟩, only.of_sources sources⟩
  · rw [transfers, List.flatMap_singleton]
  · intro before shown credit hbefore
    obtain rfl := Option.some.inj (there.symm.trans hbefore)
    cases hkind
    refine ⟨browser', credit.spend, .one hnext, ?_⟩
    rw [endpoints_send, Table.get?_put_self]
    rfl

theorem omits_sendAtMost (other : key ≠ handle) (count : Nat) :
  Omits handle s (sendAtMost count key s) ∧ (sendAtMost count key s).session.OnlyBrowses
  := by
  induction count generalizing s with
  | zero => exact ⟨.refl handle s, only⟩
  | succ count ih =>
      rw [sendAtMost]
      split
      · next s' hnext =>
          obtain ⟨first, only'⟩ := omits_sendNext? only other hnext
          obtain ⟨others, only''⟩ := ih only'
          exact ⟨first.trans others, only''⟩
      · exact ⟨.refl handle s, only⟩

/-- Every copy takes one of the credit. -/
theorem shows_sendAtMost (count : Nat) :
  ∃ copies, Shows handle copies s (sendAtMost count handle s)
    ∧ (sendAtMost count handle s).session.OnlyBrowses
    ∧ ((sendAtMost count handle s).creditOf handle).toNat + copies.length
      = (s.creditOf handle).toNat
  := by
  induction count generalizing s with
  | zero => exact ⟨[], .refl handle s, only, rfl⟩
  | succ count ih =>
      rw [sendAtMost]
      split
      · next s' hnext =>
          obtain ⟨copy, first, only'⟩ := shows_sendNext? only hnext
          obtain ⟨copies, others, only'', spent⟩ := ih only'
          refine ⟨copy :: copies, first.trans others, only'', ?_⟩
          have one := creditOf_sendNext? hnext
          rw [List.length_cons]
          omega
      · exact ⟨[], .refl handle s, only, rfl⟩

end Sends

/-- Credit that is given back leaves the messages to be shown as they are. -/
theorem shows_giveBackCredit (handle key : UInt32) (s : Serving) :
  Shows handle [] s (s.giveBackCredit key)
  := by
  by_cases own : key = handle
  · subst own
    rw [giveBackCredit]
    split
    · exact .refl key s
    · next endpoint there =>
        split
        · exact .refl key s
        · next credit _ =>
            have told : Omits key _ _ := .emitLinkFlow (s.onSession fun session =>
              session.putEndpoint key (endpoint.onLink fun link => { link with credit }))
              s.store key
            refine ⟨rfl, told.limits, told.unsettled, ?_, ?_⟩
            · exact told.transfers.trans (List.append_nil _).symm
            · intro before browser given hbefore
              obtain rfl := Option.some.inj (there.symm.trans hbefore)
              exact ⟨browser, credit, .done browser,
                told.there.trans (Table.get?_put_self _ _ _)⟩
  · exact (omits_giveBackCredit own s).shows

/-! ### Links that stop -/

/-- Of the copies that a link may send, so many were sent: as many as there was credit for, unless
the window of the peer is closed or the browser has nothing more to show. -/
def Stops (handle : UInt32) (credit : UInt32) (sent : Nat) (s : Serving) : Prop :=
  sent = credit.toNat ∨ s.session.remoteIncomingWindow = 0
    ∨ ∃ (endpoint : Endpoint) (browser : Browser) (left : LinkCredit),
        s.session.endpoints.get? handle = some (endpoint.browsing browser left)
          ∧ browser.hasNext s.store = false

theorem Stops.of_shows {credit : UInt32} {sent : Nat} (stops : s.Stops handle credit sent)
    (shows : Shows handle [] s s')
    (closed : s.session.remoteIncomingWindow = 0 → s'.session.remoteIncomingWindow = 0) :
  s'.Stops handle credit sent
  := by
  rcases stops with all | shut | ⟨endpoint, browser, left, there, hnone⟩
  · exact .inl all
  · exact .inr (.inl (closed shut))
  · obtain ⟨browser', left', shown, there'⟩ := shows.shows endpoint browser left there
    cases shown
    refine .inr (.inr ⟨endpoint, browser, left', there', ?_⟩)
    rw [shows.store]
    exact hnone

/-- Credit that is given back leaves the window of the peer as it is. -/
theorem window_giveBackCredit (s : Serving) (key : UInt32) :
  (s.giveBackCredit key).session.remoteIncomingWindow = s.session.remoteIncomingWindow
  := by
  rw [giveBackCredit]
  split
  · rfl
  · split
    · rfl
    · exact (emitLinkFlow_same _ s.store key).2

/-- The window of the peer is opened only by the peer. -/
theorem closed_pump (key : UInt32) (closed : s.session.remoteIncomingWindow = 0) :
  (s.pump key).session.remoteIncomingWindow = 0
  := by
  change ((s.exhausted key).giveBackCredit key).session.remoteIncomingWindow = 0
  rw [exhausted_of_closed closed, window_giveBackCredit]
  exact closed

section Pumps

variable (only : s.session.OnlyBrowses)

include only

theorem onlyBrowses_pump (key : UInt32) :
  (s.pump key).session.OnlyBrowses
  := by
  obtain ⟨dispatches, begun⟩ := s.dispatches_pump key
  exact only.of_sources begun.sources

theorem omits_pump (other : key ≠ handle) :
  Omits handle s (s.pump key)
  := (omits_sendAtMost only other _).1.trans (omits_giveBackCredit other _)

/-- When what waits is sent on a link that is at rest, or on another one, nothing is sent on it. -/
theorem shows_pump_of_rests (rests : s.RestsOn handle) (key : UInt32) :
  Shows handle [] s (s.pump key)
  := by
  by_cases own : key = handle
  · subst own
    change Shows key [] s ((s.exhausted key).giveBackCredit key)
    rw [exhausted_of_rests rests]
    exact s.shows_giveBackCredit key key
  · exact (omits_pump only own).shows

/-- Once everything has been sent on a link that may be, its browser stops. -/
theorem shows_pump (handle : UInt32) :
  ∃ copies, Shows handle copies s (s.pump handle)
    ∧ ∀ endpoint browser credit,
        s.session.endpoints.get? handle = some (Endpoint.browsing endpoint browser credit) →
        endpoint.link.isAttached = true →
        (s.pump handle).Stops handle credit.credit copies.length
  := by
  obtain ⟨copies, shown, spent⟩ : ∃ copies, Shows handle copies s (s.exhausted handle)
      ∧ ((s.exhausted handle).creditOf handle).toNat + copies.length
        = (s.creditOf handle).toNat := by
    obtain ⟨copies, shown, -, spent⟩ := shows_sendAtMost only (s.creditOf handle).toNat
    exact ⟨copies, shown, spent⟩
  have rests : (s.exhausted handle).RestsOn handle := restsOn_of_sendAtMost (Nat.le_refl _)
  have gives := (s.exhausted handle).shows_giveBackCredit handle handle
  refine ⟨copies ++ [], shown.trans gives, fun endpoint browser credit there attached => ?_⟩
  rw [List.append_nil]
  apply Stops.of_shows _ gives fun closed => (window_giveBackCredit _ _).trans closed
  obtain ⟨browser', left, -, there'⟩ := shown.shows endpoint browser credit there
  rcases rests _ there' attached rfl with used | closed | idle
  · rw [creditOf_eq there, creditOf_eq there', used] at spent
    exact .inl ((Nat.zero_add _).symm.trans spent)
  · exact .inr (.inl closed)
  · exact .inr (.inr ⟨endpoint, browser', left, there', idle⟩)

end Pumps

/-- When what waits is sent on links, nothing is sent on one that is at rest, and it stops as
before. -/
theorem shows_foldl_of_rests (keys : List UInt32) (only : s.session.OnlyBrowses)
    (rests : s.RestsOn handle) :
  Shows handle [] s (keys.foldl pump s)
    ∧ ∀ credit sent, s.Stops handle credit sent → (keys.foldl pump s).Stops handle credit sent
  := by
  induction keys generalizing s with
  | nil => exact ⟨.refl handle s, fun _ _ stops => stops⟩
  | cons key keys ih =>
      have first := shows_pump_of_rests only rests key
      obtain ⟨others, stops⟩ := ih (onlyBrowses_pump only key) (restsOn_pump rests key)
      refine ⟨first.trans others, fun credit sent before => ?_⟩
      exact stops credit sent (before.of_shows first (closed_pump key))

/-- When what waits is sent on links, the browsers of these stop. -/
theorem shows_foldl (keys : List UInt32) (only : s.session.OnlyBrowses) (handle : UInt32) :
  ∃ copies, Shows handle copies s (keys.foldl pump s)
    ∧ ∀ endpoint browser credit,
        s.session.endpoints.get? handle = some (Endpoint.browsing endpoint browser credit) →
        endpoint.link.isAttached = true → handle ∈ keys →
        (keys.foldl pump s).Stops handle credit.credit copies.length
  := by
  induction keys generalizing s with
  | nil => exact ⟨[], .refl handle s, fun _ _ _ _ _ hmem => absurd hmem List.not_mem_nil⟩
  | cons key keys ih =>
      by_cases own : key = handle
      · subst own
        obtain ⟨copies, first, stops⟩ := shows_pump only key
        obtain ⟨others, keeps⟩ := shows_foldl_of_rests keys (onlyBrowses_pump only key)
          (restsOn_pump_self s key)
        refine ⟨copies ++ [], first.trans others, ?_⟩
        intro endpoint browser credit there attached _
        rw [List.append_nil]
        exact keeps _ _ (stops endpoint browser credit there attached)
      · have first := omits_pump only own
        obtain ⟨copies, others, stops⟩ := ih (onlyBrowses_pump only key)
        refine ⟨[] ++ copies, first.shows.trans others, ?_⟩
        intro endpoint browser credit there attached hmem
        exact stops endpoint browser credit (first.there.trans there) attached
          ((List.mem_cons.mp hmem).resolve_left (Ne.symm own))

/-- When a session sends everything that waits, the browsers of its links stop. -/
theorem shows_pumpAll (only : s.session.OnlyBrowses) (handle : UInt32) :
  ∃ copies, Shows handle copies s s.pumpAll
    ∧ ∀ endpoint browser credit,
        s.session.endpoints.get? handle = some (Endpoint.browsing endpoint browser credit) →
        endpoint.link.isAttached = true → s.pumpAll.Stops handle credit.credit copies.length
  := by
  obtain ⟨copies, shown, stops⟩ := shows_foldl
    (Table.keys (s.session.endpoints.filter fun row => row.2.kind.isSending)) only handle
  refine ⟨copies, shown, fun endpoint browser credit there attached => ?_⟩
  apply stops endpoint browser credit there attached
  exact List.mem_map_of_mem (List.mem_filter.mpr ⟨Table.mem_of_get? there, rfl⟩)

end Serving

end MessageBroker
