import MessageBroker.Proofs.Lists
import MessageBroker.Proofs.Session.Attaching
import MessageBroker.Proofs.Session.Tending
import MessageBroker.Proofs.World.Defaults
import MessageBroker.Proofs.World.Parting

/-!
# Browsing leaves no trace

As long as a session has had links to its peer only from browsers, tending its links changes none of
the queues, and no delivery of it is unsettled.  On every such link copies are sent, each settled, of
messages that are available when they are sent, in the order that they have in the queue and each
once, whatever others do with the queue meanwhile.  Where the link stops though it has credit left and
the window of the peer is open, no message is available after the last one that was sent.
-/

namespace MessageBroker

open Session

/-! ### What is sent on a link -/

theorem Session.transfersOn_eq (handle : UInt32) (session : Session) :
  session.transfersOn handle = (session.told handle).filter (·.transfer?.isSome)
  := by
  rw [transfersOn, transfers, told, List.filter_comm]

namespace Member

variable {member : Member}

/-- The transfers that a session has sent on a link. -/
def transfersOn (handle : UInt32) (member : Member) : List Outgoing :=
  (member.told handle).filter (·.transfer?.isSome)

/-- What a session sends on a link, it has sent after what it sent before. -/
theorem transfersOn_run {act : Session.Act} (taking : act ≠ .takeOutput) {store : QueueStore}
    {handle : UInt32} {more : List Outgoing}
    (h : (act.run ⟨member.session, store⟩).2.session.transfersOn handle
      = member.session.transfersOn handle ++ more) :
  (member.run store act).1.transfersOn handle = member.transfersOn handle ++ more
  := by
  rw [transfersOn, transfersOn, told_eq, told_eq, taken_run taking, List.filter_append,
    List.filter_append, ← Session.transfersOn_eq, ← Session.transfersOn_eq, List.append_assoc, ← h]
  rfl

end Member

namespace World

variable {world : World} {index : Nat} {member : Member} {handle : UInt32} {queue : QueueId}
  {history : List Action}

/-! ### Sessions that only browse -/

/-- In the course of actions, a session has had links to the peer only from browsers. -/
def OnlyBrowses (index : Nat) (history : List Action) : Prop :=
  ∀ before, before <+: history → ∀ member, (empty.run before).members[index]? = some member →
    member.session.OnlyBrowses

theorem OnlyBrowses.of_prefix {before : List Action} (only : OnlyBrowses index history)
    (earlier : before <+: history) :
  OnlyBrowses index before
  := fun first h => only first (h.trans earlier)

/-- No delivery of a session that only browses is unsettled. -/
theorem OnlyBrowses.settled (only : OnlyBrowses index history)
    (hget : (empty.run history).members[index]? = some member) :
  member.session.outgoingUnsettled = []
  := by
  induction history using List.reverseRecOn generalizing member with
  | nil => contradiction
  | append_singleton history last ih =>
      have earlier : history <+: history ++ [last] := List.prefix_append _ _
      rw [run_append] at hget
      cases hbefore : (empty.run history).members[index]? with
      | none =>
          obtain ⟨terms, limits, rfl⟩ := begun_of_step hbefore hget
          rfl
      | some before =>
          have settled := ih (only.of_prefix earlier) hbefore
          rcases member_step hbefore last with ⟨act, rfl, hmember, -⟩ | ⟨-, hmember⟩
          · obtain rfl := Option.some.inj (hmember.symm.trans hget)
            exact Act.settled_run (s := ⟨before.session, (empty.run history).store⟩)
              (only history earlier before hbefore) settled act
          · obtain rfl := Option.some.inj (hmember.symm.trans hget)
            exact settled

/-- By an action the links of a session are tended. -/
def Action.Tends (index : Nat) (action : Action) : Prop :=
  ∃ act, action = .serve index act ∧ act.Tends

/-- Tending the links of a session that only browses leaves the queues as they are. -/
theorem OnlyBrowses.store_run (before actions : List Action)
    (only : OnlyBrowses index (before ++ actions))
    (tends : ∀ action ∈ actions, action.Tends index) :
  (empty.run (before ++ actions)).store = (empty.run before).store
  := by
  induction actions using List.reverseRecOn with
  | nil => rw [List.append_nil]
  | append_singleton actions last ih =>
      have earlier : before ++ actions <+: before ++ (actions ++ [last]) := by
        rw [← List.append_assoc]
        exact List.prefix_append _ _
      have first := ih (only.of_prefix earlier)
        fun action hmem => tends action (List.mem_append_left _ hmem)
      obtain ⟨act, rfl, hact⟩ := tends last (List.mem_append_right _ (List.mem_singleton_self _))
      rw [← List.append_assoc, run_append, ← first]
      change ((empty.run (before ++ actions)).step (.serve index act)).store = _
      cases hget : (empty.run (before ++ actions)).members[index]? with
      | none => rw [step, serve_of_none hget]
      | some member =>
          rw [store_serve hget]
          exact Act.store_run (s := ⟨member.session, (empty.run (before ++ actions)).store⟩)
            (only _ earlier member hget) ((only.of_prefix earlier).settled hget) hact

/-! ### Copies that are sent -/

/-- By an action others act, or the links of a session are tended, and the one with a handle does not
come to its end. -/
def Action.Sustains (index : Nat) (handle : UInt32) (action : Action) : Prop :=
  ∀ act, action = .serve index act → act.Tends ∧ ¬ act.Parts handle

/-- By an action copies of messages of a queue are sent on a link of a session, after those that
were sent before. -/
structure Copies (index : Nat) (handle : UInt32) (queue : QueueId) (world : World) (action : Action)
    (shown more : List Copy) (member later : Member) (endpoint : Endpoint) : Prop where
  /-- The session before the action. -/
  before : world.members[index]? = some member
  /-- The session after the action. -/
  after : (world.step action).members[index]? = some later
  /-- The end of the link. -/
  there : member.session.endpoints.get? handle = some endpoint
  /-- A browser of the queue stands behind it, which remembers the message that was sent last. -/
  browses : endpoint.kind = .browsing ⟨queue, (shown.map (·.entry.id)).getLast?⟩
  /-- The copies are sent on the link, settled, and nothing else is. -/
  sent : later.transfersOn handle = member.transfersOn handle
    ++ more.flatMap (·.outgoing member.session.limits.maxFrameSize handle)
  /-- They are copies of messages as they are in the queue, and available. -/
  available : ∀ copy ∈ more,
    world.store.slot? (queue, copy.entry.id) = some ⟨copy.entry, false⟩
  /-- None are sent by what others do. -/
  others : (∀ act, action ≠ .serve index act) → more = []
  /-- Where what waits is sent on the link, as many are sent as there is credit for, unless the
  window of the peer is closed then, or no message is available after the one that was sent last. -/
  stops : ∀ act, action = .serve index act → act.Pumps handle →
    more.length = (act.creditOn handle endpoint.link.credit).credit.toNat
      ∨ later.session.remoteIncomingWindow = 0
      ∨ ∀ number ∈ (world.step action).store.waiting queue,
          ∃ last ∈ ((shown ++ more).map (·.entry.id)).getLast?, number ≤ last

/-- By actions, one after another, copies of messages of a queue are sent on a link of a session,
after those that were sent before. -/
inductive Browses (index : Nat) (handle : UInt32) (queue : QueueId) :
    World → List Action → List Copy → List Copy → Prop where
  /-- Nothing happens. -/
  | nil (world : World) (shown : List Copy) : Browses index handle queue world [] shown shown
  /-- There is an action, and then others. -/
  | cons {world : World} {action : Action} {actions : List Action} {shown more all : List Copy}
      {member later : Member} {endpoint : Endpoint}
      (first : Copies index handle queue world action shown more member later endpoint)
      (others : Browses index handle queue (world.step action) actions (shown ++ more) all) :
      Browses index handle queue world (action :: actions) shown all

/-- A link of a session from a browser of a queue, on which copies were sent. -/
structure Showing (handle : UInt32) (queue : QueueId) (base : Endpoint) (shown : List Copy)
    (credit : LinkCredit) (session : Session) : Prop where
  /-- The end of the link is there, and the browser remembers the message that was sent last. -/
  there : session.endpoints.get? handle
    = some (base.browsing ⟨queue, (shown.map (·.entry.id)).getLast?⟩ credit)
  /-- The link is attached. -/
  attached : base.link.isAttached = true
  /-- The copies are of messages in their order. -/
  ascending : (shown.map (·.entry.id)).IsChain (· < ·)

variable {base : Endpoint} {shown more : List Copy} {credit : LinkCredit}

/-- The link goes on when its browser shows messages. -/
theorem Showing.of_shows {session session' : Session} {store store' : QueueStore}
    (showing : Showing handle queue base shown credit session)
    (shows : Serving.Shows handle more ⟨session, store⟩ ⟨session', store'⟩) :
  ∃ credit', Showing handle queue base (shown ++ more) credit' session'
    ∧ (store.Sound → ∀ copy ∈ more,
        store.slot? (queue, copy.entry.id) = some ⟨copy.entry, false⟩)
  := by
  obtain ⟨browser, credit', follows, there'⟩ := shows.shows _ _ _ showing.there
  have ids : (more.map (·.entry)).map (·.id) = more.map (·.entry.id) := List.map_map
  have same : browser = ⟨queue, ((shown ++ more).map (·.entry.id)).getLast?⟩ := by
    have cursor := follows.cursor
    rw [ids, ← List.getLast?_append, ← List.map_append] at cursor
    rw [← cursor]
    exact congrArg (Browser.mk · browser.cursor) follows.queue
  have ascending := follows.ascending
  rw [ids] at ascending
  refine ⟨credit', ⟨same ▸ there', showing.attached, ?_⟩, fun sound copy hmem => ?_⟩
  · rw [List.map_append]
    exact isChain_append_of_getLast? showing.ascending ascending
  · exact follows.available sound copy.entry (List.mem_map_of_mem hmem)

/-- A link that has stopped has credit for no more copies, unless the window of the peer is closed or
no message is available after the one that was sent last. -/
theorem Showing.of_stops {s : Serving} {count : UInt32} {sent : Nat}
    (showing : Showing handle queue base shown credit s.session) (stops : s.Stops handle count sent) :
  sent = count.toNat ∨ s.session.remoteIncomingWindow = 0
    ∨ ∀ number ∈ s.store.waiting queue,
        ∃ last ∈ (shown.map (·.entry.id)).getLast?, number ≤ last
  := by
  refine stops.imp_right (Or.imp_right ?_)
  rintro ⟨endpoint, browser, left, there, none⟩
  have same := congrArg Endpoint.kind (Option.some.inj (there.symm.trans showing.there))
  obtain rfl := EndpointKind.browsing.inj same
  exact Browser.hasNext_eq_false_iff.mp none

variable {action : Action}

/-- By every action copies are sent, if any, and the link goes on. -/
theorem copies_step (only : OnlyBrowses index history)
    (hget : (empty.run history).members[index]? = some member)
    (showing : Showing handle queue base shown credit member.session)
    (sustains : action.Sustains index handle) :
  ∃ later more credit',
    Copies index handle queue (empty.run history) action shown more member later
        (base.browsing ⟨queue, (shown.map (·.entry.id)).getLast?⟩ credit)
      ∧ Showing handle queue base (shown ++ more) credit' later.session
  := by
  have reachable : (empty.run history).Reachable := ⟨history, rfl⟩
  obtain ⟨outside, orderly, -⟩ := reachable.orderly
  obtain ⟨others, custody⟩ := orderly.inCustody_session (List.mem_of_getElem? hget)
  rcases member_step hget action with ⟨act, rfl, hmember, hstore⟩ | ⟨apart, hmember⟩
  · obtain ⟨tends, lasts⟩ := sustains act rfl
    by_cases taking : act = .takeOutput
    · subst taking
      refine ⟨_, [], credit, ⟨hget, hmember, showing.there, rfl, ?_, by simp, fun _ => rfl, ?_⟩, ?_⟩
      · rw [Member.transfersOn, Member.told_takeOutput]
        exact (List.append_nil _).symm
      · rintro act ⟨⟩ pumps
        exact pumps.elim
      · rw [List.append_nil]
        exact ⟨showing.there, showing.attached, showing.ascending⟩
    · obtain ⟨more, shows, stops⟩ := Act.shows_run (s := ⟨member.session, (empty.run history).store⟩)
        (only history List.prefix_rfl member hget) (only.settled hget) tends taking lasts
        showing.there showing.attached
      obtain ⟨credit', showing', available⟩ := showing.of_shows shows
      refine ⟨_, more, credit', ⟨hget, hmember, showing.there, rfl,
        Member.transfersOn_run taking shows.transfers, available custody.sound, ?_, ?_⟩,
        showing'⟩
      · exact fun apart => absurd rfl (apart act)
      · rintro act ⟨⟩ pumps
        rw [hstore]
        exact showing'.of_stops (stops pumps)
  · refine ⟨member, [], credit, ⟨hget, hmember, showing.there, rfl, (List.append_nil _).symm, by simp,
      fun _ => rfl, ?_⟩, ?_⟩
    · rintro act rfl
      exact absurd rfl (apart act)
    · rw [List.append_nil]
      exact showing

theorem browses_run {actions : List Action} (only : OnlyBrowses index (history ++ actions))
    (hget : (empty.run history).members[index]? = some member)
    (showing : Showing handle queue base shown credit member.session)
    (sustains : ∀ action ∈ actions, action.Sustains index handle) :
  ∃ all, Browses index handle queue (empty.run history) actions shown all
    ∧ (all.map (·.entry.id)).IsChain (· < ·)
  := by
  induction actions generalizing history member shown credit with
  | nil => exact ⟨shown, .nil _ shown, showing.ascending⟩
  | cons action actions ih =>
      obtain ⟨later, more, credit', first, showing'⟩ :=
        copies_step (only.of_prefix (List.prefix_append _ _)) hget showing
          (sustains action List.mem_cons_self)
      have split : history ++ action :: actions = (history ++ [action]) ++ actions := by simp
      have hlater : (empty.run (history ++ [action])).members[index]? = some later := by
        rw [run_append]
        exact first.after
      rw [split] at only
      obtain ⟨all, others, ascending⟩ := ih only hlater showing'
        fun other hmem => sustains other (List.mem_cons_of_mem action hmem)
      rw [run_append] at others
      exact ⟨all, .cons first others, ascending⟩

/-- A link that is accepted to show messages of a queue has sent nothing. -/
theorem showing_attach (hget : world.members[index]? = some member) {attach : Attach}
    (free : member.session.endpoints.get? attach.handle = none)
    (accepted : EndpointKind.ofAttach world.store attach = .ok (.browsing (.new queue)))
    (payload : Bytes) :
  ∃ later base credit, (world.step (.attach index attach payload)).members[index]? = some later
    ∧ Showing attach.handle queue base [] credit later.session
  := by
  have handled := Operation.after_of_ok (Operation.handle_attach_of_sending
    (s := ⟨member.session, world.store⟩) free accepted rfl payload)
  refine ⟨_, ⟨(Link.ofAttach attach member.session.limits.maxMessageSize).sendAttach.2,
    .browsing (.new queue), none⟩, .start (attach.initialDeliveryCount.getD 0),
    member_serve hget _, ?_, rfl, .nil⟩
  change ((Operation.handle (.attach attach) payload).after
    ⟨member.session, world.store⟩).session.endpoints.get? attach.handle = _
  rw [handled]
  exact Table.get?_put_self _ _ _

/-- As long as a session has had links to its peer only from browsers, tending its links leaves the
queues as they are, and no delivery is unsettled.  From when such a link is attached, copies are sent
on it of messages that are available then, settled, in their order and each once, and it stops before
its credit or the window of the peer does only where no message is available after the last one. -/
theorem browsing_leaves_no_trace (only : OnlyBrowses index history) :
  (∀ before actions, history = before ++ actions → (∀ action ∈ actions, action.Tends index) →
      (empty.run history).store = (empty.run before).store)
    ∧ (∀ member, (empty.run history).members[index]? = some member →
      member.session.outgoingUnsettled = [])
    ∧ ∀ before attach payload actions member queue,
      history = before ++ .attach index attach payload :: actions →
      (empty.run before).members[index]? = some member →
      member.session.endpoints.get? attach.handle = none →
      EndpointKind.ofAttach (empty.run before).store attach = .ok (.browsing (.new queue)) →
      (∀ action ∈ actions, action.Sustains index attach.handle) →
      ∃ shown,
        Browses index attach.handle queue ((empty.run before).step (.attach index attach payload))
            actions [] shown
          ∧ (shown.map (·.entry.id)).Pairwise (· < ·)
  := by
  refine ⟨?_, fun member hget => only.settled hget, ?_⟩
  · rintro before actions rfl tends
    exact OnlyBrowses.store_run before actions only tends
  · rintro before attach payload actions member queue rfl hget free accepted sustains
    obtain ⟨later, base, credit, hlater, showing⟩ := showing_attach hget free accepted payload
    have split : before ++ .attach index attach payload :: actions
        = (before ++ [.attach index attach payload]) ++ actions := by simp
    have hlater' : (empty.run (before ++ [.attach index attach payload])).members[index]?
        = some later := by
      rw [run_append]
      exact hlater
    rw [split] at only
    obtain ⟨shown, browses, ascending⟩ := browses_run only hlater' showing sustains
    rw [run_append] at browses
    exact ⟨shown, browses, List.isChain_iff_pairwise.mp ascending⟩

/-- A session has only browsed if in no state of it messages are taken for a link. -/
theorem onlyBrowses_of_rows
    (h : history.inits.all fun before => (empty.run before).members[index]?.all fun member =>
      member.session.endpoints.all fun row => row.2.kind.source?.all (·.2)) :
  OnlyBrowses index history
  := by
  intro before earlier member hget handle endpoint queue there taken
  have state := List.all_eq_true.mp h before ((List.mem_inits _ _).mpr earlier)
  rw [hget, Option.all_some] at state
  have copied := List.all_eq_true.mp state _ (Table.mem_of_get? there)
  rw [EndpointKind.source?_eq_taken.mpr taken] at copied
  contradiction

/-- The peer attaches a link to look at the messages of the queue. -/
def visitor : Attach :=
  ⟨"b", 0, .receiver, .mixed, .first,
    some ⟨some "q", none, none, none, false, some ⟨copyMode⟩, .null, none, none, none⟩, none, none,
    none⟩

/-- While the peer looks at the messages of the queue, one of them is taken and another one is put
there. -/
def visit : List Action :=
  [.flow 0 ⟨some 0, 9, 0, 9, some 0, some 0, some 1, none, false, false⟩ [], .subscribe 0,
    .consume 0 .receive, .enqueue 0 [2],
    .flow 0 ⟨some 0, 9, 0, 9, some 0, some 1, some 9, none, false, false⟩ []]

/-- A queue of two messages is looked at. -/
def visited : List Action :=
  [.addQueue "q" .unlimited true, .enqueue 0 [0], .enqueue 0 [1],
    .begin ⟨none, 0, 9, 9, none⟩ ⟨9, 9, 0, true, 512⟩]

/-- A message that is taken meanwhile and one that is put there meanwhile are sent once each. -/
theorem browsing_leaves_no_trace_of_visit :
  ∃ shown,
    Browses 0 0 0 ((empty.run visited).step (.attach 0 visitor [])) visit [] shown
      ∧ (shown.map (·.entry.id)).Pairwise (· < ·)
      ∧ ((empty.run (visited ++ .attach 0 visitor [] :: visit)).members[0]?.map fun member =>
          (member.session.outgoingUnsettled, (member.transfersOn 0).map (·.payload)))
        = some ([], [some [0], some [1], some [2]])
  := by
  have only : OnlyBrowses 0 (visited ++ .attach 0 visitor [] :: visit) :=
    onlyBrowses_of_rows (by decide +kernel)
  obtain ⟨-, -, browses⟩ := browsing_leaves_no_trace only
  have hget : (empty.run visited).members[0]? = some _ := rfl
  have sustains : ∀ action ∈ visit, action.Sustains 0 0 := by
    intro action hmem
    simp only [visit, List.mem_cons, List.not_mem_nil, or_false] at hmem
    rintro act rfl
    rcases hmem with h | h | h | h | h
    · cases h
      exact ⟨trivial, fun parts => parts.concerns⟩
    · cases h
    · cases h
    · cases h
    · cases h
      exact ⟨trivial, fun parts => parts.concerns⟩
  obtain ⟨shown, browses, ascending⟩ :=
    browses visited visitor [] visit _ 0 rfl hget rfl rfl sustains
  exact ⟨shown, browses, ascending, by decide +kernel⟩

end World

end MessageBroker
