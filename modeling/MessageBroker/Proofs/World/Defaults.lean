import MessageBroker.Proofs.Lists
import MessageBroker.Proofs.Session.Origins
import MessageBroker.Proofs.World.Settling

/-!
# Deliveries settled without an outcome

A delivery that the peer settles without telling an outcome is given the default of the link that
is attached under its handle by then, and is accepted if none is.  As long as the peer has not
detached the link on which the delivery was sent, this is the default of the source that the peer
named when it attached that link.  But a delivery outlives its link, and then it is accepted though
its link had another default, or it is given the default of a link that never sent it.
-/

namespace MessageBroker.World

open Session

/-- The outcome of deliveries from a source that the peer settles without telling one. -/
def defaultOf (source : Option Source) : DeliveryState :=
  (source.bind (·.defaultOutcome)).getD .accepted

/-! ### Links that messages are sent on -/

/-- On the link of a session with a handle messages go to the peer, from a source. -/
def Serves (world : World) (index : Nat) (handle : UInt32) (source : Option Source) : Prop :=
  ∃ member, world.members[index]? = some member ∧ member.session.Serves handle source

/-- By an action the link of a session with a handle comes to its end: the peer detaches it, or the
session ends. -/
def Action.Parts (index : Nat) (handle : UInt32) (action : Action) : Prop :=
  ∃ act, action = .serve index act ∧ act.Parts handle

/-- By an action the peer attaches a link of a session under a handle that is not in use, on which
messages are to go to it from a source. -/
def Action.Requests (world : World) (index : Nat) (handle : UInt32) (source : Option Source)
    (action : Action) : Prop :=
  ∃ act member, action = .serve index act ∧ world.members[index]? = some member
    ∧ member.session.endpoints.get? handle = none ∧ act.Requests world.store handle source

/-- In the course of actions the peer has attached a link of a session, on which messages are to go
to it from a source, and the link has not come to its end since. -/
def Requested (index : Nat) (handle : UInt32) (source : Option Source) (actions : List Action) :
    Prop :=
  Since (fun before action => action.Requests (empty.run before) index handle source)
    (fun other => ¬ other.Parts index handle) actions

variable {world : World} {index : Nat} {handle : UInt32} {source : Option Source}
  {actions : List Action} {action : Action} {member : Member} {id : UInt32}
  {delivery : OutgoingDelivery}

theorem serves_of_get? (hget : world.members[index]? = some member) :
  world.Serves index handle source ↔ member.session.Serves handle source
  := by
  rw [Serves, hget]
  simp

theorem Action.parts_serve {act : Session.Act} :
  Action.Parts index handle (.serve index act) ↔ act.Parts handle
  := by
  constructor
  · rintro ⟨act', ⟨⟩, parts⟩
    exact parts
  · exact fun parts => ⟨act, rfl, parts⟩

theorem Action.requests_serve (hget : world.members[index]? = some member) {act : Session.Act} :
  Action.Requests world index handle source (.serve index act)
    ↔ member.session.endpoints.get? handle = none ∧ act.Requests world.store handle source
  := by
  constructor
  · rintro ⟨act', member', ⟨⟩, hget', requests⟩
    obtain rfl := Option.some.inj (hget.symm.trans hget')
    exact requests
  · exact fun requests => ⟨act, member, rfl, hget, requests⟩

/-- Messages go to the peer on a link as before until it comes to its end, or from when the peer
attaches it. -/
theorem serves_step (reachable : world.Reachable) (action : Action) :
  (world.step action).Serves index handle source
    ↔ world.Serves index handle source ∧ ¬ action.Parts index handle
      ∨ action.Requests world index handle source
  := by
  cases hget : world.members[index]? with
  | none =>
      constructor
      · rintro ⟨member, hmember, endpoint, hendpoint, -⟩
        obtain ⟨terms, limits, rfl⟩ := begun_of_step hget hmember
        contradiction
      · rintro (⟨⟨member, hmember, -⟩, -⟩ | ⟨act, member, -, hmember, -⟩)
        · rw [hget] at hmember
          contradiction
        · rw [hget] at hmember
          contradiction
  | some member =>
      rcases member_step hget action with ⟨act, rfl, hmember, -⟩ | ⟨apart, hmember⟩
      · have attached := (reachable.housed member (List.mem_of_getElem? hget)).attached
        rw [serves_of_get? hmember, serves_of_get? hget, Action.parts_serve,
          Action.requests_serve hget]
        exact act.serves_run (s := ⟨member.session, world.store⟩) (fun _ h => h) attached
          handle source
      · have lasts : ¬ action.Parts index handle := fun ⟨act, same, _⟩ => apart act same
        have silent : ¬ action.Requests world index handle source :=
          fun ⟨act, _, same, _⟩ => apart act same
        rw [serves_of_get? hmember, serves_of_get? hget, and_iff_left lasts, or_iff_left silent]

/-- On the links that the peer has attached, and on no others, messages go to it, from the sources
that it named. -/
theorem serves_iff :
  (empty.run actions).Serves index handle source ↔ Requested index handle source actions
  := by
  induction actions using List.reverseRecOn with
  | nil =>
      constructor
      · rintro ⟨member, hget, -⟩
        contradiction
      · rintro ⟨before, action, later, split, -⟩
        simp at split
  | append_singleton actions action ih =>
      rw [Requested, since_concat, ← Requested, ← ih, run_append]
      exact serves_step ⟨actions, rfl⟩ action

/-! ### Deliveries that were sent -/

/-- A delivery of a session is not settled. -/
def Outstanding (world : World) (index : Nat) (id : UInt32) (delivery : OutgoingDelivery) : Prop :=
  ∃ member, world.members[index]? = some member
    ∧ member.session.outgoingUnsettled.get? id = some delivery

/-- A delivery of a session was sent by an action, on a link that the peer had attached, and it has
been unsettled since, after each of the actions that came later. -/
structure Sent (index : Nat) (id : UInt32) (delivery : OutgoingDelivery) (source : Option Source)
    (before : List Action) (action : Action) (later : List Action) : Prop where
  /-- The peer had attached the link with the handle of the delivery, and named its source. -/
  requested : Requested index delivery.handle source before
  /-- The link did not come to its end by the action. -/
  lasts : ¬ action.Parts index delivery.handle
  /-- The delivery was not there before. -/
  unsent : ¬ (empty.run before).Outstanding index id delivery
  /-- It is there since. -/
  outstanding : ∀ count,
    (empty.run (before ++ action :: later.take count)).Outstanding index id delivery

/-- A delivery that is unsettled after an action was so before, or was sent on a link that the peer
had attached. -/
theorem outstanding_step (houtstanding : (world.step action).Outstanding index id delivery) :
  world.Outstanding index id delivery
    ∨ (∃ source, world.Serves index delivery.handle source) ∧ ¬ action.Parts index delivery.handle
  := by
  obtain ⟨later, hlater, hdelivery⟩ := houtstanding
  cases hget : world.members[index]? with
  | none =>
      obtain ⟨terms, limits, rfl⟩ := begun_of_step hget hlater
      contradiction
  | some member =>
      rcases member_step hget action with ⟨act, rfl, hmember, -⟩ | ⟨-, hmember⟩
      · obtain rfl := Option.some.inj (hmember.symm.trans hlater)
        rcases act.sent_run ⟨member.session, world.store⟩ hdelivery with
          before | ⟨⟨source, serves⟩, lasts⟩
        · exact .inl ⟨member, hget, before⟩
        · refine .inr ⟨⟨source, member, hget, serves⟩, ?_⟩
          rintro ⟨act, ⟨⟩, parts⟩
          exact lasts parts
      · obtain rfl := Option.some.inj (hmember.symm.trans hlater)
        exact .inl ⟨_, hget, hdelivery⟩

/-- Every delivery that is unsettled was sent once, on a link that the peer had attached. -/
theorem exists_sent (houtstanding : (empty.run actions).Outstanding index id delivery) :
  ∃ source before action later, actions = before ++ action :: later
    ∧ Sent index id delivery source before action later
  := by
  induction actions using List.reverseRecOn with
  | nil =>
      obtain ⟨member, hget, -⟩ := houtstanding
      contradiction
  | append_singleton actions last ih =>
      have now := houtstanding
      rw [run_append] at houtstanding
      by_cases hbefore : (empty.run actions).Outstanding index id delivery
      · obtain ⟨source, before, action, later, rfl, sent⟩ := ih hbefore
        refine ⟨source, before, action, later ++ [last], by simp, sent.requested, sent.lasts,
          sent.unsent, fun count => ?_⟩
        by_cases few : count ≤ later.length
        · rw [List.take_append_of_le_length few]
          exact sent.outstanding count
        · rw [List.take_of_length_le (by simp; omega)]
          simpa using now
      · rcases outstanding_step houtstanding with before | ⟨⟨source, serves⟩, lasts⟩
        · contradiction
        · refine ⟨source, actions, last, [], rfl, serves_iff.mp serves, lasts, hbefore,
            fun count => ?_⟩
          rw [List.take_nil]
          exact now

/-! ### Defaults -/

theorem defaultAt_of_serves (serves : member.session.Serves handle source) :
  member.session.defaultAt handle = defaultOf source
  := by
  obtain ⟨endpoint, hget, -, rfl⟩ := serves
  rw [Session.defaultAt, hget]
  rfl

/-- By an action the peer attaches a link of a session. -/
def Action.Attaches (index : Nat) (handle : UInt32) (action : Action) : Prop :=
  ∃ act, action = .serve index act ∧ act.Attaches handle

/-- In the course of actions a link of a session has come to its end, and the peer has not attached
another with its handle since. -/
def Parted (index : Nat) (handle : UInt32) (actions : List Action) : Prop :=
  Since (fun _ action => action.Parts index handle) (fun other => ¬ other.Attaches index handle)
    actions

/-- No link has a handle once the link that had it has come to its end. -/
theorem get?_of_parted (parted : Parted index handle actions)
    (hget : (empty.run actions).members[index]? = some member) :
  member.session.endpoints.get? handle = none
  := by
  induction actions using List.reverseRecOn generalizing member with
  | nil => contradiction
  | append_singleton actions last ih =>
      rw [Parted, since_concat, ← Parted] at parted
      rw [run_append] at hget
      cases hbefore : (empty.run actions).members[index]? with
      | none =>
          obtain ⟨terms, limits, rfl⟩ := begun_of_step hbefore hget
          rfl
      | some before =>
          rcases member_step hbefore last with ⟨act, rfl, hmember, -⟩ | ⟨apart, hmember⟩
          · obtain rfl := Option.some.inj (hmember.symm.trans hget)
            rcases parted with ⟨parted, unasked⟩ | parts
            · apply Option.eq_none_iff_forall_ne_some.mpr
              intro endpoint' hendpoint'
              obtain ⟨endpoint, hendpoint, -⟩ :=
                act.inherits_run ⟨before.session, (empty.run actions).store⟩
                  (fun attaches => unasked ⟨act, rfl, attaches⟩) endpoint' hendpoint'
              rw [ih parted hbefore] at hendpoint
              contradiction
            · exact (Action.parts_serve.mp parts).get?_run ⟨before.session, _⟩
          · obtain rfl := Option.some.inj (hmember.symm.trans hget)
            rcases parted with ⟨parted, -⟩ | ⟨act, same, -⟩
            · exact ih parted hbefore
            · exact absurd same (apart act)

/-- A delivery of a session is given the default of the link that has its handle. -/
structure Follows (index : Nat) (actions : List Action) (verdict : Verdict) : Prop where
  /-- The delivery was sent on a link that the peer had attached, and it is given the default of that
  link if the link has not come to its end. -/
  sender : ∃ source before action later, actions = before ++ action :: later
    ∧ Sent index verdict.1 verdict.2.1 source before action later
    ∧ ((∀ other ∈ later, ¬ other.Parts index verdict.2.1.handle) →
      verdict.2.2 = defaultOf source)
  /-- It is accepted if the link has come to its end, whatever the default of the link was. -/
  parted : Parted index verdict.2.1.handle actions → verdict.2.2 = .accepted
  /-- It is given the default of another link to which the peer has given the handle since. -/
  requested : ∀ source, Requested index verdict.2.1.handle source actions →
    verdict.2.2 = defaultOf source

/-- A disposition by which the peer settles deliveries of a session without telling an outcome. -/
structure Defaults (index : Nat) (actions : List Action) (member : Member)
    (disposition : Disposition) (payload : Bytes) : Prop where
  /-- Every unsettled delivery that the disposition speaks of is given the default of the link that
  has its handle. -/
  decided : member.session.verdicts disposition
    = (member.session.covered disposition).map fun row =>
        (row.1, row.2, member.session.defaultAt row.2.handle)
  /-- What this link is depends on what has happened since the delivery was sent. -/
  follows : ∀ verdict ∈ member.session.verdicts disposition, Follows index actions verdict
  /-- The outcomes are carried out, and what waits is sent, if the transactions are open in which
  messages are to be taken. -/
  concluded :
    (∀ verdict ∈ member.session.verdicts disposition,
      verdict.Known member.session.transactions) →
    ∃ s', Serving.Concludes (member.session.verdicts disposition)
        ⟨member.session, (empty.run actions).store⟩ s'
      ∧ Operation.handle (.disposition disposition) payload
          ⟨member.session, (empty.run actions).store⟩ = .ok () s'.pumpAll
  /-- Otherwise they are carried out up to the first delivery whose message is to be taken in a
  transaction that is not open: this message is given back, and the link is at fault. -/
  stopped : ∀ before verdict after id,
    member.session.verdicts disposition = before ++ verdict :: after →
    (∀ earlier ∈ before, earlier.Known member.session.transactions) →
    verdict.takenIn? = some id → member.session.transactions.contains id = false →
    ∃ s', Serving.Concludes (before ++ [verdict.released])
        ⟨member.session, (empty.run actions).store⟩ s'
      ∧ Operation.handle (.disposition disposition) payload
          ⟨member.session, (empty.run actions).store⟩
        = Operation.detachWith verdict.2.1.handle (Ledger.unknown id) s'

/-- The outcome of a delivery is that of the link that has its handle. -/
theorem follows_defaultAt (hget : (empty.run actions).members[index]? = some member)
    (hdelivery : member.session.outgoingUnsettled.get? id = some delivery) :
  Follows index actions (id, delivery, member.session.defaultAt delivery.handle)
  := by
  have requested (source : Option Source)
      (requested : Requested index delivery.handle source actions) :
      member.session.defaultAt delivery.handle = defaultOf source :=
    defaultAt_of_serves ((serves_of_get? hget).mp (serves_iff.mpr requested))
  refine ⟨?_, fun parted => ?_, requested⟩
  · obtain ⟨source, before, action, later, rfl, sent⟩ := exists_sent ⟨member, hget, hdelivery⟩
    refine ⟨source, before, action, later, rfl, sent, fun lasts => requested source ?_⟩
    exact sent.requested.append (List.forall_mem_cons.mpr ⟨sent.lasts, lasts⟩)
  · rw [Session.defaultAt, get?_of_parted parted hget]
    rfl

/-- A delivery that the peer settles without telling an outcome is given the default of the link
that has its handle by then, whatever came about in the world: the link on which it was sent, as
long as this has not come to its end. -/
theorem settled_by_default (hget : (empty.run actions).members[index]? = some member)
    {disposition : Disposition} (role : disposition.role = .receiver)
    (settles : disposition.settled = true) (untold : disposition.state = none)
    (nonempty : ¬ disposition.lastId < disposition.first) (payload : Bytes) :
  Defaults index actions member disposition payload
  := by
  have reachable : (empty.run actions).Reachable := ⟨actions, rfl⟩
  obtain ⟨outside, orderly, -⟩ := reachable.orderly
  have hmember := List.mem_of_getElem? hget
  have decided : member.session.verdicts disposition
      = (member.session.covered disposition).map fun row =>
          (row.1, row.2, member.session.defaultAt row.2.handle) :=
    verdicts_of_default untold settles
  refine ⟨decided, ?_, ?_, ?_⟩
  · intro verdict hverdict
    have hdelivery := (orderly.accounted member hmember).sound.found_decided hverdict
    rw [decided] at hverdict
    obtain ⟨row, -, rfl⟩ := List.mem_map.mp hverdict
    exact follows_defaultAt hget hdelivery
  · intro known
    exact ⟨_, orderly.concludes hmember disposition (List.Sublist.refl _),
      Operation.handle_of_settling (s := ⟨member.session, _⟩) payload role nonempty settles known⟩
  · intro before verdict after id told known taken unknown
    refine ⟨_, orderly.concludes hmember disposition ?_,
      Operation.handle_of_unknown_taken (s := ⟨member.session, _⟩) payload role nonempty told known
        taken unknown⟩
    rw [told, List.map_append, List.map_append]
    exact (List.Sublist.cons_cons _ (List.nil_sublist _)).append_left _

/-- A delivery is accepted whose link had another default, once the peer has detached the link. -/
theorem settled_by_default_of_detached :
  ∃ actions member, (empty.run actions).members[0]? = some member
    ∧ Defaults 0 actions member ⟨.receiver, 0, none, true, none, false⟩ []
    ∧ (∃ link : Attach, Action.serve 0 (.handle (.attach link) []) ∈ actions
      ∧ defaultOf link.source = .released)
    ∧ member.session.verdicts ⟨.receiver, 0, none, true, none, false⟩
      = [(0, ⟨0, 0, 0⟩, .accepted)]
  := ⟨[.addQueue "q" .unlimited true, .enqueue 0 [0, 1],
      .begin ⟨none, 0, 9, 9, none⟩ ⟨9, 9, 0, true, 512⟩,
      .serve 0 (.handle (.attach
        ⟨"b", 0, .receiver, .mixed, .first,
          some ⟨some "q", none, none, none, false, none, .null, some .released, none, none⟩, none,
          none, none⟩) []),
      .serve 0 (.handle (.flow ⟨some 0, 9, 0, 9, some 0, some 0, some 1, none, false, false⟩) []),
      .serve 0 (.handle (.detach ⟨0, false, none⟩) [])],
    _, rfl, settled_by_default rfl rfl rfl rfl (by decide) [],
    ⟨_, .tail _ (.tail _ (.tail _ (.head _))), rfl⟩, by decide +kernel⟩

end MessageBroker.World
