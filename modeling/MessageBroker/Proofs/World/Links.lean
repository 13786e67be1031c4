import MessageBroker.Proofs.Session.Recording
import MessageBroker.Proofs.World.Custody

/-!
# Links of a world

In every world that comes about by actions, the ends of links know their handles.  The messages
that come on them, and those that are recorded in transactions, are for queues of the store, and
the windows of the sessions stay open.
-/

namespace MessageBroker.World

/-- The queues of a store stay there. -/
theorem Orderly.has_step {outside : Multiset Place} {world : World}
    (orderly : Orderly outside world) (action : Action) {queue : QueueId}
    (h : world.store.Has queue) :
  (world.step action).store.Has queue
  := by
  obtain ⟨lost, ⟨_, _, _, -, -, moves, -⟩, -⟩ := orderly.shifts_step action
  exact moves.has h

/-- The ends of the links of a session, and the messages recorded in its transactions, are for
queues of a store, and its window is open. -/
structure Housed (store : QueueStore) (session : Session) : Prop where
  /-- The end of every link knows its handle, and its queue is in the store. -/
  attached : session.Attached store.Has
  /-- The queue of every message recorded in a transaction is in the store. -/
  addressed : session.transactions.Addressed store.Has
  /-- The peer may send transfers, unless the limits let it never do so. -/
  window : session.limits.incomingWindow ≠ 0 → session.incomingWindow ≠ 0

theorem housed_step {outside : Multiset Place} {world : World} (orderly : Orderly outside world)
    (housed : ∀ member ∈ world.members, Housed world.store member.session) (action : Action) :
  ∀ member ∈ (world.step action).members, Housed (world.step action).store member.session
  := by
  have hstays (queue : QueueId) (h : world.store.Has queue) :
      (world.step action).store.Has queue := orderly.has_step action h
  have hold : ∀ member ∈ world.members,
      Housed (world.step action).store member.session := by
    intro member hmem
    refine ⟨?_, (housed member hmem).addressed.mono hstays, (housed member hmem).window⟩
    intro handle endpoint hget
    have under := (housed member hmem).attached handle endpoint hget
    exact ⟨under.handle, under.detachReceived,
      fun queue hkind => hstays queue (under.known queue hkind)⟩
  refine forall_members_step (fun terms limits => ?_) (fun served act housed => ?_) hold action
  · refine ⟨.ofBegin _ terms limits, fun transaction hmem => ?_, fun hlimit => hlimit⟩
    contradiction
  · obtain ⟨attached, addressed, window⟩ := housed
    have hcontinues (handle : UInt32) :=
      act.continues_run (s := ⟨served.session, world.store⟩) hstays handle
    refine ⟨attached.of_continues hcontinues,
      act.addressed_run (s := ⟨served.session, world.store⟩) attached addressed, ?_⟩
    intro hlimit
    have hsame : (served.run world.store act).1.session.limits = served.session.limits :=
      (hcontinues 0).limits
    rw [hsame] at hlimit
    exact (hcontinues 0).window hlimit (window hlimit)

theorem Reachable.housed {world : World} (reachable : world.Reachable) :
  ∀ member ∈ world.members, Housed world.store member.session
  := by
  have hrun (actions : List Action) {outside : Multiset Place} {world : World}
      (orderly : Orderly outside world)
      (housed : ∀ member ∈ world.members, Housed world.store member.session) :
      ∀ member ∈ (world.run actions).members,
        Housed (world.run actions).store member.session := by
    induction actions generalizing world outside with
    | nil => exact housed
    | cons action actions ih =>
        obtain ⟨lost, hstep, -⟩ := orderly.step action
        exact ih hstep (housed_step orderly housed action)
  obtain ⟨actions, rfl⟩ := reachable
  apply hrun actions .empty
  intro member hmem
  contradiction

end MessageBroker.World
