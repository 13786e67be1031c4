import MessageBroker.Proofs.Broker
import MessageBroker.Proofs.World.Custody

/-!
# Redelivery in worlds

Whatever sessions and consumers do to the queues that they share, they do by requests, one after
another.  So in a world that begins with the queues of a broker the limits on redelivery hold as
the configuration says: a message that has used up its attempts is taken out when it is given back
as failed for the last time, neither earlier nor later, and goes on to the alternate of its queue
if that has one.
-/

namespace MessageBroker

/-! ### Actions as requests -/

theorem Custody.Move.requested {custody custody' : Custody} (move : Move custody custody') :
  ∃ request : Request, request.perform custody.store = custody'.store
  := by
  cases move with
  | add places store name policy listed => exact ⟨.add name policy listed, rfl⟩
  | enqueue places store queue payload => exact ⟨.enqueue queue payload, rfl⟩
  | @acquire places store store' queue entry h => exact ⟨.acquire queue, by rw [Request.perform, h]⟩
  | acknowledge places store place => exact ⟨.acknowledge place, rfl⟩
  | release places store place counted => exact ⟨.release place counted, rfl⟩

theorem Custody.Moves.requested {custody custody' : Custody} (moves : Moves custody custody') :
  ∃ requests, Request.performAll requests custody.store = custody'.store
  := by
  induction moves with
  | refl => exact ⟨[], rfl⟩
  | tail _ move ih =>
    obtain ⟨requests, before⟩ := ih
    obtain ⟨request, last⟩ := move.requested
    use requests ++ [request]
    rw [Request.performAll_append, before]
    exact last

namespace World

/-- A world with nothing but queues. -/
def of (store : QueueStore) : World :=
  ⟨store, [], []⟩

/-- What is asked of the queues in a run of a world, action by action. -/
structure Traced (world : World) (actions : List Action) (trace : List (List Request)) : Prop where
  /-- Every action has its requests. -/
  length : trace.length = actions.length
  /-- The queues after some of the actions are those after their requests. -/
  store : ∀ count, (world.run (actions.take count)).store
    = Request.performAll (trace.take count).flatten world.store

/-- An action asks something of the queues, and changes them in no other way. -/
theorem Orderly.requested {outside : Multiset Place} {world : World}
    (orderly : Orderly outside world) (action : Action) :
  ∃ requests, Request.performAll requests world.store = (world.step action).store
  := by
  obtain ⟨lost, ⟨own, own', others, -, -, moves, -⟩, -⟩ := orderly.shifts_step action
  exact moves.requested

theorem Orderly.traced {outside : Multiset Place} {world : World}
    (orderly : Orderly outside world) (actions : List Action) :
  ∃ trace, world.Traced actions trace
  := by
  induction actions generalizing world outside with
  | nil =>
    refine ⟨[], rfl, ?_⟩
    intro count
    rw [List.take_nil, List.take_nil]
    rfl
  | cons action actions ih =>
    obtain ⟨requests, first⟩ := orderly.requested action
    obtain ⟨lost, orderly', -⟩ := orderly.step action
    obtain ⟨trace, length, later⟩ := ih orderly'
    refine ⟨requests :: trace, by rw [List.length_cons, length, List.length_cons], ?_⟩
    intro count
    cases count with
    | zero => rfl
    | succ count =>
      rw [List.take_succ_cons, run_cons, later, List.take_succ_cons, List.flatten_cons,
        Request.performAll_append, first]

/-- When a broker begins, no message is held. -/
theorem Orderly.of_storeOf (config : BrokerConfig) :
  Orderly 0 (of (Broker.storeOf config))
  := by
  constructor
  · refine ⟨Broker.sound_storeOf config, fun place => ?_⟩
    rw [of, QueueStore.isHeld, Broker.slot?_storeOf]
    rfl
  · intro member hmem
    contradiction

/-! ### Limits -/

/-- A sound configuration can be followed.  Whatever sessions and consumers do then, and whatever
is asked of the queues, every queue is and answers as its configuration says, by the number of
times that each message was given back as failed. -/
theorem redelivery_limited {config : BrokerConfig} (sound : config.validate = .ok ()) :
  ∃ broker, Broker.build config = .ok broker
    ∧ (∀ actions, ∃ trace, (of broker.store).Traced actions trace
        ∧ ∀ count id (queue : QueueConfig), config.queues[id]? = some queue →
          queue.Followed id ((of broker.store).run (actions.take count)).store fun number =>
            Request.countedReleases (id, number) (trace.take count).flatten broker.store)
    ∧ (∀ requests id (queue : QueueConfig), config.queues[id]? = some queue →
        queue.Followed id (Request.performAll requests broker.store) fun number =>
          Request.countedReleases (id, number) requests broker.store)
  := by
  refine ⟨_, Broker.build_of_validate sound, ?_, ?_⟩
  · intro actions
    obtain ⟨trace, traced⟩ := (Orderly.of_storeOf config).traced actions
    refine ⟨trace, traced, ?_⟩
    intro count id queue configured
    rw [traced.store]
    exact Broker.followed sound configured _
  · intro requests id queue configured
    exact Broker.followed sound configured requests

/-- A message of a queue with two attempts takes its place again after the first that fails, and
goes on to the alternate after the second. -/
theorem redelivery_limited_of_two_attempts :
  let config := { BrokerConfig.standard with
    queues := [⟨"work", 2, some "failed"⟩, ⟨"failed", 0, none⟩] }
  ∃ broker, Broker.build config = .ok broker
    ∧ let store := Request.performAll
        [.enqueue 0 [7], .acquire 0, .release (0, 0) true, .acquire 0] broker.store
      store.attempts (0, 0) = 1
        ∧ (store.release 0 0 false).1 = some .requeued
        ∧ (store.release 0 0 true).1 = some (.deadLettered "failed")
        ∧ (store.release 0 0 true).2.slot? (1, 0) = some ⟨⟨0, [7], 0⟩, false⟩
  := by
  intro config
  have sound : config.validate = .ok () := rfl
  obtain ⟨broker, built, -, follows⟩ := redelivery_limited sound
  refine ⟨broker, built, ?_⟩
  obtain rfl : broker = ⟨config, Broker.storeOf config, []⟩ := by
    rw [Broker.build_of_validate sound] at built
    exact (Except.ok.inj built).symm
  intro store
  have work := follows
    [.enqueue 0 [7], .acquire 0, .release (0, 0) true, .acquire 0] 0 ⟨"work", 2, some "failed"⟩ rfl
  have held : store.slot? (0, 0) = some ⟨⟨0, [7], 1⟩, true⟩ := by decide +kernel
  have reached : (2 : UInt32) ≠ 0 := by decide
  obtain ⟨goes, -, arrives⟩ := work.last 0 ⟨0, [7], 1⟩ held reached (by decide +kernel)
  refine ⟨?_, (work.uncounted 0 _ held).1, goes, ?_⟩
  · rw [QueueStore.attempts, held]
    rfl
  · exact arrives "failed" 1 (.empty "failed" ⟨0, none⟩) rfl (by decide +kernel) (by decide +kernel)

end World

end MessageBroker
