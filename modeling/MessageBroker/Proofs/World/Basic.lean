import MessageBroker.Proofs.Session.Quiet

/-!
# Worlds

A world is a store of queues with the sessions and the consumers that share it.  Actions are taken
in any order: a queue or a message is added, a session begins, works or ends, a consumer comes,
works or goes.  Of every session it is kept what was taken from it to be sent, and how many
transactions it declared.
-/

namespace MessageBroker

/-- What is done with a session. -/
inductive Session.Act where
  /-- The peer has sent a performative. -/
  | handle (p : Performative) (payload : Bytes)
  /-- What waits is sent on every link. -/
  | pumpAll
  /-- Every delivery that is not settled is taken back. -/
  | recover
  /-- The session is ended. -/
  | finish
  /-- What is to be sent is taken. -/
  | takeOutput

/-- Does something with a session: what is taken to be sent, and the state that is left. -/
def Session.Act.run (s : Serving) : Session.Act → List Outgoing × Serving
  | .handle p payload => ([], (Operation.handle p payload).after s)
  | .pumpAll => ([], s.pumpAll)
  | .recover => ([], s.recover.2)
  | .finish => ([], s.finish)
  | .takeOutput => (s.session.takeOutput.1, s.onSession (·.takeOutput.2))

/-- What is done with a consumer. -/
inductive Consumer.Act where
  /-- It takes the next message. -/
  | receive
  /-- It acknowledges a message. -/
  | acknowledge (entry : Nat)
  /-- It acknowledges every message. -/
  | acknowledgeAll
  /-- It gives every message back, as failed. -/
  | recover

/-- Does something with a consumer. -/
def Consumer.Act.run (consumer : Consumer) (store : QueueStore) :
    Consumer.Act → Consumer × QueueStore
  | .receive => (consumer.receive store).2
  | .acknowledge entry => (consumer.acknowledge store entry).2
  | .acknowledgeAll => consumer.acknowledgeAll store
  | .recover => (consumer.recover store).2

/-- A session in a world. -/
structure Member where
  /-- The session. -/
  session : Session
  /-- What was taken from it to be sent, in order. -/
  taken : List Outgoing
  /-- How many transactions it declared. -/
  declared : Nat

namespace Member

/-- How many deliveries a session has sent. -/
def sent (member : Member) : Nat :=
  (member.taken ++ member.session.outbox).countP Outgoing.begins

/-- A session after something was done with it. -/
def proceed (member : Member) (taken : List Outgoing) (session : Session) : Member where
  session
  taken := member.taken ++ taken
  declared := member.declared +
    if session.transactions.lastId = member.session.transactions.lastId then 0 else 1

/-- Does something with a session on a store of queues. -/
def run (member : Member) (store : QueueStore) (act : Session.Act) : Member × QueueStore :=
  let (taken, s) := act.run ⟨member.session, store⟩
  (member.proceed taken s.session, s.store)

end Member

/-- The queues, and the sessions and consumers that share them. -/
structure World where
  /-- The queues. -/
  store : QueueStore
  /-- The sessions, in the order they began. -/
  members : List Member
  /-- The consumers. -/
  consumers : List Consumer

/-- What happens in a world. -/
inductive World.Action where
  /-- A queue is added. -/
  | addQueue (name : String) (policy : RedeliveryPolicy) (listed : Bool)
  /-- A message is put into a queue. -/
  | enqueue (queue : QueueId) (payload : Bytes)
  /-- A session begins. -/
  | begin (terms : Begin) (limits : SessionLimits)
  /-- Something is done with a session. -/
  | serve (index : Nat) (act : Session.Act)
  /-- A consumer of a queue comes. -/
  | subscribe (queue : QueueId)
  /-- Something is done with a consumer. -/
  | consume (index : Nat) (act : Consumer.Act)
  /-- A consumer goes. -/
  | close (index : Nat)

namespace World

/-- A world with nothing in it. -/
def empty : World :=
  ⟨.empty, [], []⟩

/-- Does something with a session of a world. -/
def serve (world : World) (index : Nat) (act : Session.Act) : World :=
  match world.members[index]? with
  | some member =>
    { world with
      store := (member.run world.store act).2
      members := world.members.set index (member.run world.store act).1 }
  | none => world

/-- Does something with a consumer of a world. -/
def consume (world : World) (index : Nat) (act : Consumer.Act) : World :=
  match world.consumers[index]? with
  | some consumer =>
    { world with
      store := (act.run consumer world.store).2
      consumers := world.consumers.set index (act.run consumer world.store).1 }
  | none => world

/-- Lets a consumer of a world go. -/
def close (world : World) (index : Nat) : World :=
  match world.consumers[index]? with
  | some consumer =>
    { world with
      store := consumer.close world.store
      consumers := world.consumers.eraseIdx index }
  | none => world

/-- What becomes of a world by an action. -/
def step (world : World) : Action → World
  | .addQueue name policy listed => { world with store := world.store.add name policy listed }
  | .enqueue queue payload => { world with store := (world.store.enqueue queue payload).2 }
  | .begin terms limits =>
    { world with members := world.members ++ [⟨.ofBegin terms limits, [], 0⟩] }
  | .serve index act => world.serve index act
  | .subscribe queue => { world with consumers := world.consumers ++ [.new queue] }
  | .consume index act => world.consume index act
  | .close index => world.close index

/-- What becomes of a world by actions, one after another. -/
def run (world : World) (actions : List Action) : World :=
  actions.foldl step world

@[simp]
theorem run_nil (world : World) :
  world.run [] = world
  := rfl

@[simp]
theorem run_cons (world : World) (action : Action) (actions : List Action) :
  world.run (action :: actions) = (world.step action).run actions
  := rfl

theorem run_append (world : World) (actions others : List Action) :
  world.run (actions ++ others) = (world.run actions).run others
  := List.foldl_append

/-- A world comes about from the empty one by actions. -/
def Reachable (world : World) : Prop :=
  ∃ actions, empty.run actions = world

theorem Reachable.run {world : World} (reachable : world.Reachable) (actions : List Action) :
  (world.run actions).Reachable
  := by
  obtain ⟨before, rfl⟩ := reachable
  exact ⟨before ++ actions, run_append _ _ _⟩

/-- Every session sent and declared fewer deliveries and transactions than there are numbers. -/
def Bounded (world : World) : Prop :=
  ∀ member ∈ world.members, member.sent < 4294967296 ∧ member.declared < 4294967296

end World

end MessageBroker
