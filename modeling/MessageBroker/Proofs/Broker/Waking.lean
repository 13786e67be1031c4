import MessageBroker.Proofs.Broker
import MessageBroker.Proofs.Connection.Waking

/-!
# Clients that wait

A client of a broker hears of the queues in two ways only: it sends something, or it is woken
because there was a signal that it has not seen.  This is enough.  Whatever happens at a broker, a
client that has seen all signals is not kept waiting for a message that could be sent to it.
-/

namespace MessageBroker

/-! ### What happens at a broker -/

/-- What happens at a broker. -/
inductive Broker.Step where
  /-- A client sends octets; it is new if there was none with this number. -/
  | feed (number : Nat) (octets : Bytes)
  /-- A client is woken if there was a signal that it has not seen. -/
  | wake (number : Nat)
  /-- What is to be sent to a client is taken. -/
  | takeOutput (number : Nat)
  /-- A client is gone. -/
  | drop (number : Nat)
  /-- A queue is created. -/
  | create (name : String) (policy : RedeliveryPolicy)
  /-- A message is put into a queue directly. -/
  | enqueue (queue : QueueId) (payload : Bytes)
  /-- The first available message of a queue is handed out directly. -/
  | acquire (queue : QueueId)
  /-- A message that was handed out is taken out for good. -/
  | acknowledge (queue : QueueId) (entry : Nat)
  /-- A message that was handed out is given back. -/
  | release (queue : QueueId) (entry : Nat) (counted : Bool)

namespace Broker

/-- What becomes of a broker. -/
def step (broker : Broker) : Step → Broker
  | .feed number octets => broker.feed number octets
  | .wake number => broker.wake number
  | .takeOutput number => (broker.takeOutput number).2
  | .drop number => broker.drop number
  | .create name policy =>
    match broker.store.create name policy with
    | .ok store => { broker with store }
    | .error _ => broker
  | .enqueue queue payload => { broker with store := (broker.store.enqueue queue payload).2 }
  | .acquire queue => { broker with store := (broker.store.acquire queue).2 }
  | .acknowledge queue entry => { broker with store := (broker.store.acknowledge queue entry).2 }
  | .release queue entry counted =>
    { broker with store := (broker.store.release queue entry counted).2 }

/-- What becomes of a broker by steps, one after another. -/
def run (broker : Broker) (steps : List Step) : Broker :=
  steps.foldl step broker

/-- A broker comes about by steps from one without queues and clients. -/
def Reachable (broker : Broker) : Prop :=
  ∃ config steps, run ⟨config, .empty, []⟩ steps = broker

end Broker

/-- The queues of a configuration are created in steps. -/
theorem Broker.run_of_createQueues {config : BrokerConfig} {queues : List QueueConfig}
    {store store' : QueueStore} (created : createQueues store queues = .ok store') :
  run ⟨config, store, []⟩ (queues.map fun queue => .create queue.name queue.policy)
    = ⟨config, store', []⟩
  := by
  induction queues generalizing store with
  | nil =>
      cases created
      rfl
  | cons queue queues ih =>
      rw [createQueues] at created
      cases first : store.create queue.name queue.policy with
      | error error =>
          rw [first] at created
          contradiction
      | ok made =>
          rw [first] at created
          rw [List.map_cons, run, List.foldl_cons, step]
          dsimp only
          rw [first]
          exact ih created

/-- The broker that a configuration describes comes about by steps. -/
theorem Broker.reachable_of_build {config : BrokerConfig} {broker : Broker}
    (built : build config = .ok broker) :
  broker.Reachable
  := by
  rw [build] at built
  cases sound : config.validate with
  | error error =>
      rw [sound] at built
      contradiction
  | ok _ =>
      rw [sound] at built
      cases created : createQueues .empty config.queues with
      | error error =>
          rw [created] at built
          contradiction
      | ok store =>
          rw [created] at built
          cases built
          exact ⟨config, _, run_of_createQueues created⟩

/-! ### Clients that are not kept waiting -/

/-- A client has not seen signals that there were not, and if it has seen all, its links are at
rest. -/
structure Client.Waits (store : QueueStore) (client : Client) : Prop where
  /-- The client has seen some of the signals. -/
  seen : client.seen ≤ store.activity
  /-- If it has seen all of them, its links are at rest. -/
  rests : client.connection.phase = .opened → client.seen = store.activity →
    Hosting.Rests ⟨client.connection, store⟩

/-- Where messages become available only with signals, a client that has seen all signals still
waits. -/
theorem Client.Waits.of_signals {store store' : QueueStore} {client : Client}
    (waits : client.Waits store) (signals : store.Signals store') :
  client.Waits store'
  := by
  have later := signals.activity
  constructor
  · exact waits.seen.trans later
  · intro opened all
    have same : store'.activity = store.activity := by
      have := waits.seen
      omega
    apply (waits.rests opened (all.trans same)).of_waiting (signals.waiting same)

namespace Broker

variable {broker : Broker} {number : Nat}

/-- The queues of a broker are all found by their names, and no client is kept waiting. -/
structure Attentive (broker : Broker) : Prop where
  /-- The queues are all listed. -/
  listed : broker.store.Listed
  /-- No client is kept waiting. -/
  clients : ∀ number client, broker.clients.get? number = some client → client.Waits broker.store

theorem attentive_empty (config : BrokerConfig) :
  Attentive ⟨config, .empty, []⟩
  := by
  constructor
  · exact QueueStore.listed_empty
  · intro number client there
    contradiction

/-- A client that is new does not wait for anything yet. -/
theorem Attentive.client (attentive : broker.Attentive) (number : Nat) :
  (broker.client number).Waits broker.store
  := by
  rw [Broker.client]
  cases there : broker.clients.get? number with
  | some client => apply attentive.clients number client there
  | none =>
      constructor
      · apply Nat.le_refl
      · intro opened
        contradiction

/-- Something is done with the queues alone. -/
theorem Attentive.elsewhere (attentive : broker.Attentive) {store : QueueStore}
    (signals : broker.store.Signals store) :
  Attentive { broker with store }
  := by
  constructor
  · exact signals.listed
  · intro number client there
    apply (attentive.clients number client there).of_signals signals

/-- Something is done with the connection of a client, after which that client is not kept
waiting. -/
theorem attentive_onClient {α : Type} {step : Hosting → α × Hosting}
    (listed : broker.store.Listed)
    (others : ∀ other client, other ≠ number → broker.clients.get? other = some client →
      client.Waits broker.store)
    (signals : ∀ h : Hosting, h.Signals (step h).2)
    (seen : (broker.client number).seen ≤ broker.store.activity)
    (rests : let h := (step ⟨(broker.client number).connection, broker.store⟩).2
      h.connection.phase = .opened → (broker.client number).seen = h.store.activity → h.Rests) :
  (broker.onClient number step).2.Attentive
  := by
  have kept := (signals ⟨(broker.client number).connection, broker.store⟩).store listed
  constructor
  · exact kept.listed
  · intro other client there
    change (broker.clients.put number _).get? other = some client at there
    rw [Table.get?_put] at there
    split at there
    · cases there
      exact ⟨seen.trans kept.activity, rests⟩
    · next differs => apply (others other client differs there).of_signals kept

/-! ### Steps -/

theorem attentive_feed (attentive : broker.Attentive) (number : Nat) (octets : Bytes) :
  (broker.feed number octets).Attentive
  := by
  apply attentive_onClient attentive.listed
  · intro other client _ there
    apply attentive.clients other client there
  · intro h
    dsimp only
    split
    · apply Hosting.Signals.refl
    · apply Hosting.signals_feed
  · exact (attentive.client number).seen
  · dsimp only
    split
    · exact (attentive.client number).rests
    · next nonempty =>
        intro opened _
        apply Hosting.rests_feed _ opened
        rintro rfl
        contradiction

theorem attentive_wake (attentive : broker.Attentive) (number : Nat) :
  (broker.wake number).Attentive
  := by
  rw [wake]
  split
  · exact attentive
  · next client there =>
      split
      · exact attentive
      · apply attentive_onClient
        · exact attentive.listed
        · intro other client' differs there'
          dsimp only at there'
          rw [Table.get?_put, if_neg differs] at there'
          apply attentive.clients other client' there'
        · apply Hosting.signals_pump
        · rw [Broker.client]
          dsimp only
          rw [Table.get?_put_self]
          apply Nat.le_refl
        · intro h opened _
          apply Hosting.rests_pump
          dsimp only [h] at opened
          rwa [Hosting.phase_pump] at opened

theorem attentive_takeOutput (attentive : broker.Attentive) (number : Nat) :
  (broker.takeOutput number).2.Attentive
  := by
  apply attentive_onClient attentive.listed
  · intro other client _ there
    apply attentive.clients other client there
  · intro h
    exact .of_store rfl
  · exact (attentive.client number).seen
  · intro h opened seen
    exact ((attentive.client number).rests opened seen).collect

theorem attentive_drop (attentive : broker.Attentive) (number : Nat) :
  (broker.drop number).Attentive
  := by
  rw [drop]
  split
  · have gone : (broker.shutdown number).Attentive := by
      apply attentive_onClient attentive.listed
      · intro other client _ there
        apply attentive.clients other client there
      · apply Hosting.signals_shutdown
      · exact (attentive.client number).seen
      · intro h opened
        contradiction
    constructor
    · exact gone.listed
    · intro other client there
      dsimp only at there
      rw [Table.get?_erase] at there
      split at there
      · contradiction
      · apply gone.clients other client there
  · exact attentive

theorem attentive_step (attentive : broker.Attentive) (step : Step) :
  (broker.step step).Attentive
  := by
  have listed := attentive.listed
  cases step with
  | feed number octets => apply attentive_feed attentive
  | wake number => apply attentive_wake attentive
  | takeOutput number => apply attentive_takeOutput attentive
  | drop number => apply attentive_drop attentive
  | create name policy =>
      rw [Broker.step]
      split
      · next store hcreate => apply attentive.elsewhere (QueueStore.signals_create listed hcreate)
      · exact attentive
  | enqueue queue payload => exact attentive.elsewhere (QueueStore.signals_enqueue listed _ _)
  | acquire queue =>
      exact attentive.elsewhere ((QueueStore.dwindles_acquire _ queue).signals listed)
  | acknowledge queue entry =>
      exact attentive.elsewhere ((QueueStore.dwindles_acknowledge _ queue entry).signals listed)
  | release queue entry counted =>
      exact attentive.elsewhere (QueueStore.signals_release listed _ _ _)

theorem Reachable.attentive (reachable : broker.Reachable) :
  broker.Attentive
  := by
  have hrun (steps : List Step) {broker : Broker} (attentive : broker.Attentive) :
      (broker.run steps).Attentive := by
    induction steps generalizing broker with
    | nil => exact attentive
    | cons step steps ih => apply ih (attentive_step attentive step)
  obtain ⟨config, steps, rfl⟩ := reachable
  apply hrun
  apply attentive_empty

/-- No wake-up is lost.  At every broker, a client that has seen all signals is not kept waiting: if
a link on which messages go out to it has credit, and the window of its session is open, no message
waits that could be sent on it. -/
theorem idle_of_seen (reachable : broker.Reachable) {client : Client}
    (there : broker.clients.get? number = some client)
    (opened : client.connection.phase = .opened) (seen : client.seen = broker.store.activity)
    {channel : UInt16} {slot : SessionChannel}
    (hslot : client.connection.channels.get? channel = some slot) {handle : UInt32}
    {endpoint : Endpoint} (hendpoint : slot.session.endpoints.get? handle = some endpoint)
    (attached : endpoint.link.isAttached = true) (sending : endpoint.kind.isSending = true) :
  endpoint.link.credit.credit = 0 ∨ slot.session.remoteIncomingWindow = 0
    ∨ endpoint.Idle broker.store
  := by
  have waits := reachable.attentive.clients number client there
  exact waits.rests opened seen channel slot hslot handle endpoint hendpoint attached sending

/-- A client reads from a queue.  A message that is put into the queue is sent when it is woken, and
as there is still credit and the window is still open, nothing waits any more. -/
theorem idle_of_seen_of_woken :
  let source : Source :=
    { address := some "q", durable := none, expiryPolicy := none, timeout := none
      dynamic := false, distributionMode := none, filter := .null, defaultOutcome := none
      outcomes := none, capabilities := none }
  let broker := run ⟨.standard, .empty, []⟩
    [.create "q" ⟨0, none⟩,
      .feed 0 (protocolHeader
        ++ Frame.wire 0 (Performative.openConnection ⟨"peer", none, none, none, none⟩).encode
        ++ Frame.wire 0 (Performative.beginSession ⟨none, 0, 8, 8, none⟩).encode
        ++ Frame.wire 0 (Performative.attach ⟨"in", 0, .receiver, .mixed, .first, some source,
            none, none, none⟩).encode
        ++ Frame.wire 0 (Performative.flow ⟨some 0, 8, 0, 8, some 0, some 0, some 3, none, false,
            false⟩).encode),
      .enqueue 0 [0, 83, 119, 64], .wake 0]
  ∃ client slot endpoint, broker.clients.get? 0 = some client
    ∧ client.connection.channels.get? 0 = some slot
    ∧ slot.session.endpoints.get? 0 = some endpoint
    ∧ endpoint.link.credit.credit = 2 ∧ slot.session.remoteIncomingWindow = 7
    ∧ endpoint.Idle broker.store
  := by
  intro source broker
  have reachable : broker.Reachable := ⟨.standard, _, rfl⟩
  have heard : (broker.clients.get? 0).map (fun client => (client.connection.phase, client.seen))
      = some (.opened, broker.store.activity) := by
    decide +kernel
  have linked : ((broker.clients.get? 0).bind fun client =>
      (client.connection.channels.get? 0).map fun slot =>
        (slot.session.remoteIncomingWindow, (slot.session.endpoints.get? 0).map fun endpoint =>
          (endpoint.link.isAttached, endpoint.kind.isSending, endpoint.link.credit.credit)))
      = some (7, some (true, true, 2)) := by
    decide +kernel
  obtain ⟨client, there, heard⟩ := Option.map_eq_some_iff.mp heard
  obtain ⟨opened, seen⟩ := Prod.mk.inj heard
  rw [there, Option.bind_some] at linked
  obtain ⟨slot, hslot, linked⟩ := Option.map_eq_some_iff.mp linked
  obtain ⟨window, linked⟩ := Prod.mk.inj linked
  obtain ⟨endpoint, hendpoint, linked⟩ := Option.map_eq_some_iff.mp linked
  obtain ⟨attached, linked⟩ := Prod.mk.inj linked
  obtain ⟨sending, credit⟩ := Prod.mk.inj linked
  refine ⟨client, slot, endpoint, there, hslot, hendpoint, credit, window, ?_⟩
  have rests := idle_of_seen reachable there opened seen hslot hendpoint attached sending
  rw [credit, window] at rests
  exact (rests.resolve_left (by decide)).resolve_left (by decide)

end Broker

end MessageBroker
