import MessageBroker.Proofs.Lists
import MessageBroker.Proofs.Queue.Consumer
import MessageBroker.Proofs.Session.Handling
import MessageBroker.Proofs.World.Basic

/-!
# Every held message has one holder

In every world that comes about by actions, in whatever order, the held messages are those that
the sessions and the consumers hold, each held once, and those that a session lost sight of when it
had used up the numbers of deliveries or transactions.  So what is done with one of them leaves
alone the messages that the others hold, everything that a transaction is to take out is there to
be taken, and once all have gone no message is held.
-/

namespace MessageBroker

/-- One of those that hold messages. -/
inductive Holder where
  /-- A session. -/
  | session (index : Nat)
  /-- A consumer. -/
  | consumer (index : Nat)
  deriving DecidableEq

/-- The one that an action is done with. -/
def World.Action.holder? : World.Action → Option Holder
  | .serve index _ => some (.session index)
  | .consume index _ => some (.consumer index)
  | .close index => some (.consumer index)
  | _ => none

/-- The accounts of a session are sound, and it knows its deliveries and transactions by numbers
and names that were given out, as long as they last. -/
structure Member.Accounted (member : Member) : Prop where
  /-- The accounts are sound. -/
  sound : member.session.Sound
  /-- The numbers of deliveries were given out. -/
  sends : member.sent < 4294967296 → member.session.Sends member.sent
  /-- The names of transactions were given out. -/
  numbered : member.declared < 4294967296 →
    member.session.transactions.Numbered member.declared

namespace World

/-- The places of the messages that sessions hold. -/
def placesOfSessions (members : List Member) : Multiset Place :=
  (members.map (·.session.places)).sum

/-- The places of the messages that consumers hold. -/
def placesOfConsumers (consumers : List Consumer) : Multiset Place :=
  (consumers.map (·.places)).sum

/-- The places of the messages that are held in a world. -/
def places (world : World) : Multiset Place :=
  placesOfSessions world.members + placesOfConsumers world.consumers

/-- The places of the messages that one holder holds. -/
def placesOf (world : World) : Holder → Multiset Place
  | .session index => (world.members[index]?.map (·.session.places)).getD 0
  | .consumer index => (world.consumers[index]?.map (·.places)).getD 0

/-- The held messages are those that the sessions and the consumers hold and some that are held
outside the world, and the accounts of the sessions are in order. -/
structure Orderly (outside : Multiset Place) (world : World) : Prop where
  /-- The held messages are those that are listed. -/
  inCustody : world.store.InCustody (world.places + outside)
  /-- The accounts of every session are in order. -/
  accounted : ∀ member ∈ world.members, member.Accounted

theorem Orderly.empty :
  Orderly 0 World.empty
  := by
  constructor
  · refine ⟨.empty, fun place => ?_⟩
    simp [World.empty, places, placesOfSessions, placesOfConsumers, QueueStore.isHeld,
      QueueStore.slot?, QueueStore.get?, QueueStore.empty]
  · intro member hmem
    contradiction

/-- What one holder holds is held in the world. -/
theorem mem_places {world : World} {holder : Holder} {place : Place}
    (h : place ∈ world.placesOf holder) :
  place ∈ world.places
  := by
  cases holder with
  | session index =>
      rw [placesOf] at h
      cases hget : world.members[index]? with
      | none => simp [hget] at h
      | some member =>
          rw [hget] at h
          rw [places, placesOfSessions, sum_eq_of_getElem? _ hget]
          exact Multiset.mem_add.mpr (.inl (Multiset.mem_add.mpr (.inl h)))
  | consumer index =>
      rw [placesOf] at h
      cases hget : world.consumers[index]? with
      | none => simp [hget] at h
      | some consumer =>
          rw [hget] at h
          rw [places, placesOfConsumers, sum_eq_of_getElem? _ hget]
          exact Multiset.mem_add.mpr (.inr (Multiset.mem_add.mpr (.inl h)))

/-- One world comes from another by moves on behalf of one holder, if any, who may lose sight of
some of what it holds. -/
def Shifts (lost : Multiset Place) (holder : Option Holder) (world world' : World) : Prop :=
  ∃ own own' others, world.places = own + others ∧ world'.places = own' + others
    ∧ Custody.Moves ⟨own, world.store⟩ ⟨own' + lost, world'.store⟩
    ∧ ∀ other, holder ≠ some other → ∀ place ∈ world.placesOf other, place ∈ others

namespace Shifts

theorem refl (holder : Option Holder) (world : World) :
  Shifts 0 holder world world
  := ⟨0, 0, world.places, (zero_add _).symm, (zero_add _).symm, .refl,
    fun _ _ _ hplace => mem_places hplace⟩

/-- An action that is done with no holder changes the queues alone. -/
theorem of_store {world world' : World} {holder : Option Holder}
    (places : world'.places = world.places)
    (moves : Custody.Moves ⟨0, world.store⟩ ⟨0, world'.store⟩) :
  Shifts 0 holder world world'
  := by
  refine ⟨0, 0, world.places, (zero_add _).symm, ?_, moves, fun _ _ _ hplace => mem_places hplace⟩
  rw [zero_add, places]

/-- What is done with a session is done on behalf of what it holds. -/
theorem of_session {world : World} {index : Nat} {member member' : Member}
    (h : world.members[index]? = some member) {store : QueueStore} {lost : Multiset Place}
    (moves : Custody.Moves ⟨member.session.places, world.store⟩
      ⟨member'.session.places + lost, store⟩) :
  Shifts lost (some (.session index)) world
    { world with store, members := world.members.set index member' }
  := by
  obtain ⟨hlt, -⟩ := List.getElem?_eq_some_iff.mp h
  refine ⟨member.session.places, member'.session.places,
    placesOfSessions (world.members.eraseIdx index) + placesOfConsumers world.consumers,
    ?_, ?_, moves, ?_⟩
  · rw [World.places, placesOfSessions, sum_eq_of_getElem? _ h, add_assoc]
    rfl
  · rw [World.places, placesOfSessions, sum_set _ hlt, add_assoc]
    rfl
  · intro other hother place hplace
    cases other with
    | session j =>
        have hne : j ≠ index := by
          rintro rfl
          exact hother rfl
        rw [placesOf] at hplace
        cases hget : world.members[j]? with
        | none => simp [hget] at hplace
        | some another =>
            rw [hget] at hplace
            exact Multiset.mem_add.mpr (.inl (mem_sum_eraseIdx _ hne hget hplace))
    | consumer j =>
        rw [placesOf] at hplace
        cases hget : world.consumers[j]? with
        | none => simp [hget] at hplace
        | some consumer =>
            rw [hget] at hplace
            rw [placesOfConsumers, sum_eq_of_getElem? _ hget]
            exact Multiset.mem_add.mpr (.inr (Multiset.mem_add.mpr (.inl hplace)))

/-- What is done with a consumer is done on behalf of what it holds. -/
theorem of_consumer {world : World} {index : Nat} {consumer : Consumer}
    (h : world.consumers[index]? = some consumer) {store : QueueStore}
    {consumers : List Consumer} {own' : Multiset Place}
    (places : placesOfConsumers consumers
      = own' + placesOfConsumers (world.consumers.eraseIdx index))
    (moves : Custody.Moves ⟨consumer.places, world.store⟩ ⟨own', store⟩) :
  Shifts 0 (some (.consumer index)) world { world with store, consumers }
  := by
  refine ⟨consumer.places, own',
    placesOfSessions world.members + placesOfConsumers (world.consumers.eraseIdx index),
    ?_, ?_, (by rwa [add_zero]), ?_⟩
  · rw [World.places, placesOfConsumers, sum_eq_of_getElem? _ h, add_left_comm]
    rfl
  · rw [World.places, places, add_left_comm]
  · intro other hother place hplace
    cases other with
    | session j =>
        rw [placesOf] at hplace
        cases hget : world.members[j]? with
        | none => simp [hget] at hplace
        | some member =>
            rw [hget] at hplace
            rw [placesOfSessions, sum_eq_of_getElem? _ hget]
            exact Multiset.mem_add.mpr (.inl (Multiset.mem_add.mpr (.inl hplace)))
    | consumer j =>
        have hne : j ≠ index := by
          rintro rfl
          exact hother rfl
        rw [placesOf] at hplace
        cases hget : world.consumers[j]? with
        | none => simp [hget] at hplace
        | some another =>
            rw [hget] at hplace
            exact Multiset.mem_add.mpr (.inr (mem_sum_eraseIdx _ hne hget hplace))

section Custody

variable {world world' : World} {lost outside : Multiset Place} {holder : Option Holder}

/-- The held messages stay those that are listed, with what is lost held outside the world. -/
theorem inCustody (shifts : Shifts lost holder world world')
    (h : world.store.InCustody (world.places + outside)) :
  world'.store.InCustody (world'.places + (outside + lost))
  := by
  obtain ⟨own, own', others, hplaces, hplaces', moves, -⟩ := shifts
  rw [hplaces, add_assoc] at h
  have hlater := (moves.beside (others + outside)).inCustody h
  have hheld : own' + others + (outside + lost) = own' + lost + (others + outside) := by
    simp only [add_left_comm, add_comm]
  rw [hplaces', hheld]
  exact hlater

/-- The messages that others hold are left alone. -/
theorem slot?_of_other (shifts : Shifts lost holder world world')
    (h : world.store.InCustody (world.places + outside)) {other : Holder}
    (hother : holder ≠ some other) {place : Place} (hplace : place ∈ world.placesOf other) :
  world'.store.slot? place = world.store.slot? place
  := by
  obtain ⟨own, own', others, hplaces, -, moves, hothers⟩ := shifts
  rw [hplaces, add_assoc] at h
  exact moves.slot?_of_others h
    (Multiset.mem_add.mpr (.inl (hothers other hother place hplace)))

/-- The messages that are held outside the world are left alone. -/
theorem slot?_of_outside (shifts : Shifts lost holder world world')
    (h : world.store.InCustody (world.places + outside)) {place : Place}
    (hplace : place ∈ outside) :
  world'.store.slot? place = world.store.slot? place
  := by
  obtain ⟨own, own', others, hplaces, -, moves, -⟩ := shifts
  rw [hplaces, add_assoc] at h
  exact moves.slot?_of_others h (Multiset.mem_add.mpr (.inr hplace))

end Custody

end Shifts

end World

/-! ### Steps of sessions -/

/-- A session goes on to another state by moves on behalf of what it holds, and loses sight of
none of it as long as the numbers and names last. -/
structure Member.Advances (member : Member) (store : QueueStore) (member' : Member)
    (store' : QueueStore) : Prop where
  /-- Deliveries that were sent stay so. -/
  sent : member.sent ≤ member'.sent
  /-- Transactions that were declared stay so. -/
  declared : member.declared ≤ member'.declared
  /-- The accounts stay in order. -/
  accounted : member.Accounted → member'.Accounted
  /-- The names of transactions that have ended are not given out again. -/
  retires : member.Accounted → member'.declared < 4294967296 →
    member.session.transactions.Retires member.declared member'.session.transactions
  /-- What is done to the queues is done on behalf of the session. -/
  moves : member.Accounted → ∃ lost,
    Custody.Moves ⟨member.session.places, store⟩ ⟨member'.session.places + lost, store'⟩
      ∧ (member'.sent < 4294967296 → member'.declared < 4294967296 → lost = 0)

namespace Member

/-- A session has sent what it had sent and what it has begun since. -/
theorem sent_proceed (member : Member) {session : Session} {count : Nat}
    (h : session.begun = member.session.begun + count) :
  (member.proceed [] session).sent = member.sent + count
  := by
  rw [Session.begun, Session.begun] at h
  rw [Member.sent, Member.sent, proceed, List.append_nil, List.countP_append,
    List.countP_append, h, Nat.add_assoc]

theorem advances_of_steps (member : Member) {store : QueueStore} {s' : Serving}
    (h : Serving.Steps ⟨member.session, store⟩ s') :
  member.Advances store (member.proceed [] s'.session) s'.store
  := by
  obtain ⟨declared, hle, sent, leads⟩ := h
  have hlast := leads.lastId
  have hsent : (member.proceed [] s'.session).sent = member.sent + sent :=
    member.sent_proceed leads.begun
  have hdeclared : (member.proceed [] s'.session).declared = member.declared + declared := by
    rw [proceed]
    dsimp only at hlast ⊢
    rw [hlast]
    obtain rfl | rfl : declared = 0 ∨ declared = 1 := by omega
    · have hsame : member.session.transactions.lastId + UInt32.ofNat 0
          = member.session.transactions.lastId := UInt32.add_zero _
      rw [if_pos hsame]
    · rw [if_neg]
      intro heq
      have hnat := congrArg UInt32.toNat heq
      rw [UInt32.toNat_add, UInt32.toNat_ofNat'] at hnat
      have hlt := member.session.transactions.lastId.toNat_lt
      omega
  constructor
  · omega
  · omega
  · intro accounted
    refine ⟨leads.sound accounted.sound, fun hbound => ?_, fun hbound => ?_⟩
    · rw [hsent] at hbound ⊢
      exact leads.sends accounted.sound _ (accounted.sends (by omega)) hbound
    · rw [hdeclared] at hbound ⊢
      exact (leads.numbered accounted.sound _ (accounted.numbered (by omega)) hbound).1
  · intro accounted hbound
    rw [hdeclared] at hbound
    exact (leads.numbered accounted.sound _ (accounted.numbered (by omega)) hbound).2
  · intro accounted
    obtain ⟨lost, moves, hlost⟩ := leads.moves accounted.sound
    refine ⟨lost, moves, fun hsentBound hdeclaredBound => ?_⟩
    rw [hsent] at hsentBound
    rw [hdeclared] at hdeclaredBound
    exact hlost _ _ (accounted.sends (by omega)) (accounted.numbered (by omega)) hsentBound
      hdeclaredBound

/-- Taking what is to be sent changes neither what a session has sent nor what it holds. -/
theorem advances_takeOutput (member : Member) (store : QueueStore) :
  member.Advances store
    (member.proceed member.session.takeOutput.1 member.session.takeOutput.2) store
  := by
  have hflush := member.session.quiet_flush
  have hsent : (member.proceed member.session.takeOutput.1 member.session.takeOutput.2).sent
      = member.sent := by
    have hbegun := hflush.begun
    rw [Session.begun, Session.begun] at hbegun
    rw [Member.sent, Member.sent, proceed, Session.takeOutput]
    dsimp only
    rw [List.append_nil, List.countP_append, List.countP_append, hbegun]
    rfl
  have hdeclared : (member.proceed member.session.takeOutput.1
      member.session.takeOutput.2).declared = member.declared := by
    rw [proceed, if_pos]
    · rfl
    · rfl
  constructor
  · omega
  · omega
  · intro accounted
    refine ⟨⟨accounted.sound.sorted, accounted.sound.distinct⟩, fun hbound => ?_, ?_⟩
    · rw [hsent] at hbound ⊢
      have hsends := hflush.sends (accounted.sends hbound)
      exact ⟨hsends.nextDeliveryId, hsends.given⟩
    · rw [hdeclared]
      exact accounted.numbered
  · exact fun _ _ => .refl _ _
  · intro _
    refine ⟨0, ?_, fun _ _ => rfl⟩
    rw [add_zero]
    exact .refl

/-- Whatever is done with a session, it advances. -/
theorem advances_run (member : Member) (store : QueueStore) (act : Session.Act) :
  member.Advances store (member.run store act).1 (member.run store act).2
  := by
  cases act with
  | handle p payload => exact member.advances_of_steps (Operation.steps_handle p payload _)
  | pumpAll => exact member.advances_of_steps (.of_carries (Serving.carries_pumpAll _))
  | recover => exact member.advances_of_steps (.of_carries (Serving.carries_recover _))
  | finish => exact member.advances_of_steps (.of_carries (Serving.carries_finish _))
  | takeOutput => exact member.advances_takeOutput store

end Member

namespace Consumer

/-- Whatever is done with a consumer is done on behalf of what it holds. -/
theorem moves_run (consumer : Consumer) (store : QueueStore) (act : Consumer.Act) :
  (consumer.custody store).Moves ((act.run consumer store).1.custody (act.run consumer store).2)
  := by
  cases act with
  | receive => exact consumer.moves_receive store
  | acknowledge entry => exact consumer.moves_acknowledge store entry
  | acknowledgeAll => exact consumer.moves_acknowledgeAll store
  | recover => exact consumer.moves_recover store

end Consumer

/-! ### Steps of worlds -/

namespace World

variable {outside : Multiset Place} {world : World}

theorem serve_of_getElem? {index : Nat} {member : Member}
    (h : world.members[index]? = some member) (act : Session.Act) :
  world.serve index act
    = { world with
        store := (member.run world.store act).2
        members := world.members.set index (member.run world.store act).1 }
  := by
  rw [serve, h]

theorem serve_of_none {index : Nat} (h : world.members[index]? = none) (act : Session.Act) :
  world.serve index act = world
  := by
  rw [serve, h]

/-- What is done with a session is done with the one at its index. -/
theorem member_serve {index : Nat} {member : Member} (h : world.members[index]? = some member)
    (act : Session.Act) :
  (world.step (.serve index act)).members[index]? = some (member.run world.store act).1
  := by
  obtain ⟨hlt, -⟩ := List.getElem?_eq_some_iff.mp h
  rw [step, serve_of_getElem? h]
  exact List.getElem?_set_self hlt

theorem store_serve {index : Nat} {member : Member} (h : world.members[index]? = some member)
    (act : Session.Act) :
  (world.step (.serve index act)).store = (member.run world.store act).2
  := by
  rw [step, serve_of_getElem? h]

/-- A session that has handled a performative, and the queues then. -/
theorem step_of_handled {index : Nat} {member : Member} (h : world.members[index]? = some member)
    {p : Performative} {payload : Bytes} {s' : Serving}
    (handled : Operation.handle p payload ⟨member.session, world.store⟩ = .ok () s') :
  (world.step (.serve index (.handle p payload))).members[index]?
      = some (member.proceed [] s'.session)
    ∧ (world.step (.serve index (.handle p payload))).store = s'.store
  := by
  have hafter := Operation.after_of_ok handled
  have hrun : member.run world.store (.handle p payload)
      = (member.proceed [] s'.session, s'.store) := by
    rw [← hafter]
    rfl
  constructor
  · rw [member_serve h, hrun]
  · rw [store_serve h, hrun]

/-- The members of a world after an action: one of them was run, or one began, or all are as they
were. -/
theorem members_step (world : World) (action : Action) :
  (∃ index act member, action = .serve index act ∧ world.members[index]? = some member
      ∧ (world.step action).members = world.members.set index (member.run world.store act).1)
    ∨ (∃ terms limits, (world.step action).members
        = world.members ++ [⟨.ofBegin terms limits, [], 0⟩])
    ∨ (world.step action).members = world.members
  := by
  cases action with
  | serve index act =>
      cases h : world.members[index]? with
      | none => exact .inr (.inr (by rw [step, serve_of_none h]))
      | some member =>
          refine .inl ⟨index, act, member, rfl, h, ?_⟩
          rw [step, serve_of_getElem? h]
  | begin terms limits => exact .inr (.inl ⟨terms, limits, rfl⟩)
  | consume index act =>
      refine .inr (.inr ?_)
      rw [step, consume]
      split <;> rfl
  | close index =>
      refine .inr (.inr ?_)
      rw [step, close]
      split <;> rfl
  | _ => exact .inr (.inr rfl)

/-- A session that was not there before an action has just begun. -/
theorem begun_of_step {index : Nat} {action : Action} (unborn : world.members[index]? = none)
    {member : Member} (hget : (world.step action).members[index]? = some member) :
  ∃ terms limits, member = ⟨.ofBegin terms limits, [], 0⟩
  := by
  rcases world.members_step action with
    ⟨other, act, served, -, -, hmembers⟩ | ⟨terms, limits, hmembers⟩ | hmembers
  · rw [hmembers] at hget
    have there := (List.getElem?_eq_some_iff.mp hget).1
    rw [List.length_set] at there
    rw [List.getElem?_eq_none_iff] at unborn
    omega
  · rw [hmembers, List.getElem?_append_right (List.getElem?_eq_none_iff.mp unborn)] at hget
    exact ⟨terms, limits, List.mem_singleton.mp (List.mem_of_getElem? hget)⟩
  · rw [hmembers, unborn] at hget
    contradiction

theorem forall_members_step {P : Member → Prop}
    (begins : ∀ terms limits, P ⟨.ofBegin terms limits, [], 0⟩)
    (runs : ∀ member act, P member → P (member.run world.store act).1)
    (h : ∀ member ∈ world.members, P member) (action : Action) :
  ∀ member ∈ (world.step action).members, P member
  := by
  intro member hmem
  rcases world.members_step action with
    ⟨index, act, served, -, hget, hmembers⟩ | ⟨terms, limits, hmembers⟩ | hmembers
  · rw [hmembers] at hmem
    rcases List.mem_or_eq_of_mem_set hmem with hbefore | rfl
    · exact h member hbefore
    · exact runs served act (h served (List.mem_of_getElem? hget))
  · rw [hmembers] at hmem
    rcases List.mem_append.mp hmem with hbefore | hnew
    · exact h member hbefore
    · rw [List.mem_singleton.mp hnew]
      exact begins terms limits
  · rw [hmembers] at hmem
    exact h member hmem

/-- What holds of a session that begins, and as long as it is served, holds of every session of a
world that comes about. -/
theorem Reachable.forall_members (reachable : world.Reachable) {P : Member → Prop}
    (begins : ∀ terms limits, P ⟨.ofBegin terms limits, [], 0⟩)
    (runs : ∀ member store act, P member → P (member.run store act).1) :
  ∀ member ∈ world.members, P member
  := by
  have hrun (actions : List Action) {world : World} (h : ∀ member ∈ world.members, P member) :
      ∀ member ∈ (world.run actions).members, P member := by
    induction actions generalizing world with
    | nil => exact h
    | cons action actions ih => exact ih (forall_members_step begins (fun member act => runs member _ act) h action)
  obtain ⟨actions, rfl⟩ := reachable
  apply hrun actions
  intro member hmem
  contradiction

/-- The numbers last before an action if they last after it. -/
theorem Bounded.of_step {action : Action} (bounded : (world.step action).Bounded) :
  world.Bounded
  := by
  intro member hmem
  rcases world.members_step action with
    ⟨index, act, served, -, hget, hmembers⟩ | ⟨terms, limits, hmembers⟩ | hmembers
  · rw [Bounded, hmembers] at bounded
    obtain ⟨hlt, -⟩ := List.getElem?_eq_some_iff.mp hget
    obtain ⟨other, hother⟩ := List.getElem?_of_mem hmem
    by_cases heq : other = index
    · rw [heq, hget] at hother
      obtain rfl := Option.some.inj hother
      have advances := served.advances_run world.store act
      obtain ⟨hsent, hdeclared⟩ := bounded _ (List.mem_set hlt _)
      exact ⟨Nat.lt_of_le_of_lt advances.sent hsent,
        Nat.lt_of_le_of_lt advances.declared hdeclared⟩
    · apply bounded
      apply List.mem_of_getElem? (i := other)
      rw [List.getElem?_set_ne (Ne.symm heq), hother]
  · apply bounded
    rw [hmembers]
    exact List.mem_append_left _ hmem
  · apply bounded
    rw [hmembers]
    exact hmem

/-- An action is done on behalf of what its holder holds, and the holder loses sight of none of it
as long as the numbers last. -/
theorem Orderly.shifts_step (orderly : Orderly outside world) (action : Action) :
  ∃ lost, Shifts lost action.holder? world (world.step action)
    ∧ ((world.step action).Bounded → lost = 0)
  := by
  cases action with
  | addQueue name policy listed =>
      exact ⟨0, .of_store rfl (.single (.add 0 world.store name policy listed)), fun _ => rfl⟩
  | enqueue queue payload =>
      exact ⟨0, .of_store rfl (.single (.enqueue 0 world.store queue payload)), fun _ => rfl⟩
  | begin terms limits =>
      refine ⟨0, .of_store ?_ .refl, fun _ => rfl⟩
      rw [step, places, placesOfSessions, List.map_append, List.sum_append]
      change (_ + (0 + 0)) + _ = _
      rw [add_zero, add_zero]
      rfl
  | serve index act =>
      cases h : world.members[index]? with
      | none =>
          rw [step, serve_of_none h]
          exact ⟨0, .refl _ world, fun _ => rfl⟩
      | some member =>
          rw [step, serve_of_getElem? h]
          obtain ⟨hlt, -⟩ := List.getElem?_eq_some_iff.mp h
          have advances := member.advances_run world.store act
          obtain ⟨lost, moves, hlost⟩ :=
            advances.moves (orderly.accounted member (List.mem_of_getElem? h))
          refine ⟨lost, .of_session h moves, fun bounded => ?_⟩
          obtain ⟨hsent, hdeclared⟩ := bounded _ (List.mem_set hlt _)
          exact hlost hsent hdeclared
  | subscribe queue =>
      refine ⟨0, .of_store ?_ .refl, fun _ => rfl⟩
      rw [step, places, placesOfConsumers, List.map_append, List.sum_append]
      change _ + (_ + (0 + 0)) = _
      rw [add_zero, add_zero]
      rfl
  | consume index act =>
      rw [step, consume]
      split
      · next consumer h =>
          obtain ⟨hlt, -⟩ := List.getElem?_eq_some_iff.mp h
          exact ⟨0, .of_consumer h (sum_set _ hlt _) (consumer.moves_run world.store act),
            fun _ => rfl⟩
      · exact ⟨0, .refl _ world, fun _ => rfl⟩
  | close index =>
      rw [step, close]
      split
      · next consumer h =>
          exact ⟨0, .of_consumer h (zero_add _).symm (consumer.moves_close world.store),
            fun _ => rfl⟩
      · exact ⟨0, .refl _ world, fun _ => rfl⟩

/-- The accounts of the sessions stay in order. -/
theorem accounted_step (accounted : ∀ member ∈ world.members, member.Accounted)
    (action : Action) :
  ∀ member ∈ (world.step action).members, member.Accounted
  := by
  apply forall_members_step _ _ accounted
  · exact fun terms limits =>
      ⟨.ofBegin terms limits, fun _ => .ofBegin terms limits, fun _ => .empty⟩
  · exact fun member act accounted => (member.advances_run world.store act).accounted accounted

/-- What is orderly stays so, with nothing lost as long as the numbers last. -/
theorem Orderly.step (orderly : Orderly outside world) (action : Action) :
  ∃ lost, Orderly (outside + lost) (world.step action)
    ∧ ((world.step action).Bounded → lost = 0)
  := by
  obtain ⟨lost, shifts, hlost⟩ := orderly.shifts_step action
  exact ⟨lost, ⟨shifts.inCustody orderly.inCustody, accounted_step orderly.accounted action⟩,
    hlost⟩

theorem Bounded.of_run {actions : List Action} (bounded : (world.run actions).Bounded) :
  world.Bounded
  := by
  induction actions generalizing world with
  | nil => exact bounded
  | cons action actions ih => exact (ih bounded).of_step

theorem Orderly.run (orderly : Orderly outside world) (actions : List Action) :
  ∃ lost, Orderly (outside + lost) (world.run actions)
    ∧ ((world.run actions).Bounded → lost = 0)
  := by
  induction actions generalizing world outside with
  | nil =>
      refine ⟨0, ?_, fun _ => rfl⟩
      rw [add_zero]
      exact orderly
  | cons action actions ih =>
      obtain ⟨lost, hstep, hlost⟩ := orderly.step action
      obtain ⟨later, hrun, hlater⟩ := ih hstep
      refine ⟨lost + later, ?_, fun bounded => ?_⟩
      · rw [← add_assoc]
        exact hrun
      · rw [hlost (Bounded.of_run bounded), hlater bounded, add_zero]

/-- Actions leave alone the messages that are held outside the world. -/
theorem Orderly.slot?_run (orderly : Orderly outside world) (actions : List Action)
    {place : Place} (hplace : place ∈ outside) :
  (world.run actions).store.slot? place = world.store.slot? place
  := by
  induction actions generalizing world outside with
  | nil => rfl
  | cons action actions ih =>
      obtain ⟨lost, shifts, -⟩ := orderly.shifts_step action
      obtain ⟨lost', hstep, -⟩ := orderly.step action
      rw [run_cons, ih hstep (Multiset.mem_add.mpr (.inl hplace))]
      exact shifts.slot?_of_outside orderly.inCustody hplace

/-! ### What follows from custody -/

/-- What a session holds is held in the world. -/
theorem places_le {member : Member} (h : member ∈ world.members) :
  member.session.places ≤ world.places
  := by
  obtain ⟨index, hget⟩ := List.getElem?_of_mem h
  rw [places, placesOfSessions, sum_eq_of_getElem? _ hget, add_assoc]
  exact Multiset.le_add_right _ _

/-- When a transaction succeeds, every message that it is to take out is there to be taken. -/
theorem Orderly.acknowledge_perform (orderly : Orderly outside world) {member : Member}
    (hmember : member ∈ world.members) {transaction : Transaction}
    (htransaction : transaction ∈ member.session.transactions.opened) {before after : List Work}
    {queue : QueueId} {entry : Nat}
    (hwork : transaction.work = before ++ .dequeue queue entry :: after) :
  ((Ledger.settle false before world.store).acknowledge queue entry).1 = true
  := by
  have hledger := (orderly.accounted member hmember).sound.distinct
  have hle : transaction.places ≤ world.places := by
    apply le_trans _ (places_le hmember)
    rw [Session.places, hledger.places_eq (hledger.find?_of_mem htransaction), add_left_comm]
    exact Multiset.le_add_right _ _
  obtain ⟨others, hothers⟩ := Multiset.le_iff_exists_add.mp hle
  have hrest : world.places + outside = ↑(before.filterMap Work.place?)
      + (queue, entry) ::ₘ (↑(after.filterMap Work.place?) + (others + outside)) := by
    rw [hothers, Transaction.places, hwork, List.filterMap_append, ← Multiset.coe_add, add_assoc,
      add_assoc, ← Multiset.cons_add]
    rfl
  have hcustody := orderly.inCustody
  rw [hrest] at hcustody
  have hafter := (Ledger.moves_settle false before _ world.store).inCustody hcustody
  obtain ⟨held, hslot⟩ := QueueStore.isHeld_iff.mp
    (hafter.isHeld_of_mem (Multiset.mem_cons_self (queue, entry) _))
  exact (QueueStore.acknowledge_of_held hafter.sound hslot).1

/-- No message is held when all sessions have ended and all consumers have gone. -/
theorem Orderly.isHeld_of_ended (orderly : Orderly 0 world)
    (ended : ∀ member ∈ world.members, ∃ s : Serving, member.session = s.finish.session)
    (gone : world.consumers = []) (place : Place) :
  world.store.isHeld place = false
  := by
  have hzero : world.places = 0 := by
    have hsessions : placesOfSessions world.members = 0 := by
      apply List.sum_eq_zero
      intro held hmem
      obtain ⟨member, hmember, rfl⟩ := List.mem_map.mp hmem
      obtain ⟨s, hs⟩ := ended member hmember
      rw [hs, s.places_finish]
    rw [places, hsessions, gone]
    rfl
  have hcount := orderly.inCustody.count place
  rw [hzero, add_zero, Multiset.count_zero] at hcount
  by_contra hheld
  rw [if_pos (by simpa using hheld)] at hcount
  contradiction

theorem Reachable.orderly (reachable : world.Reachable) :
  ∃ lost, Orderly lost world ∧ (world.Bounded → lost = 0)
  := by
  obtain ⟨actions, rfl⟩ := reachable
  obtain ⟨lost, orderly, hlost⟩ := Orderly.empty.run actions
  rw [zero_add] at orderly
  exact ⟨lost, orderly, hlost⟩

/-- Every held message has exactly one holder, and every holder's message is held.  What is done
with one holder leaves the messages of the others as they are; when a transaction succeeds, every
message that it is to take out is taken; and when all sessions have ended and all consumers have
gone, no message is held. -/
theorem unique_custody (reachable : world.Reachable) (bounded : world.Bounded) :
  (∀ place, world.places.count place = if world.store.isHeld place then 1 else 0)
    ∧ (∀ action holder, action.holder? ≠ some holder → ∀ place ∈ world.placesOf holder,
        (world.step action).store.slot? place = world.store.slot? place)
    ∧ (∀ member ∈ world.members, ∀ transaction ∈ member.session.transactions.opened,
        ∀ before queue entry after, transaction.work = before ++ .dequeue queue entry :: after →
          ((Ledger.settle false before world.store).acknowledge queue entry).1 = true)
    ∧ ((∀ member ∈ world.members, ∃ s : Serving, member.session = s.finish.session) →
        world.consumers = [] → ∀ place, world.store.isHeld place = false)
  := by
  obtain ⟨lost, orderly, hlost⟩ := reachable.orderly
  obtain rfl := hlost bounded
  have hcount := orderly.inCustody.count
  rw [add_zero] at hcount
  refine ⟨hcount, ?_, ?_, orderly.isHeld_of_ended⟩
  · intro action holder hother place hplace
    obtain ⟨_, shifts, -⟩ := orderly.shifts_step action
    exact shifts.slot?_of_other orderly.inCustody hother hplace
  · intro member hmember transaction htransaction before queue entry after hwork
    exact orderly.acknowledge_perform hmember htransaction hwork

/-- A consumer that has taken a message is its only holder. -/
theorem unique_custody_of_received :
  (empty.run [.addQueue "q" .unlimited true, .enqueue 0 [0, 1],
      .begin ⟨none, 0, 1, 1, none⟩ ⟨1, 1, 0, true, 512⟩, .subscribe 0,
      .consume 0 .receive]).places.count (0, 0) = 1
  := by
  rw [(unique_custody ⟨_, rfl⟩ (by unfold Bounded; decide)).1]
  rfl

end World

end MessageBroker
