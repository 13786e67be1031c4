import MessageBroker.Proofs.Session.Sending

/-!
# Messages drawn from queues

What a session does to the queues when it sends what waits: available messages are handed out, and
those that are sent settled are taken out for good.  Held messages stay held as they are, no message
is put into a queue and no attempt is counted.  The deliveries that are to be settled are known by
the numbers that are next.
-/

namespace MessageBroker

open Session

/-! ### Queues -/

namespace QueueStore

/-- One store comes from another by handing out available messages, some of them for good. -/
structure Draws (store store' : QueueStore) : Prop where
  /-- The store is sound. -/
  sound : store'.Sound
  /-- Held messages stay held as they are. -/
  kept : ∀ place, store.isHeld place = true → store'.slot? place = store.slot? place
  /-- There is no message that was not there, and none with another count of attempts. -/
  same : ∀ place slot', store'.slot? place = some slot' →
    ∃ slot, store.slot? place = some slot ∧ slot.entry = slot'.entry

namespace Draws

variable {store store' store'' : QueueStore}

theorem refl (sound : store.Sound) :
  store.Draws store
  := ⟨sound, fun _ _ => rfl, fun _ slot' h => ⟨slot', h, rfl⟩⟩

theorem isHeld (draws : store.Draws store') {place : Place} (h : store.isHeld place = true) :
  store'.isHeld place = true
  := by
  rw [QueueStore.isHeld, draws.kept place h, ← QueueStore.isHeld]
  exact h

theorem trans (draws : store.Draws store') (draws' : store'.Draws store'') :
  store.Draws store''
  := by
  constructor
  · exact draws'.sound
  · intro place h
    rw [draws'.kept place (draws.isHeld h), draws.kept place h]
  · intro place slot'' hslot''
    obtain ⟨slot', hslot', hentry'⟩ := draws'.same place slot'' hslot''
    obtain ⟨slot, hslot, hentry⟩ := draws.same place slot' hslot'
    exact ⟨slot, hslot, hentry.trans hentry'⟩

/-- An available message is handed out. -/
theorem acquire (sound : store.Sound) {queue : QueueId} {entry : QueueEntry}
    (h : store.acquire queue = (some entry, store')) :
  store.Draws store'
  := by
  have havailable := (acquire_eq_some sound h).1
  constructor
  · exact Sound.acquire sound h
  · intro place hheld
    rw [slot?_acquire sound h, if_neg]
    rintro rfl
    rw [QueueStore.isHeld, havailable] at hheld
    contradiction
  · intro place slot' hslot'
    rw [slot?_acquire sound h] at hslot'
    split at hslot'
    · next hplace =>
        obtain rfl := Option.some.inj hslot'
        exact ⟨⟨entry, false⟩, by rw [hplace, havailable], rfl⟩
    · exact ⟨slot', hslot', rfl⟩

/-- An available message is taken out for good. -/
theorem acknowledge (sound : store.Sound) {queue : QueueId} {entry : QueueEntry}
    (h : store.acquire queue = (some entry, store')) :
  store.Draws (store'.acknowledge queue entry.id).2
  := by
  have draws := Draws.acquire sound h
  have havailable := (acquire_eq_some sound h).1
  have hheld : store'.isHeld (queue, entry.id) = true := by
    rw [QueueStore.isHeld, slot?_acquire sound h, if_pos rfl]
    rfl
  constructor
  · exact Sound.acknowledge draws.sound hheld
  · intro place hplace
    have hne : place ≠ (queue, entry.id) := by
      rintro rfl
      rw [QueueStore.isHeld, havailable] at hplace
      contradiction
    rw [slot?_acknowledge draws.sound hheld, if_neg hne, draws.kept place hplace]
  · intro place slot' hslot'
    rw [slot?_acknowledge draws.sound hheld] at hslot'
    split at hslot'
    · contradiction
    · exact draws.same place slot' hslot'

end Draws

end QueueStore

/-! ### Numbers -/

/-- One session comes from another by beginning so many deliveries, and those of them that are to
be settled have the numbers that were next. -/
structure Session.Numbers (sent : Nat) (session session' : Session) : Prop where
  /-- So many deliveries were begun. -/
  begun : session'.begun = session.begun + sent
  /-- So many numbers were given out. -/
  nextDeliveryId : session'.nextDeliveryId = session.nextDeliveryId + .ofNat sent
  /-- No other numbers are those of unsettled deliveries now. -/
  fresh : ∀ id delivery, session'.outgoingUnsettled.get? id = some delivery →
    session.outgoingUnsettled.get? id = some delivery
      ∨ ∃ earlier < sent, id = session.nextDeliveryId + .ofNat earlier

namespace Session.Numbers

variable {sent more : Nat} {session session' session'' : Session}

theorem of_quiet (quiet : session.Quiet session') :
  Numbers 0 session session'
  := by
  constructor
  · exact quiet.begun
  · rw [quiet.nextDeliveryId]
    exact (UInt32.add_zero _).symm
  · intro id delivery h
    rw [quiet.outgoingUnsettled] at h
    exact .inl h

theorem trans (h : Numbers sent session session') (h' : Numbers more session' session'') :
  Numbers (sent + more) session session''
  := by
  constructor
  · rw [h'.begun, h.begun, Nat.add_assoc]
  · rw [h'.nextDeliveryId, h.nextDeliveryId, UInt32.ofNat_add, UInt32.add_assoc]
  · intro id delivery hget
    rcases h'.fresh id delivery hget with hold | ⟨earlier, hlt, rfl⟩
    · rcases h.fresh id delivery hold with holder | ⟨earlier, hlt, rfl⟩
      · exact .inl holder
      · exact .inr ⟨earlier, Nat.lt_add_right more hlt, rfl⟩
    · refine .inr ⟨sent + earlier, Nat.add_lt_add_left hlt sent, ?_⟩
      rw [h.nextDeliveryId, UInt32.ofNat_add, UInt32.add_assoc]

/-- A number of old is not given out as long as the numbers last. -/
theorem get?_eq_some (h : Numbers sent session session') {before : Nat}
    (sends : session.Sends before) (lasting : before + sent < 4294967296) {id : UInt32}
    {delivery : OutgoingDelivery} (old : id.toNat < before)
    (hget : session'.outgoingUnsettled.get? id = some delivery) :
  session.outgoingUnsettled.get? id = some delivery
  := by
  rcases h.fresh id delivery hget with hold | ⟨earlier, hlt, rfl⟩
  · exact hold
  · rw [sends.nextDeliveryId, ← UInt32.ofNat_add, UInt32.toNat_ofNat'] at old
    omega

end Session.Numbers

/-! ### Sending -/

namespace Serving

/-- One state comes from another by sending so many messages that wait. -/
structure Draws (sent : Nat) (s s' : Serving) : Prop where
  /-- The deliveries have the numbers that were next. -/
  numbers : Numbers sent s.session s'.session
  /-- The transactions are the same. -/
  transactions : s'.session.transactions = s.session.transactions
  /-- The messages are handed out. -/
  store : s.store.Sound → s.store.Draws s'.store

namespace Draws

variable {sent more : Nat} {s s' s'' : Serving}

theorem of_quiet (quiet : s.Quiet s') :
  Draws 0 s s'
  := by
  refine ⟨.of_quiet quiet.session, quiet.session.transactions, fun sound => ?_⟩
  rw [quiet.store]
  exact .refl sound

theorem refl (s : Serving) :
  Draws 0 s s
  := .of_quiet (.refl s)

theorem trans (h : Draws sent s s') (h' : Draws more s' s'') :
  Draws (sent + more) s s''
  := by
  constructor
  · exact h.numbers.trans h'.numbers
  · rw [h'.transactions, h.transactions]
  · intro sound
    have hfirst := h.store sound
    exact hfirst.trans (h'.store hfirst.sound)

end Draws

theorem draws_send (s : Serving) (handle : UInt32) {endpoint : Endpoint} {pick : Endpoint.Pick}
    (h : endpoint.pick? s.store = some pick) :
  Draws 1 s (s.send handle endpoint pick)
  := by
  rw [send]
  constructor
  · constructor
    · exact (begins_sendDelivery _ handle _ _ _).begun
    · exact (begins_sendDelivery _ handle _ _ _).nextDeliveryId
    · intro id delivery hget
      rw [(begins_sendDelivery _ handle _ _ _).outgoingUnsettled] at hget
      dsimp only at hget
      split at hget
      · exact .inl hget
      · rw [Table.get?_put] at hget
        split at hget
        · next heq => exact .inr ⟨0, Nat.one_pos, by rw [heq]; exact (UInt32.add_zero _).symm⟩
        · exact .inl hget
  · exact (begins_sendDelivery _ handle _ _ _).transactions
  · intro sound
    dsimp only
    rcases Endpoint.pick?_eq_some h with ⟨hcopied, hstore⟩ | ⟨hcopied, hacquire⟩
    · rw [hcopied, hstore, Bool.not_true, Bool.and_false]
      exact .refl sound
    · split
      · exact .acknowledge sound hacquire
      · exact .acquire sound hacquire

theorem draws_sendNext? {s s' : Serving} {handle : UInt32} (h : s.sendNext? handle = some s') :
  Draws 1 s s'
  := by
  obtain ⟨endpoint, pick, -, hpick, -, -, rfl⟩ := sendNext?_eq_some h
  exact s.draws_send handle hpick

theorem draws_pump (s : Serving) (handle : UInt32) :
  ∃ sent, Draws sent s (s.pump handle)
  := by
  revert s
  apply related_pump (motive := fun s s' => ∃ sent, Draws sent s s')
  · exact fun s => ⟨0, .refl s⟩
  · rintro s s' s'' ⟨sent, first⟩ ⟨more, others⟩
    exact ⟨sent + more, first.trans others⟩
  · exact fun h => ⟨1, draws_sendNext? h⟩
  · exact fun s => ⟨0, .of_quiet (quiet_giveBackCredit s handle)⟩

theorem draws_pumpAll (s : Serving) :
  ∃ sent, Draws sent s s.pumpAll
  := by
  revert s
  apply related_pumpAll (motive := fun s s' => ∃ sent, Draws sent s s')
  · exact fun s => ⟨0, .refl s⟩
  · rintro s s' s'' ⟨sent, first⟩ ⟨more, others⟩
    exact ⟨sent + more, first.trans others⟩
  · exact draws_pump

end Serving

end MessageBroker
