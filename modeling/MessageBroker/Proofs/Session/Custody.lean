import MessageBroker.Proofs.Session.Quiet
import MessageBroker.Proofs.Table
import MessageBroker.Proofs.Transaction.Ledger

/-!
# Custody of sessions

A session holds the messages of the deliveries that the peer has not settled, and those that its
open transactions are to take out of their queues.  All that a session does to the queues is a run
of moves on behalf of what it holds.  It knows its messages by the numbers of deliveries and the
names of transactions, and loses sight of none while fewer of these were given out than there are.
-/

namespace MessageBroker

/-- The place of the message of a delivery. -/
def OutgoingDelivery.place (delivery : OutgoingDelivery) : Place :=
  (delivery.queue, delivery.entry)

namespace Session

/-- The places of the messages of deliveries that are not settled. -/
def unsettledPlaces (unsettled : Table UInt32 OutgoingDelivery) : Multiset Place :=
  unsettled.rows.map OutgoingDelivery.place

/-- The places of the messages that a session holds. -/
def places (session : Session) : Multiset Place :=
  unsettledPlaces session.outgoingUnsettled + session.transactions.places

/-- A session keeps its accounts under different numbers and names. -/
structure Sound (session : Session) : Prop where
  /-- No two unsettled deliveries have the same number. -/
  sorted : session.outgoingUnsettled.Sorted
  /-- No two open transactions have the same name. -/
  distinct : session.transactions.Distinct

/-- A session has sent so many deliveries, and those that are unsettled have numbers that were
given out. -/
structure Sends (session : Session) (sent : Nat) : Prop where
  /-- The number of the next delivery. -/
  nextDeliveryId : session.nextDeliveryId = .ofNat sent
  /-- The number of every unsettled delivery was given out. -/
  given : ∀ id ∈ session.outgoingUnsettled.keys, id.toNat < sent

theorem Sound.ofBegin (terms : Begin) (limits : SessionLimits) :
  (ofBegin terms limits).Sound
  := ⟨.nil, .empty⟩

theorem Sends.ofBegin (terms : Begin) (limits : SessionLimits) :
  (ofBegin terms limits).Sends 0
  := ⟨rfl, by simp [Session.ofBegin, Table.keys]⟩

section Begins

variable {count : Nat} {session session' : Session}

theorem Begins.places (begins : Begins count session session') :
  session'.places = session.places
  := by
  rw [Session.places, begins.outgoingUnsettled, begins.transactions, Session.places]

theorem Begins.sound (begins : Begins count session session') (sound : session.Sound) :
  session'.Sound
  := by
  constructor
  · rw [begins.outgoingUnsettled]
    exact sound.sorted
  · rw [begins.transactions]
    exact sound.distinct

theorem Begins.sends (begins : Begins count session session') {sent : Nat}
    (sends : session.Sends sent) :
  session'.Sends sent
  := by
  constructor
  · rw [begins.nextDeliveryId, sends.nextDeliveryId]
  · rw [begins.outgoingUnsettled]
    exact sends.given

end Begins

/-! ### Unsettled deliveries -/

/-- The place of a delivery that is taken away is one less. -/
theorem unsettledPlaces_erase {unsettled : Table UInt32 OutgoingDelivery}
    (sorted : unsettled.Sorted) {id : UInt32} {delivery : OutgoingDelivery}
    (h : unsettled.get? id = some delivery) :
  unsettledPlaces unsettled = delivery.place ::ₘ unsettledPlaces (unsettled.erase id)
  := by
  have hperm := (Table.perm_erase sorted.nodup h).map fun row => row.2.place
  rw [unsettledPlaces, unsettledPlaces, Multiset.cons_coe]
  apply Multiset.coe_eq_coe.mpr
  simpa [Table.rows, Function.comp_def] using hperm

/-- The place of a delivery that is added is one more.  That of one with the same number is
lost. -/
theorem unsettledPlaces_put {unsettled : Table UInt32 OutgoingDelivery}
    (sorted : unsettled.Sorted) (id : UInt32) (delivery : OutgoingDelivery) :
  ∃ lost, delivery.place ::ₘ unsettledPlaces unsettled
      = unsettledPlaces (unsettled.put id delivery) + lost
    ∧ (unsettled.get? id = none → lost = 0)
  := by
  cases hget : unsettled.get? id with
  | none =>
      refine ⟨0, ?_, fun _ => rfl⟩
      have hperm := (Table.put_perm hget delivery).map fun row => row.2.place
      rw [add_zero, unsettledPlaces, unsettledPlaces, Multiset.cons_coe]
      apply Multiset.coe_eq_coe.mpr
      simpa [Table.rows, Function.comp_def] using hperm.symm
  | some old =>
      refine ⟨{old.place}, ?_, fun hnone => by contradiction⟩
      rw [unsettledPlaces_erase (sorted.put id delivery) (Table.get?_put_self id delivery unsettled),
        Table.erase_put, unsettledPlaces_erase sorted hget, Multiset.cons_add]
      congr 1
      rw [add_comm, Multiset.singleton_add]

end Session

namespace Serving

/-- The messages that a session holds, and the queues. -/
def custody (s : Serving) : Custody :=
  ⟨s.session.places, s.store⟩

/-- One state leads to another by moves on behalf of what the session holds, with so many
deliveries sent and transactions declared on the way.  The session loses sight of some of what it
holds only if the numbers or names are used up. -/
structure Leads (sent declared : Nat) (s s' : Serving) : Prop where
  /-- So many deliveries were begun. -/
  begun : s'.session.begun = s.session.begun + sent
  /-- So many transactions were declared. -/
  lastId : s'.session.transactions.lastId = s.session.transactions.lastId + .ofNat declared
  /-- The accounts stay sound. -/
  sound : s.session.Sound → s'.session.Sound
  /-- The numbers of deliveries are given out one after another. -/
  sends : s.session.Sound → ∀ m, s.session.Sends m → m + sent < 4294967296 →
    s'.session.Sends (m + sent)
  /-- The names of transactions are given out one after another, and not again. -/
  numbered : s.session.Sound → ∀ n, s.session.transactions.Numbered n →
    n + declared < 4294967296 → s'.session.transactions.Numbered (n + declared)
      ∧ s.session.transactions.Retires n s'.session.transactions
  /-- What is done to the queues is done on behalf of the session. -/
  moves : s.session.Sound → ∃ lost, s.custody.Moves (s'.custody.beside lost)
    ∧ ∀ m n, s.session.Sends m → s.session.transactions.Numbered n → m + sent < 4294967296 →
        n + declared < 4294967296 → lost = 0

/-- One state leads to another with so many transactions declared. -/
def Carries (declared : Nat) (s s' : Serving) : Prop :=
  ∃ sent, Leads sent declared s s'

/-- One state leads to another without a delivery or a transaction, and without any loss. -/
theorem Leads.of_same {s s' : Serving} (begun : s'.session.begun = s.session.begun)
    (lastId : s'.session.transactions.lastId = s.session.transactions.lastId)
    (sound : s.session.Sound → s'.session.Sound)
    (sends : ∀ m, s.session.Sends m → s'.session.Sends m)
    (numbered : ∀ n, s.session.transactions.Numbered n →
      s'.session.transactions.Numbered n ∧ s.session.transactions.Retires n s'.session.transactions)
    (moves : s.session.Sound → s.custody.Moves s'.custody) :
  Leads 0 0 s s'
  := by
  constructor
  · exact begun
  · rw [lastId]
    exact (UInt32.add_zero _).symm
  · exact sound
  · exact fun _ m hsends _ => sends m hsends
  · exact fun _ n hnumbered _ => numbered n hnumbered
  · intro hsound
    refine ⟨0, ?_, fun _ _ _ _ _ _ => rfl⟩
    rw [Custody.beside, add_zero]
    exact moves hsound

theorem Leads.refl (s : Serving) :
  Leads 0 0 s s
  := .of_same rfl rfl (fun h => h) (fun _ h => h) (fun _ h => ⟨h, .refl _ _⟩) fun _ => .refl

/-- The accounts may be taken to be sound if deliveries and transactions are counted. -/
theorem Leads.of_sound {s s' : Serving} {sent declared : Nat}
    (begun : s'.session.begun = s.session.begun + sent)
    (lastId : s'.session.transactions.lastId = s.session.transactions.lastId + .ofNat declared)
    (h : s.session.Sound → Leads sent declared s s') :
  Leads sent declared s s'
  := ⟨begun, lastId, fun hsound => (h hsound).sound hsound, fun hsound => (h hsound).sends hsound,
    fun hsound => (h hsound).numbered hsound, fun hsound => (h hsound).moves hsound⟩

theorem Leads.trans {s s' s'' : Serving} {sent sent' declared declared' : Nat}
    (h : Leads sent declared s s') (h' : Leads sent' declared' s' s'') :
  Leads (sent + sent') (declared + declared') s s''
  := by
  constructor
  · rw [h'.begun, h.begun, Nat.add_assoc]
  · rw [h'.lastId, h.lastId, UInt32.ofNat_add, UInt32.add_assoc]
  · exact fun hsound => h'.sound (h.sound hsound)
  · intro hsound m hsends hbound
    have hlater := h'.sends (h.sound hsound) _ (h.sends hsound m hsends (by omega)) (by omega)
    rwa [Nat.add_assoc] at hlater
  · intro hsound n hnumbered hbound
    obtain ⟨hnumbered', retires⟩ := h.numbered hsound n hnumbered (by omega)
    obtain ⟨hnumbered'', retires'⟩ := h'.numbered (h.sound hsound) _ hnumbered' (by omega)
    rw [Nat.add_assoc] at hnumbered''
    exact ⟨hnumbered'', retires.trans (Nat.le_add_right n declared) retires'⟩
  · intro hsound
    obtain ⟨lost, moves, hlost⟩ := h.moves hsound
    obtain ⟨lost', moves', hlost'⟩ := h'.moves (h.sound hsound)
    refine ⟨lost' + lost, ?_, ?_⟩
    · have hlater := moves'.beside lost
      rw [Custody.beside, Custody.beside, Custody.beside, add_assoc] at hlater
      exact moves.trans hlater
    · intro m n hsends hnumbered hsent hdeclared
      have hsends' := h.sends hsound m hsends (by omega)
      obtain ⟨hnumbered', -⟩ := h.numbered hsound n hnumbered (by omega)
      rw [hlost m n hsends hnumbered (by omega) (by omega),
        hlost' _ _ hsends' hnumbered' (by omega) (by omega), add_zero]

namespace Carries

variable {s s' s'' : Serving}

theorem refl (s : Serving) :
  Carries 0 s s
  := ⟨0, .refl s⟩

theorem trans {first second : Nat} (h : Carries first s s') (h' : Carries second s' s'') :
  Carries (first + second) s s''
  := by
  obtain ⟨sent, leads⟩ := h
  obtain ⟨sent', leads'⟩ := h'
  exact ⟨sent + sent', leads.trans leads'⟩

/-- Nothing is declared in two steps if nothing is declared in each. -/
theorem comp (h : Carries 0 s s') (h' : Carries 0 s' s'') :
  Carries 0 s s''
  := h.trans h'

/-- A quiet change does nothing to the queues. -/
theorem of_quiet (quiet : s.Quiet s') :
  Carries 0 s s'
  := by
  obtain ⟨hsession, hstore⟩ := quiet
  refine ⟨0, .of_same hsession.begun ?_ hsession.sound (fun _ => hsession.sends) ?_ ?_⟩
  · rw [hsession.transactions]
  · intro n numbered
    rw [hsession.transactions]
    exact ⟨numbered, .refl _ _⟩
  · intro _
    rw [custody, custody, hsession.places, hstore]

/-- A message may be put into a queue. -/
theorem of_enqueue (session : Session) (store : QueueStore) (queue : QueueId) (payload : Bytes) :
  Carries 0 ⟨session, store⟩ ⟨session, (store.enqueue queue payload).2⟩
  := ⟨0, .of_same rfl rfl (fun h => h) (fun _ h => h) (fun _ h => ⟨h, .refl _ _⟩)
    fun _ => .single (.enqueue _ _ queue payload)⟩

end Carries

/-- One state leads to another by moves on behalf of what the session holds, with at most one
transaction declared on the way. -/
def Steps (s s' : Serving) : Prop :=
  ∃ declared ≤ 1, Carries declared s s'

namespace Steps

variable {s s' s'' : Serving}

theorem of_carries (h : Carries 0 s s') :
  Steps s s'
  := ⟨0, Nat.zero_le 1, h⟩

theorem before (h : Steps s s') (h' : Carries 0 s' s'') :
  Steps s s''
  := by
  obtain ⟨declared, hle, carries⟩ := h
  exact ⟨declared, hle, carries.trans h'⟩

theorem after (h : Carries 0 s s') (h' : Steps s' s'') :
  Steps s s''
  := by
  obtain ⟨declared, hle, carries⟩ := h'
  refine ⟨declared, hle, ?_⟩
  rw [← Nat.zero_add declared]
  exact h.trans carries

end Steps

end Serving

end MessageBroker
