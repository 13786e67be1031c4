import MessageBroker.Proofs.Session.Custody

/-!
# Custody of messages sent

A message that is sent settled was acquired and is acknowledged at once; one that is sent
unsettled is held by the session under the number of its delivery, which was not in use.  A copy
leaves the queues alone.
-/

namespace MessageBroker

theorem slices_ne_nil (size : Nat) (bytes : Bytes) :
  slices size bytes ≠ []
  := by
  rw [slices]
  split <;> simp

namespace Session

/-! ### Transfers of one delivery -/

theorem begins_sendTransfer (session : Session) (transfer : Transfer) (payload : Bytes) :
  Begins (if transfer.deliveryId.isSome then 1 else 0) session
    (session.sendTransfer transfer payload)
  := by
  rw [sendTransfer]
  have hcount : Begins 0 session
      { session with
        nextOutgoingId := session.nextOutgoingId + 1
        remoteIncomingWindow :=
          if session.remoteIncomingWindow = 0 then 0 else session.remoteIncomingWindow - 1 } :=
    ⟨rfl, rfl, rfl, rfl⟩
  have hemit := hcount.trans (begins_emit _ (.transfer transfer) (some payload))
  rw [Nat.zero_add] at hemit
  exact hemit

/-- Transfers that go on with a delivery begin none. -/
theorem quiet_sendPieces (session : Session) (handle : UInt32) (pieces : List Bytes) :
  session.Quiet (session.sendPieces (.continuation handle) pieces)
  := by
  induction pieces generalizing session with
  | nil => exact .refl session
  | cons piece pieces ih =>
      cases pieces with
      | nil =>
          exact session.begins_sendTransfer { Transfer.continuation handle with more := false } piece
      | cons next others =>
          have hfirst : session.Quiet (session.sendTransfer (.continuation handle) piece) :=
            session.begins_sendTransfer (.continuation handle) piece
          exact hfirst.trans (ih _)

/-- The first transfer of a delivery begins it, and it is always sent. -/
theorem begins_sendDelivery (session : Session) (handle id : UInt32) (settled : Bool)
    (payload : Bytes) :
  Begins 1 session (session.sendDelivery handle id settled payload)
  := by
  rw [sendDelivery]
  generalize hpieces : slices _ payload = pieces
  cases pieces with
  | nil => exact absurd hpieces (slices_ne_nil _ _)
  | cons piece pieces =>
      cases pieces with
      | nil =>
          exact session.begins_sendTransfer
            { Transfer.opening handle id settled with more := false } piece
      | cons next others =>
          have hfirst := session.begins_sendTransfer (.opening handle id settled) piece
          exact hfirst.trans (quiet_sendPieces _ handle (next :: others))

section Sends

variable {session : Session} {sent : Nat}

/-- The number of the next delivery is not that of an unsettled one. -/
theorem Sends.get?_nextDeliveryId (sends : session.Sends sent) (h : sent < 4294967296) :
  session.nextDeliveryId.toNat = sent
    ∧ session.outgoingUnsettled.get? session.nextDeliveryId = none
  := by
  have hnumber : session.nextDeliveryId.toNat = sent := by
    rw [sends.nextDeliveryId, UInt32.toNat_ofNat']
    omega
  refine ⟨hnumber, ?_⟩
  apply Table.get?_eq_none_iff.mpr
  intro hmem
  have hlt := sends.given _ hmem
  omega

/-- A delivery gets the next number, whether it is settled as it is sent or not. -/
theorem Sends.begin {session' : Session} (sends : session.Sends sent) (h : sent < 4294967296)
    (next : session'.nextDeliveryId = session.nextDeliveryId + 1)
    (unsettled : session'.outgoingUnsettled = session.outgoingUnsettled
      ∨ ∃ delivery, session'.outgoingUnsettled
          = session.outgoingUnsettled.put session.nextDeliveryId delivery) :
  session'.Sends (sent + 1)
  := by
  obtain ⟨hnumber, -⟩ := sends.get?_nextDeliveryId h
  constructor
  · rw [next, sends.nextDeliveryId, UInt32.ofNat_add]
    rfl
  · intro id hid
    rcases unsettled with hsame | ⟨delivery, hput⟩
    · rw [hsame] at hid
      exact Nat.lt_succ_of_lt (sends.given id hid)
    · rw [hput] at hid
      rcases Table.mem_keys_put.mp hid with rfl | hold
      · omega
      · exact Nat.lt_succ_of_lt (sends.given id hold)

end Sends

end Session

/-! ### Pumping -/

/-- A message that is chosen to be sent is acquired, or is a copy. -/
theorem Endpoint.pick?_eq_some {endpoint : Endpoint} {store : QueueStore} {pick : Endpoint.Pick}
    (h : endpoint.pick? store = some pick) :
  (pick.copied = true ∧ pick.store = store)
    ∨ (pick.copied = false ∧ store.acquire pick.queue = (some pick.entry, pick.store))
  := by
  rw [Endpoint.pick?] at h
  split at h
  · split at h
    · next entry store' hacquire =>
        obtain rfl := Option.some.inj h
        exact .inr ⟨rfl, hacquire⟩
    · contradiction
  · split at h
    · obtain rfl := Option.some.inj h
      exact .inl ⟨rfl, rfl⟩
    · contradiction
  · contradiction

namespace Serving

open Session

theorem leads_send (s : Serving) (handle : UInt32) {endpoint : Endpoint}
    {pick : Endpoint.Pick} (h : endpoint.pick? s.store = some pick) :
  Leads 1 0 s (s.send handle endpoint pick)
  := by
  obtain ⟨session, store⟩ := s
  rw [send]
  constructor
  · exact (begins_sendDelivery _ handle _ _ _).begun
  · apply Eq.trans _ (UInt32.add_zero _).symm
    exact congrArg Ledger.lastId (begins_sendDelivery _ handle _ _ _).transactions
  · intro sound
    apply (begins_sendDelivery _ handle _ _ _).sound
    refine ⟨?_, sound.distinct⟩
    dsimp only
    split
    · exact sound.sorted
    · exact sound.sorted.put _ _
  · intro _ m sends hsent
    apply (begins_sendDelivery _ handle _ _ _).sends
    refine sends.begin (by omega) rfl ?_
    dsimp only [putEndpoint]
    split
    · exact .inl rfl
    · exact .inr ⟨_, rfl⟩
  · intro _ n numbered _
    rw [(begins_sendDelivery _ handle _ _ _).transactions]
    exact ⟨numbered, .refl _ _⟩
  · intro sound
    rw [custody, custody, (begins_sendDelivery _ handle _ _ _).places]
    dsimp only [Session.places, putEndpoint, Custody.beside]
    rcases Endpoint.pick?_eq_some h with ⟨hcopied, hstore⟩ | ⟨hcopied, hacquire⟩
    · rw [hcopied, Bool.or_true, if_pos rfl, hstore]
      refine ⟨0, ?_, fun _ _ _ _ _ _ => rfl⟩
      rw [add_zero]
      exact .refl
    · have acquired := Custody.Move.acquire
        (unsettledPlaces session.outgoingUnsettled + session.transactions.places) hacquire
      rw [hcopied, Bool.or_false, Bool.not_false, Bool.and_true]
      split
      · refine ⟨0, ?_, fun _ _ _ _ _ _ => rfl⟩
        rw [add_zero]
        exact .tail (.single acquired) (.acknowledge _ _ (pick.queue, pick.entry.id))
      · obtain ⟨lost, hplaces, hlost⟩ := unsettledPlaces_put sound.sorted session.nextDeliveryId
          ⟨handle, pick.queue, pick.entry.id⟩
        refine ⟨lost, ?_, ?_⟩
        · rw [add_right_comm, ← hplaces, Multiset.cons_add]
          exact .single acquired
        · intro m n sends _ hsent _
          exact hlost (sends.get?_nextDeliveryId (by omega)).2

theorem carries_sendNext? {s s' : Serving} {handle : UInt32} (h : s.sendNext? handle = some s') :
  s.Carries 0 s'
  := by
  obtain ⟨endpoint, pick, -, hpick, -, -, rfl⟩ := sendNext?_eq_some h
  exact ⟨1, s.leads_send handle hpick⟩

theorem carries_pump (s : Serving) (handle : UInt32) :
  s.Carries 0 (s.pump handle)
  := by
  apply related_pump .refl .comp
  · exact carries_sendNext?
  · exact fun s => .of_quiet (quiet_giveBackCredit s handle)

theorem carries_pumpAll (s : Serving) :
  s.Carries 0 s.pumpAll
  := related_pumpAll .refl .comp carries_pump s

end Serving

end MessageBroker
