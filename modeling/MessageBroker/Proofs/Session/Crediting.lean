import MessageBroker.Proofs.Session.Sending
import MessageBroker.Proofs.Session.Standing

/-!
# Deliveries are begun on credit

A session begins a delivery on a link by sending a message on it.  The link is attached then, and
pays for the delivery with one of its credit, however many transfers the delivery takes.
-/

namespace MessageBroker

open Session

/-! ### Transfers of one delivery -/

namespace Session

theorem begunOn_sendTransfer (session : Session) (handle : UInt32) (transfer : Transfer)
    (payload : Bytes) :
  (session.sendTransfer transfer payload).begunOn handle
    = session.begunOn handle
      + if transfer.deliveryId.isSome && transfer.handle = handle then 1 else 0
  := begunOn_emit _ handle (.transfer transfer) (some payload)

/-- Transfers that go on with a delivery begin none. -/
theorem begunOn_sendPieces (session : Session) (handle key : UInt32) (pieces : List Bytes) :
  (session.sendPieces (.continuation key) pieces).begunOn handle = session.begunOn handle
  := by
  induction pieces generalizing session with
  | nil => rfl
  | cons piece pieces ih =>
      cases pieces with
      | nil =>
          exact session.begunOn_sendTransfer handle
            { Transfer.continuation key with more := false } piece
      | cons next others =>
          have hfirst : (session.sendTransfer (.continuation key) piece).begunOn handle
              = session.begunOn handle :=
            session.begunOn_sendTransfer handle (.continuation key) piece
          rw [← hfirst]
          exact ih _

/-- A delivery is begun once, on its own link, however many transfers it takes. -/
theorem begunOn_sendDelivery (session : Session) (handle key id : UInt32) (settled : Bool)
    (payload : Bytes) :
  (session.sendDelivery key id settled payload).begunOn handle
    = session.begunOn handle + if key = handle then 1 else 0
  := by
  have hopening (more : Bool) (piece : Bytes) :
      (session.sendTransfer { Transfer.opening key id settled with more } piece).begunOn handle
        = session.begunOn handle + if key = handle then 1 else 0 := by
    rw [begunOn_sendTransfer]
    by_cases hkey : key = handle
    · simp [Transfer.opening, Transfer.continuation, hkey]
    · simp [Transfer.opening, Transfer.continuation, hkey]
  rw [sendDelivery]
  generalize hpieces : slices _ payload = pieces
  cases pieces with
  | nil => exact absurd hpieces (slices_ne_nil _ _)
  | cons piece pieces =>
      cases pieces with
      | nil => exact hopening false piece
      | cons next others =>
          exact (begunOn_sendPieces _ handle key (next :: others)).trans (hopening true piece)

theorem endpoints_sendPieces (session : Session) (transfer : Transfer) (pieces : List Bytes) :
  (session.sendPieces transfer pieces).endpoints = session.endpoints
  := by
  apply related_sendPieces (motive := fun session session' => session'.endpoints = session.endpoints)
  · exact fun _ => rfl
  · exact fun before after => after.trans before
  · exact fun _ _ _ => rfl

/-- A delivery counts on its own link. -/
theorem standing_sendDelivery (session : Session) (handle key id : UInt32) (settled : Bool)
    (payload : Bytes) :
  (session.sendDelivery key id settled payload).standing handle
    = ⟨session.begunOn handle + if key = handle then 1 else 0, (session.standing handle).meter⟩
  := by
  rw [standing, begunOn_sendDelivery, sendDelivery, endpoints_sendPieces]
  rfl

end Session

/-! ### Deliveries on credit -/

namespace Standing

/-- So many deliveries are begun on a link, which is attached, on its credit. -/
inductive Sends : Nat → Standing → Standing → Prop
  /-- Nothing is sent. -/
  | idle (x : Standing) : Sends 0 x x
  /-- Deliveries are sent, or credit is given back. -/
  | sends {sent begun : Nat} {meter : Meter} {credit : LinkCredit}
    (attached : sent ≠ 0 → meter.attached = true) (spends : meter.credit.Spends sent credit) :
    Sends sent ⟨begun, some meter⟩ ⟨begun + sent, some { meter with credit }⟩

namespace Sends

variable {sent more : Nat} {x y z : Standing}

theorem of_eq (h : y = x) :
  Sends 0 x y
  := by
  rw [h]
  exact .idle x

theorem trans (h : Sends sent x y) (h' : Sends more y z) :
  Sends (sent + more) x z
  := by
  cases h with
  | idle =>
      rw [Nat.zero_add]
      exact h'
  | sends attached spends =>
      cases h' with
      | idle => exact .sends attached spends
      | sends attached' spends' =>
          rw [Nat.add_assoc]
          refine .sends ?_ (spends.trans spends')
          intro hsent
          rcases Nat.eq_zero_or_pos sent with rfl | hpos
          · exact attached' (by omega)
          · exact attached (by omega)

/-- The peer wants credit given back or not, as before. -/
theorem meter {begun : Nat} {before : Meter} (h : Sends sent ⟨begun, some before⟩ y) :
  ∃ after, y.meter = some after ∧ after.credit.drain = before.credit.drain
  := by
  cases h with
  | idle => exact ⟨before, rfl, rfl⟩
  | sends attached spends =>
      obtain ⟨used, -, -, rfl, -⟩ := spends.goes
      exact ⟨_, rfl, rfl⟩

/-- A link on which deliveries are begun is attached before and after. -/
theorem attached (h : Sends sent x y) (begins : y.begun ≠ x.begun) :
  ∃ meter meter', x.meter = some meter ∧ meter.attached = true ∧ y.meter = some meter'
    ∧ meter'.attached = true
  := by
  cases h with
  | idle => exact absurd rfl begins
  | sends attached spends =>
      have hattached := attached fun hzero => begins (by rw [hzero]; rfl)
      exact ⟨_, _, rfl, hattached, rfl, hattached⟩

end Sends

end Standing

/-! ### Pumping -/

/-- Messages are picked for an endpoint that they come from, and they do after. -/
theorem Endpoint.pick?_isSending {endpoint : Endpoint} {store : QueueStore} {pick : Endpoint.Pick}
    (h : endpoint.pick? store = some pick) :
  endpoint.kind.isSending = true ∧ pick.kind.isSending = true
  := by
  rw [Endpoint.pick?] at h
  split at h
  · next hkind =>
      split at h
      · obtain rfl := Option.some.inj h
        rw [hkind]
        exact ⟨rfl, rfl⟩
      · contradiction
  · next hkind =>
      split at h
      · obtain rfl := Option.some.inj h
        rw [hkind]
        exact ⟨rfl, rfl⟩
      · contradiction
  · contradiction

namespace Serving

variable (handle : UInt32)

/-- Sending a message uses credit of its link, and leaves the other links as they are. -/
theorem endpoints_send (s : Serving) (key : UInt32) (endpoint : Endpoint) (pick : Endpoint.Pick) :
  (s.send key endpoint pick).session.endpoints
    = s.session.endpoints.put key { endpoint with
        kind := pick.kind
        link := { endpoint.link with credit := endpoint.link.credit.spend } }
  := by
  rw [send]
  dsimp only
  rw [Session.sendDelivery, Session.endpoints_sendPieces]
  rfl

theorem standing_send {s : Serving} {key : UInt32} {endpoint : Endpoint} {pick : Endpoint.Pick}
    (hpick : endpoint.pick? s.store = some pick) :
  (s.send key endpoint pick).session.standing handle
    = ⟨s.session.begunOn handle + if key = handle then 1 else 0,
        if handle = key then some { endpoint.meter with credit := endpoint.link.credit.spend }
        else (s.session.standing handle).meter⟩
  := by
  obtain ⟨-, hafter⟩ := Endpoint.pick?_isSending hpick
  obtain ⟨hbefore, -⟩ := Endpoint.pick?_isSending hpick
  have hput := s.session.standing_putEndpoint handle key
    { endpoint with
      kind := pick.kind, link := { endpoint.link with credit := endpoint.link.credit.spend } }
  have hmeter : Endpoint.meter { endpoint with
      kind := pick.kind, link := { endpoint.link with credit := endpoint.link.credit.spend } }
      = { endpoint.meter with credit := endpoint.link.credit.spend } := by
    rw [Endpoint.meter, Endpoint.meter, hafter, hbefore]
    rfl
  rw [hmeter] at hput
  rw [send]
  dsimp only
  rw [standing_sendDelivery]
  exact congrArg (Standing.mk _) (congrArg Standing.meter hput)

theorem sends_sendNext? {s s' : Serving} {key : UInt32} (h : s.sendNext? key = some s') :
  ∃ sent, (s.session.standing handle).Sends sent (s'.session.standing handle)
  := by
  obtain ⟨endpoint, pick, hget, hpick, hattached, hmay, rfl⟩ := sendNext?_eq_some h
  have hbefore := (Endpoint.pick?_isSending hpick).1
  rw [standing_send handle hpick]
  by_cases hkey : key = handle
  · rw [if_pos hkey, if_pos hkey.symm, standing, ← hkey, hget]
    refine ⟨1, .sends (fun _ => hattached) ?_⟩
    rw [Endpoint.meter, hbefore]
    exact .one hmay
  · rw [if_neg hkey, if_neg (Ne.symm hkey)]
    exact ⟨0, .idle _⟩

/-- Credit that is given back is used up, on its own link. -/
theorem standing_giveBackCredit (s : Serving) (key : UInt32) :
  (s.giveBackCredit key).session.standing handle
    = if handle = key then
        { s.session.standing handle with
          meter := (s.session.standing handle).meter.map Meter.giveBack }
      else s.session.standing handle
  := by
  rw [giveBackCredit]
  split
  · next hget =>
      split
      · next hkey =>
          rw [standing, hkey, hget]
          rfl
      · rfl
  · next endpoint hget =>
      split
      · next credit hkeeps =>
          have hgive := Endpoint.meter_giveBack_of_false (congrArg Prod.fst hkeeps)
          split
          · next hkey => rw [standing, hkey, hget, Option.map_some, Option.map_some, hgive]
          · rfl
      · next credit hgives =>
          obtain rfl : credit = endpoint.link.credit.giveBack.2 := (congrArg Prod.snd hgives).symm
          change (emitLinkFlow _ _ _).standing handle = _
          rw [standing_emitLinkFlow, standing_putEndpoint]
          split
          · next hkey =>
              rw [standing, hkey, hget, Option.map_some, Option.map_some, ← endpoint.meter_giveBack]
              rfl
          · rfl

theorem sends_giveBackCredit (s : Serving) (key : UInt32) :
  (s.session.standing handle).Sends 0 ((s.giveBackCredit key).session.standing handle)
  := by
  rw [standing_giveBackCredit]
  split
  · generalize s.session.standing handle = x
    obtain ⟨begun, meter⟩ := x
    cases meter with
    | none => exact .idle _
    | some meter => exact .sends (fun h => absurd rfl h) (.giveBack meter.credit)
  · exact .idle _

theorem sends_pump (s : Serving) (key : UInt32) :
  ∃ sent, (s.session.standing handle).Sends sent ((s.pump key).session.standing handle)
  := by
  revert s
  apply related_pump (motive := fun s s' =>
    ∃ sent, (s.session.standing handle).Sends sent (s'.session.standing handle))
  · exact fun s => ⟨0, .idle _⟩
  · rintro s s' s'' ⟨sent, first⟩ ⟨more, others⟩
    exact ⟨sent + more, first.trans others⟩
  · exact sends_sendNext? handle
  · exact fun s => ⟨0, s.sends_giveBackCredit handle key⟩

theorem sends_pumpAll (s : Serving) :
  ∃ sent, (s.session.standing handle).Sends sent (s.pumpAll.session.standing handle)
  := by
  revert s
  apply related_pumpAll (motive := fun s s' =>
    ∃ sent, (s.session.standing handle).Sends sent (s'.session.standing handle))
  · exact fun s => ⟨0, .idle _⟩
  · rintro s s' s'' ⟨sent, first⟩ ⟨more, others⟩
    exact ⟨sent + more, first.trans others⟩
  · exact sends_pump handle

theorem sends_recover (s : Serving) :
  ∃ sent, (s.session.standing handle).Sends sent (s.recover.2.session.standing handle)
  := sends_pumpAll handle ⟨{ s.session with outgoingUnsettled := [] }, _⟩

/-- No credit is left on a link that has sent what it can, if the peer wants it given back. -/
theorem drained_pump {s : Serving} {key : UInt32} {meter : Meter}
    (h : ((s.pump key).session.standing key).meter = some meter)
    (drain : meter.credit.drain = true) :
  meter.credit.credit = 0
  := by
  rw [pump, standing_giveBackCredit, if_pos rfl] at h
  obtain ⟨before, -, rfl⟩ := Option.map_eq_some_iff.mp h
  exact LinkCredit.credit_giveBack drain

end Serving

end MessageBroker
