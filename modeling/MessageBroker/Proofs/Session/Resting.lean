import MessageBroker.Proofs.Lists
import MessageBroker.Proofs.Session.Crediting
import MessageBroker.Proofs.Session.Signals

/-!
# Links at rest

A link that messages go out on is at rest if it has no credit, if the window of the peer is closed,
or if no message waits for it.  When a session sends what waits, it goes on until all its links are
at rest, and they stay at rest until a message becomes available.
-/

namespace MessageBroker

/-! ### Messages that wait -/

namespace QueueStore

variable {store store' : QueueStore}

theorem available_eq_zero_iff {id : QueueId} :
  store.available id = 0 ↔ store.waiting id = []
  := by
  rw [available, waiting]
  cases store.get? id with
  | none => simp
  | some queue =>
      simp only [Option.map_some, Option.getD_some, Queue.available, Queue.waiting]
      rw [List.length_eq_zero_iff, List.map_eq_nil_iff]

theorem browseNext_eq_none_iff {id : QueueId} {after : Option Nat} :
  store.browseNext id after = none ↔ ∀ number ∈ store.waiting id, after.all (· < number) = false
  := by
  rw [browseNext, waiting]
  cases store.get? id with
  | none => simp
  | some queue =>
      simp only [Option.bind_some, Option.map_some, Option.getD_some, Queue.browseNext,
        Queue.waiting]
      rw [List.find?_eq_none]
      simp

theorem acquire_eq_none_iff {id : QueueId} :
  (store.acquire id).1 = none ↔ store.waiting id = []
  := by
  rw [acquire, waiting]
  cases store.get? id with
  | none => simp
  | some queue =>
      simp only [Option.bind_some, Option.map_some, Option.getD_some, Queue.waiting]
      rw [List.map_eq_nil_iff, Queue.acquire]
      cases queue.browse with
      | nil => simp
      | cons entry entries => simp

end QueueStore

namespace Endpoint

variable {endpoint : Endpoint} {store store' : QueueStore}

/-- No message waits that may go to the peer: none is available, or none after the one that was
looked at last. -/
def Idle (store : QueueStore) (endpoint : Endpoint) : Prop :=
  match endpoint.kind with
  | .consuming queue => store.available queue = 0
  | .browsing browser => browser.hasNext store = false
  | _ => True

/-- Where messages only become fewer, there is nothing to wait for. -/
theorem Idle.of_waiting (idle : endpoint.Idle store)
    (h : ∀ id, store'.waiting id ⊆ store.waiting id) :
  endpoint.Idle store'
  := by
  rw [Idle] at idle ⊢
  split
  · next queue hkind =>
      rw [hkind] at idle
      dsimp only at idle
      rw [QueueStore.available_eq_zero_iff] at idle ⊢
      apply List.eq_nil_of_subset_nil
      rw [← idle]
      apply h
  · next browser hkind =>
      rw [hkind] at idle
      simp only [Browser.hasNext, Option.isSome_eq_false_iff, Option.isNone_iff_eq_none,
        QueueStore.browseNext_eq_none_iff] at idle ⊢
      intro number hmem
      apply idle number (h _ hmem)
  · trivial

/-- A message is picked unless none waits. -/
theorem pick?_eq_none_iff (sending : endpoint.kind.isSending = true) :
  endpoint.pick? store = none ↔ endpoint.Idle store
  := by
  rw [pick?, Idle]
  cases hkind : endpoint.kind with
  | consuming queue =>
      dsimp only
      rw [QueueStore.available_eq_zero_iff, ← QueueStore.acquire_eq_none_iff]
      split
      · next hacquire => simp [hacquire]
      · next hacquire => simp [hacquire]
  | browsing browser =>
      dsimp only
      rw [Browser.next, Browser.hasNext]
      cases store.browseNext browser.queue browser.cursor with
      | none => simp
      | some entry => simp
  | _ =>
      rw [hkind] at sending
      contradiction

/-- Nothing can be sent on a link, though it is attached and messages go out on it: it has no
credit, or the window of the peer is closed, or no message waits for it. -/
def Rests (store : QueueStore) (window : UInt32) (endpoint : Endpoint) : Prop :=
  endpoint.link.isAttached = true → endpoint.kind.isSending = true →
    endpoint.link.credit.credit = 0 ∨ window = 0 ∨ endpoint.Idle store

theorem Rests.of_waiting {window : UInt32} (rests : endpoint.Rests store window)
    (h : ∀ id, store'.waiting id ⊆ store.waiting id) :
  endpoint.Rests store' window
  := by
  intro attached sending
  rcases rests attached sending with credit | closed | idle
  · exact .inl credit
  · exact .inr (.inl closed)
  · exact .inr (.inr (idle.of_waiting h))

end Endpoint

/-! ### Links of a session -/

/-- The link with a handle is at rest, if there is one. -/
def Serving.RestsOn (key : UInt32) (s : Serving) : Prop :=
  ∀ endpoint, s.session.endpoints.get? key = some endpoint →
    endpoint.Rests s.store s.session.remoteIncomingWindow

/-- Every link of a session is at rest. -/
def Session.Rests (store : QueueStore) (session : Session) : Prop :=
  ∀ key, Serving.RestsOn key ⟨session, store⟩

theorem Session.Rests.of_waiting {store store' : QueueStore} {session : Session}
    (rests : session.Rests store) (h : ∀ id, store'.waiting id ⊆ store.waiting id) :
  session.Rests store'
  := by
  intro key endpoint there
  apply (rests key endpoint there).of_waiting h

/-- Whether links are at rest does not depend on what is to be sent. -/
theorem Session.Rests.of_same {store : QueueStore} {session session' : Session}
    (rests : session.Rests store) (endpoints : session'.endpoints = session.endpoints)
    (window : session'.remoteIncomingWindow = session.remoteIncomingWindow) :
  session'.Rests store
  := by
  intro key endpoint there
  dsimp only at there ⊢
  rw [endpoints] at there
  rw [window]
  apply rests key endpoint there

namespace Serving

variable {s s' : Serving} {key other : UInt32}

/-- A link sends exactly unless it is at rest. -/
theorem sendNext?_eq_none_iff :
  s.sendNext? key = none ↔ s.RestsOn key
  := by
  rw [sendNext?, RestsOn]
  split
  · next closed =>
      constructor
      · intro _ endpoint _ _ _
        exact .inr (.inl closed)
      · intro _
        rfl
  · next window =>
      cases hget : s.session.endpoints.get? key with
      | none => simp
      | some endpoint =>
          have hmay : endpoint.link.credit.maySend = true ↔ endpoint.link.credit.credit ≠ 0 := by
            rw [LinkCredit.maySend, decide_eq_true_iff]
          simp only [Option.some.injEq, forall_eq', Endpoint.Rests, window, false_or]
          split
          · next hready =>
              obtain ⟨attached, may⟩ := Bool.and_eq_true_iff.mp hready
              rw [Option.map_eq_none_iff]
              constructor
              · intro none _ sending
                exact .inr ((Endpoint.pick?_eq_none_iff sending).mp none)
              · intro rests
                cases sending : endpoint.kind.isSending with
                | false =>
                    cases hpick : endpoint.pick? s.store with
                    | none => rfl
                    | some pick =>
                        rw [(Endpoint.pick?_isSending hpick).1] at sending
                        contradiction
                | true =>
                    apply (Endpoint.pick?_eq_none_iff sending).mpr
                    apply (rests attached sending).resolve_left (hmay.mp may)
          · next hready =>
              constructor
              · intro _ attached _
                left
                by_contra credit
                exact hready (Bool.and_eq_true_iff.mpr ⟨attached, hmay.mpr credit⟩)
              · intro _
                rfl

/-- A delivery on one link leaves the others at rest. -/
theorem restsOn_sendNext? (rests : s.RestsOn other) (h : s.sendNext? key = some s') :
  s'.RestsOn other
  := by
  have dwindles := dwindles_sendNext? h
  by_cases same : other = key
  · rw [same, ← sendNext?_eq_none_iff, h] at rests
    contradiction
  · have window : s.session.remoteIncomingWindow ≠ 0 := by
      intro closed
      rw [sendNext?, if_pos closed] at h
      contradiction
    obtain ⟨endpoint, pick, -, -, -, -, rfl⟩ := sendNext?_eq_some h
    intro later there attached sending
    have there' : s.session.endpoints.get? other = some later := by
      rwa [endpoints_send, Table.get?_put, if_neg same] at there
    rcases rests later there' attached sending with credit | closed | idle
    · exact .inl credit
    · exact absurd closed window
    · exact .inr (.inr (idle.of_waiting dwindles.waiting))

theorem restsOn_sendAtMost (rests : s.RestsOn other) (count : Nat) (key : UInt32) :
  (sendAtMost count key s).RestsOn other
  := by
  induction count generalizing s with
  | zero => exact rests
  | succ count ih =>
      rw [sendAtMost]
      split
      · next s' hnext => apply ih (restsOn_sendNext? rests hnext)
      · exact rests

theorem creditOf_eq {endpoint : Endpoint} (there : s.session.endpoints.get? key = some endpoint) :
  s.creditOf key = endpoint.link.credit.credit
  := by
  rw [creditOf, Session.link?, there]
  rfl

/-- Every delivery takes one of the credit. -/
theorem creditOf_sendNext? (h : s.sendNext? key = some s') :
  (s'.creditOf key).toNat + 1 = (s.creditOf key).toNat
  := by
  obtain ⟨endpoint, pick, there, -, -, may, rfl⟩ := sendNext?_eq_some h
  have there' : (s.send key endpoint pick).session.endpoints.get? key
      = some { endpoint with
          kind := pick.kind
          link := { endpoint.link with credit := endpoint.link.credit.spend } } := by
    rw [endpoints_send, Table.get?_put_self]
  rw [creditOf_eq there, creditOf_eq there', LinkCredit.spend]
  rw [LinkCredit.maySend, decide_eq_true_iff] at may
  have one : (1 : UInt32) ≤ endpoint.link.credit.credit := by
    rw [UInt32.le_iff_toNat_le, UInt32.toNat_one]
    exact Nat.pos_of_ne_zero fun h => may (UInt32.toNat_inj.mp h)
  have positive := UInt32.le_iff_toNat_le.mp one
  rw [UInt32.toNat_one] at positive
  dsimp only
  rw [UInt32.toNat_sub_of_le _ _ one, UInt32.toNat_one]
  omega

/-- Once its credit has been sent, a link is at rest. -/
theorem restsOn_of_sendAtMost {count : Nat} (enough : (s.creditOf key).toNat ≤ count) :
  (sendAtMost count key s).RestsOn key
  := by
  induction count generalizing s with
  | zero =>
      intro endpoint there _ _
      left
      rw [← creditOf_eq there]
      apply UInt32.toNat_inj.mp
      exact Nat.le_zero.mp enough
  | succ count ih =>
      rw [sendAtMost]
      split
      · next s' hnext =>
          apply ih
          have := creditOf_sendNext? hnext
          omega
      · next hnone => exact sendNext?_eq_none_iff.mp hnone

/-- Telling the credit of a link changes no link. -/
theorem emitLinkFlow_same (session : Session) (store : QueueStore) (key : UInt32) :
  (session.emitLinkFlow store key).endpoints = session.endpoints
    ∧ (session.emitLinkFlow store key).remoteIncomingWindow = session.remoteIncomingWindow
  := by
  rw [Session.emitLinkFlow]
  split
  · exact ⟨rfl, rfl⟩
  · exact ⟨rfl, rfl⟩

/-- Credit that is given back is gone, so a link that gives it back is at rest too. -/
theorem restsOn_giveBackCredit (rests : s.RestsOn other) (key : UInt32) :
  (s.giveBackCredit key).RestsOn other
  := by
  rw [giveBackCredit]
  split
  · exact rests
  · next endpoint there =>
      split
      · exact rests
      · next credit hgives =>
          have none : credit.credit = 0 := by
            rw [LinkCredit.giveBack] at hgives
            split at hgives
            · rw [← (Prod.mk.inj hgives).2]
            · cases (Prod.mk.inj hgives).1
          intro later there' attached sending
          obtain ⟨endpoints, window⟩ := emitLinkFlow_same
            (s.session.putEndpoint key (endpoint.onLink fun link => { link with credit })) s.store key
          dsimp only [onSession] at there' ⊢
          rw [endpoints, Session.putEndpoint, Table.get?_put] at there'
          rw [window]
          split at there'
          · left
            rw [← Option.some.inj there']
            exact none
          · exact rests later there' attached sending

/-- Once everything that waits was sent on a link, it is at rest. -/
theorem restsOn_pump_self (s : Serving) (key : UInt32) :
  (s.pump key).RestsOn key
  := by
  rw [pump]
  apply restsOn_giveBackCredit
  apply restsOn_of_sendAtMost (Nat.le_refl _)

/-- The other links that are at rest stay so. -/
theorem restsOn_pump (rests : s.RestsOn other) (key : UInt32) :
  (s.pump key).RestsOn other
  := by
  rw [pump]
  apply restsOn_giveBackCredit
  apply restsOn_sendAtMost rests

/-- When a session has sent everything that waits, all its links are at rest. -/
theorem rests_pumpAll (s : Serving) :
  s.pumpAll.session.Rests s.pumpAll.store
  := by
  intro key
  have rests : RestsOn key s.pumpAll := by
    apply foldl_of_visited
    · intro s
      apply restsOn_pump_self
    · intro s other rests
      apply restsOn_pump rests
    · by_cases hsends : key ∈ Table.keys (s.session.endpoints.filter fun row => row.2.kind.isSending)
      · exact .inl hsends
      · right
        intro endpoint there _ sending
        apply absurd _ hsends
        exact List.mem_map_of_mem (List.mem_filter.mpr ⟨Table.mem_of_get? there, sending⟩)
  exact rests

end Serving

end MessageBroker
