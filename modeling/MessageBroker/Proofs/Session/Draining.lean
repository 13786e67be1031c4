import MessageBroker.Proofs.Session.Allowance
import MessageBroker.Proofs.Session.Resting
import MessageBroker.Proofs.Session.Speaking

/-!
# Credit that is given back

Once everything has been sent on a link that may be, the credit that is left is given back if the
peer wants that: the delivery count goes on as if it had been used, and a flow tells so.  Nothing
waits for the link then, unless the link is not attached or the window of the peer is closed, which
keeps messages back and the credit not.
-/

namespace MessageBroker

open Session

namespace Endpoint

/-- A link has credit that the peer wants given back. -/
def Surrenders (endpoint : Endpoint) : Prop :=
  endpoint.link.credit.drain = true ∧ endpoint.link.credit.credit ≠ 0

instance (endpoint : Endpoint) : Decidable endpoint.Surrenders :=
  inferInstanceAs (Decidable (_ ∧ _))

/-- The end of a link on which so many deliveries were sent. -/
structure Spent (count : Nat) (endpoint endpoint' : Endpoint) : Prop where
  /-- Each of them took one of the credit. -/
  link : endpoint'.link
    = { endpoint.link with credit := endpoint.link.credit.onward count }
  /-- There was credit for all of them. -/
  within : count ≤ endpoint.link.credit.credit.toNat
  /-- Messages go to the peer or not, as before. -/
  sending : endpoint'.kind.isSending = endpoint.kind.isSending

theorem Spent.refl (endpoint : Endpoint) :
  endpoint.Spent 0 endpoint
  := ⟨by rw [LinkCredit.onward_zero], Nat.zero_le _, rfl⟩

theorem Spent.cons {count : Nat} {endpoint endpoint' endpoint'' : Endpoint}
    (first : endpoint.Spent 1 endpoint') (others : endpoint'.Spent count endpoint'') :
  endpoint.Spent (count + 1) endpoint''
  := by
  have left := LinkCredit.credit_onward first.within
  have within := others.within
  rw [first.link] at within
  refine ⟨?_, ?_, others.sending.trans first.sending⟩
  · rw [others.link, first.link]
    dsimp only
    rw [LinkCredit.onward_onward, Nat.add_comm]
  · have := first.within
    dsimp only at within
    omega

end Endpoint

namespace Serving

variable {s s' : Serving} {key : UInt32} {endpoint : Endpoint}

/-- Everything is sent on a link that may be. -/
def exhausted (s : Serving) (key : UInt32) : Serving :=
  sendAtMost (s.creditOf key).toNat key s

/-- The credit that is left on a link is given back. -/
def surrendered (s : Serving) (key : UInt32) (endpoint : Endpoint) : Serving :=
  let credit := endpoint.link.credit
  s.onSession fun session =>
    (session.putEndpoint key endpoint.gaveBack).emit
      (.flow { session.sessionFlow with
        handle := some key
        deliveryCount := some (credit.deliveryCount + credit.credit)
        linkCredit := some 0
        available := endpoint.kind.waiting s.store
        drain := true }) none

theorem spent_sendNext? (there : s.session.endpoints.get? key = some endpoint)
    (h : s.sendNext? key = some s') :
  ∃ left, s'.session.endpoints.get? key = some left ∧ endpoint.Spent 1 left
    ∧ s'.session.begunOn key = s.session.begunOn key + 1
  := by
  obtain ⟨endpoint', pick, there', hpick, -, may, rfl⟩ := sendNext?_eq_some h
  obtain rfl := Option.some.inj (there.symm.trans there')
  obtain ⟨sending, sending'⟩ := Endpoint.pick?_isSending hpick
  have one : 1 ≤ endpoint.link.credit.credit.toNat := by
    rw [LinkCredit.maySend, decide_eq_true_iff] at may
    exact Nat.pos_of_ne_zero fun zero => may (UInt32.toNat_inj.mp zero)
  have begun : (s.send key endpoint pick).session.begunOn key = s.session.begunOn key + 1 := by
    have standing : (s.send key endpoint pick).session.standing key = _ := standing_send key hpick
    have counted := congrArg Standing.begun standing
    rwa [if_pos rfl] at counted
  refine ⟨{ endpoint with
    kind := pick.kind
    link := { endpoint.link with credit := endpoint.link.credit.spend } }, ?_, ?_, begun⟩
  · rw [endpoints_send, Table.get?_put_self]
  · exact ⟨by rw [LinkCredit.onward_one], one, by rw [sending, sending']⟩

theorem spent_sendAtMost (count : Nat) (there : s.session.endpoints.get? key = some endpoint) :
  ∃ sent left, (sendAtMost count key s).session.endpoints.get? key = some left
    ∧ endpoint.Spent sent left
    ∧ (sendAtMost count key s).session.begunOn key = s.session.begunOn key + sent
  := by
  induction count generalizing s endpoint with
  | zero => exact ⟨0, endpoint, there, .refl endpoint, rfl⟩
  | succ count ih =>
      rw [sendAtMost]
      split
      · next s' hnext =>
          obtain ⟨middle, there', first, begun⟩ := spent_sendNext? there hnext
          obtain ⟨sent, left, there'', others, begun'⟩ := ih there'
          exact ⟨sent + 1, left, there'', first.cons others, by omega⟩
      · exact ⟨0, endpoint, there, .refl endpoint, rfl⟩

/-- On a link that is at rest nothing is sent. -/
theorem exhausted_of_rests (rests : s.RestsOn key) :
  s.exhausted key = s
  := by
  rw [exhausted]
  cases (s.creditOf key).toNat with
  | zero => rfl
  | succ count => rw [sendAtMost, sendNext?_eq_none_iff.mpr rests]

/-- While the window of the peer is closed, nothing is sent. -/
theorem exhausted_of_closed (closed : s.session.remoteIncomingWindow = 0) (key : UInt32) :
  s.exhausted key = s
  := exhausted_of_rests fun _ _ _ _ => .inr (.inl closed)

/-- Once everything has been sent on a link that may be, the credit that is left is given back if
the peer wants that. -/
theorem pump_eq (there : (s.exhausted key).session.endpoints.get? key = some endpoint)
    (sending : endpoint.kind.isSending = true) :
  s.pump key
    = if endpoint.Surrenders then (s.exhausted key).surrendered key endpoint
      else s.exhausted key
  := by
  change (s.exhausted key).giveBackCredit key = _
  generalize s.exhausted key = t at there
  rw [giveBackCredit, there]
  dsimp only
  by_cases surrenders : endpoint.Surrenders
  · obtain ⟨drain, left⟩ := surrenders
    have gives : endpoint.link.credit.giveBack
        = (true, { endpoint.link.credit with
            deliveryCount := endpoint.link.credit.deliveryCount + endpoint.link.credit.credit
            credit := 0 }) := by
      rw [LinkCredit.giveBack, LinkCredit.maySend, if_pos (by simp [drain, left])]
    rw [if_pos ⟨drain, left⟩, gives]
    dsimp only
    rw [surrendered, onSession, onSession, emitLinkFlow, putEndpoint, Table.get?_put_self]
    simp only [Endpoint.gaveBack, gives, linkFlow, Endpoint.onLink, sending, drain]
    rfl
  · have keeps : endpoint.link.credit.giveBack = (false, endpoint.link.credit) := by
      rw [LinkCredit.giveBack, LinkCredit.maySend, if_neg]
      rw [Bool.and_eq_true, decide_eq_true_iff]
      exact surrenders
    rw [if_neg surrenders, keeps]

/-- Where credit is given back, no message waits, unless the link is not attached or the window of
the peer is closed. -/
theorem idle_of_surrenders (there : (s.exhausted key).session.endpoints.get? key = some endpoint)
    (sending : endpoint.kind.isSending = true) (surrenders : endpoint.Surrenders)
    (attached : endpoint.link.isAttached = true)
    (open_ : (s.exhausted key).session.remoteIncomingWindow ≠ 0) :
  endpoint.Idle (s.exhausted key).store
  := by
  have rests : (s.exhausted key).RestsOn key := restsOn_of_sendAtMost (Nat.le_refl _)
  rcases rests endpoint there attached sending with spent | closed | idle
  · exact absurd spent surrenders.2
  · exact absurd closed open_
  · exact idle

end Serving

end MessageBroker
