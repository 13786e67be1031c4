import MessageBroker.Proofs.Link.Agreement

/-!
# Use of credit

A sender uses the credit of a link up by sending deliveries, one by one, and may give back what is
left, whereby its delivery count goes on as if it had been used.  Either way it goes on no further
than the receiver allowed with its last flow.
-/

namespace MessageBroker.LinkCredit

/-- The credit after so many deliveries more. -/
def onward (c : LinkCredit) (count : Nat) : LinkCredit :=
  { c with
    deliveryCount := c.deliveryCount + .ofNat count
    credit := c.credit - .ofNat count }

/-- So many deliveries are sent, for which there is credit, and either the rest of the credit stays
or the receiver wanted it given back and it is. -/
structure Spends (sent : Nat) (c c' : LinkCredit) : Prop where
  /-- The delivery count goes on by the deliveries that were sent, and no further than the credit
  lets it. -/
  goes : ∃ used, sent ≤ used ∧ used ≤ c.credit.toNat ∧ c' = c.onward used
    ∧ (used = sent ∨ c.drain = true ∧ used = c.credit.toNat)

/-! ### Deliveries one after another -/

theorem ofNat_zero :
  UInt32.ofNat 0 = 0
  := rfl

theorem sub_add_eq (a b c : UInt32) :
  a - (b + c) = a - b - c
  := by
  grind

variable {c c' c'' : LinkCredit}

@[simp]
theorem onward_zero (c : LinkCredit) :
  c.onward 0 = c
  := by
  rw [onward, ofNat_zero, UInt32.add_zero, UInt32.sub_zero]

theorem onward_one (c : LinkCredit) :
  c.onward 1 = c.spend
  := rfl

theorem onward_onward (c : LinkCredit) (count more : Nat) :
  (c.onward count).onward more = c.onward (count + more)
  := by
  simp only [onward, UInt32.ofNat_add, UInt32.add_assoc, sub_add_eq]

theorem credit_onward {count : Nat} (h : count ≤ c.credit.toNat) :
  (c.onward count).credit.toNat = c.credit.toNat - count
  := by
  have hlt := c.credit.toNat_lt
  rw [onward, UInt32.toNat_sub, UInt32.toNat_ofNat']
  omega

/-- Credit that is given back goes the way of credit that was used. -/
theorem giveBack_eq (c : LinkCredit) :
  c.giveBack = if c.drain && c.maySend then (true, c.onward c.credit.toNat) else (false, c)
  := by
  rw [giveBack, onward, UInt32.ofNat_toNat, UInt32.sub_self]

theorem snd_giveBack_of_false (h : c.giveBack.1 = false) :
  c.giveBack.2 = c
  := by
  rw [giveBack] at h ⊢
  split at h
  · contradiction
  · next hkeeps => rw [if_neg hkeeps]

/-- No credit is left once it was given back. -/
theorem credit_giveBack (h : c.giveBack.2.drain = true) :
  c.giveBack.2.credit = 0
  := by
  rw [giveBack] at h ⊢
  split at h
  · next hgives => rw [if_pos hgives]
  · next hkeeps =>
      rw [if_neg hkeeps]
      simpa [show c.drain = true from h, maySend] using hkeeps

namespace Spends

theorem refl (c : LinkCredit) :
  Spends 0 c c
  := ⟨0, Nat.le_refl 0, Nat.zero_le _, c.onward_zero.symm, .inl rfl⟩

theorem trans {sent more : Nat} (h : Spends sent c c') (h' : Spends more c' c'') :
  Spends (sent + more) c c''
  := by
  obtain ⟨used, hsent, hused, rfl, hleft⟩ := h.goes
  obtain ⟨used', hmore, hused', rfl, hleft'⟩ := h'.goes
  rw [credit_onward hused] at hused' hleft'
  refine ⟨used + used', by omega, by omega, c.onward_onward used used', ?_⟩
  change _ ∨ c.drain = true ∧ _ at hleft'
  rcases hleft with rfl | ⟨hdrain, hall⟩
  · rcases hleft' with rfl | ⟨hdrain, hall⟩
    · exact .inl rfl
    · exact .inr ⟨hdrain, by omega⟩
  · exact .inr ⟨hdrain, by omega⟩

theorem one (h : c.maySend = true) :
  Spends 1 c c.spend
  := by
  rw [maySend_iff] at h
  exact ⟨1, Nat.le_refl 1, h, c.onward_one.symm, .inl rfl⟩

theorem giveBack (c : LinkCredit) :
  Spends 0 c c.giveBack.2
  := by
  rw [giveBack_eq]
  split
  · next hdrain =>
      rw [Bool.and_eq_true] at hdrain
      exact ⟨_, Nat.zero_le _, Nat.le_refl _, rfl, .inr ⟨hdrain.1, rfl⟩⟩
  · exact .refl c

/-- No more deliveries are sent than there is credit for, and the credit that is left is less by
as many. -/
theorem budget {sent : Nat} (h : Spends sent c c') :
  sent + c'.credit.toNat ≤ c.credit.toNat
  := by
  obtain ⟨used, hsent, hused, rfl, -⟩ := h.goes
  rw [credit_onward hused]
  omega

end Spends

/-! ### What a flow allows -/

section Flow

variable {reference credit count : UInt32}

theorem remaining_le :
  (remaining reference credit count).toNat ≤ credit.toNat
  := by
  rw [remaining]
  split
  · exact Nat.zero_le _
  · next h => exact UInt32.le_iff_toNat_le.mp (UInt32.not_lt.mp h)

/-- Credit that is left is what the flow allowed less what was sent since. -/
theorem remaining_of_pos (h : 0 < (remaining reference credit count).toNat) :
  remaining reference credit count = reference + credit - count
  := by
  rw [remaining] at h ⊢
  split
  · next hstale => simp [hstale] at h
  · rfl

/-- A delivery for which credit is left is sent at a delivery count that the flow allows. -/
theorem allowed_of_lt {sent : Nat} (h : sent < (remaining reference credit count).toNat) :
  1 ≤ reference + credit - (count + .ofNat sent)
    ∧ reference + credit - (count + .ofNat sent) ≤ credit
  := by
  have hle : (remaining reference credit count).toNat ≤ credit.toNat := remaining_le
  have hleft := remaining_of_pos (Nat.zero_lt_of_lt h)
  rw [sub_add_eq, ← hleft, UInt32.le_iff_toNat_le, UInt32.le_iff_toNat_le,
    UInt32.toNat_sub, UInt32.toNat_ofNat', UInt32.toNat_one]
  have hlt := (remaining reference credit count).toNat_lt
  omega

/-- Credit is taken away by as much as the delivery count is ahead of the flow. -/
theorem remaining_add (ahead : UInt32) :
  (remaining reference credit (reference + ahead)).toNat = credit.toNat - ahead.toNat
  := by
  have hsub : reference + credit - (reference + ahead) = credit - ahead := by grind
  have hcredit := credit.toNat_lt
  have hahead := ahead.toNat_lt
  rw [remaining, hsub]
  split
  · next hstale =>
      rw [gt_iff_lt, UInt32.lt_iff_toNat_lt, UInt32.toNat_sub] at hstale
      rw [UInt32.toNat_zero]
      omega
  · next hwithin =>
      rw [UInt32.not_lt, UInt32.le_iff_toNat_le, UInt32.toNat_sub] at hwithin
      rw [UInt32.toNat_sub]
      omega

/-- As deliveries are sent, the credit stays what is left of that which the flow allowed. -/
theorem remaining_onward {sent : Nat} (h : sent ≤ (remaining reference credit count).toNat) :
  remaining reference credit count - .ofNat sent
    = remaining reference credit (count + .ofNat sent)
  := by
  rcases Nat.eq_zero_or_pos sent with rfl | hpos
  · rw [ofNat_zero, UInt32.sub_zero, UInt32.add_zero]
  · have hle : (remaining reference credit count).toNat ≤ credit.toNat := remaining_le
    have hlt := (remaining reference credit count).toNat_lt
    have hleft := remaining_of_pos (Nat.lt_of_lt_of_le hpos h)
    have hsame : reference + credit - (count + .ofNat sent)
        = remaining reference credit count - .ofNat sent := by
      rw [sub_add_eq, ← hleft]
    rw [← hsame, remaining, if_neg]
    rw [hsame, gt_iff_lt, UInt32.not_lt, UInt32.le_iff_toNat_le, UInt32.toNat_sub,
      UInt32.toNat_ofNat']
    omega

/-- The delivery count at which all that a flow allowed is used up; it does not move if the flow
is out of date. -/
theorem add_remaining :
  count + remaining reference credit count
    = if reference + credit - count ≤ credit then reference + credit else count
  := by
  rw [remaining]
  split
  · next h => rw [if_neg (UInt32.not_le.mpr h), UInt32.add_zero]
  · next h =>
      rw [if_pos (UInt32.not_lt.mp h), UInt32.add_comm, UInt32.sub_add_cancel]

end Flow

end MessageBroker.LinkCredit
