import Mathlib.Algebra.Group.Nat.Defs
import Mathlib.Data.List.Sort
import MessageBroker.Connection.Basic

/-!
# Channels that are free

A session that begins is sent on the first channel that is left out of those in use.  The search
for it counts along with the channels in use, in ascending order.  As long as fewer channels are in
use than there are, it ends before the numbers do: it goes past no number that cannot be increased,
and what it finds is not in use, though everything below is.
-/

namespace MessageBroker.Connection

/-- The numbers that the search for a gap goes past.  Each of them is in use, and is increased by
one to go on. -/
def passed (candidate : UInt16) : List UInt16 → List UInt16
  | [] => []
  | number :: numbers =>
    if number = candidate then candidate :: passed (candidate + 1) numbers else []

section Search

variable {candidate : UInt16} {numbers : List UInt16}

/-- A number that is not the last is increased by one. -/
theorem toNat_next (few : candidate.toNat + 1 < 2 ^ 16) :
  (candidate + 1).toNat = candidate.toNat + 1
  := by
  rw [UInt16.toNat_add, UInt16.toNat_one, Nat.mod_eq_of_lt few]

/-- One number less is left to be gone through after each that is passed. -/
theorem few_next {number : UInt16} (few : candidate.toNat + (number :: numbers).length < 2 ^ 16) :
  (candidate + 1).toNat + numbers.length < 2 ^ 16
  := by
  rw [List.length_cons] at few
  rw [toNat_next (by omega)]
  omega

/-- The search never goes past the last number. -/
theorem passed_lt (few : candidate.toNat + numbers.length < 2 ^ 16) :
  ∀ number ∈ passed candidate numbers, number < 65535
  := by
  induction numbers generalizing candidate with
  | nil => simp [passed]
  | cons first others ih =>
      intro number hmem
      rw [passed] at hmem
      split at hmem
      · rcases List.mem_cons.mp hmem with rfl | hlater
        · rw [List.length_cons] at few
          apply UInt16.lt_iff_toNat_lt.mpr
          change number.toNat < 65535
          omega
        · exact ih (few_next few) number hlater
      · contradiction

/-- The gap is found before more numbers are gone past than there are. -/
theorem toNat_firstGap_le (few : candidate.toNat + numbers.length < 2 ^ 16) :
  (firstGap candidate numbers).toNat ≤ candidate.toNat + numbers.length
  := by
  induction numbers generalizing candidate with
  | nil => exact Nat.le_refl _
  | cons first others ih =>
      rw [firstGap]
      split
      · have hnext := ih (few_next few)
        rw [List.length_cons] at few ⊢
        rw [toNat_next (by omega)] at hnext
        omega
      · exact Nat.le_add_right _ _

/-- Everything below the gap is there. -/
theorem mem_of_lt_firstGap (few : candidate.toNat + numbers.length < 2 ^ 16) {number : UInt16}
    (from_candidate : candidate ≤ number) (below : number < firstGap candidate numbers) :
  number ∈ numbers
  := by
  induction numbers generalizing candidate with
  | nil => exact absurd below (UInt16.not_lt.mpr from_candidate)
  | cons first others ih =>
      rw [firstGap] at below
      split at below
      · next here =>
          by_cases same : number = candidate
          · rw [same, ← here]
            exact List.mem_cons_self
          · apply List.mem_cons_of_mem
            apply ih (few_next few) _ below
            rw [List.length_cons] at few
            have hne : number.toNat ≠ candidate.toNat := fun h => same (UInt16.toNat_inj.mp h)
            have hle := UInt16.le_iff_toNat_le.mp from_candidate
            apply UInt16.le_iff_toNat_le.mpr
            rw [toNat_next (by omega)]
            omega
      · exact absurd below (UInt16.not_lt.mpr from_candidate)

/-- The gap is not below where the search begins. -/
theorem le_firstGap (few : candidate.toNat + numbers.length < 2 ^ 16) :
  candidate ≤ firstGap candidate numbers
  := by
  induction numbers generalizing candidate with
  | nil => exact UInt16.le_refl _
  | cons first others ih =>
      rw [firstGap]
      split
      · have hnext := UInt16.le_iff_toNat_le.mp (ih (few_next few))
        rw [List.length_cons] at few
        rw [toNat_next (by omega)] at hnext
        apply UInt16.le_iff_toNat_le.mpr
        omega
      · exact UInt16.le_refl _

/-- The gap is not there. -/
theorem firstGap_notMem (few : candidate.toNat + numbers.length < 2 ^ 16)
    (ascending : numbers.Pairwise (· < ·)) (above : ∀ number ∈ numbers, candidate ≤ number) :
  firstGap candidate numbers ∉ numbers
  := by
  induction numbers generalizing candidate with
  | nil => exact List.not_mem_nil
  | cons first others ih =>
      obtain ⟨hfirst, hothers⟩ := List.pairwise_cons.mp ascending
      rw [firstGap]
      split
      · next here =>
          have hnext : (candidate + 1).toNat = candidate.toNat + 1 := by
            rw [List.length_cons] at few
            exact toNat_next (by omega)
          have above' : ∀ number ∈ others, candidate + 1 ≤ number := by
            intro number hmem
            have hlt := UInt16.lt_iff_toNat_lt.mp (hfirst number hmem)
            rw [here] at hlt
            exact UInt16.le_iff_toNat_le.mpr (by omega)
          have hgap := UInt16.le_iff_toNat_le.mp (le_firstGap (few_next few))
          intro hmem
          rcases List.mem_cons.mp hmem with hself | hlater
          · rw [hself, here] at hgap
            omega
          · exact ih (few_next few) hothers above' hlater
      · next other =>
          intro hmem
          rcases List.mem_cons.mp hmem with hself | hlater
          · exact other hself.symm
          · have hle := above first List.mem_cons_self
            exact absurd hle (UInt16.not_le.mpr (hfirst candidate hlater))

end Search

/-! ### The channels of a connection -/

variable {connection : Connection}

/-- The channels on which the broker sends. -/
def outgoing (connection : Connection) : List UInt16 :=
  connection.channels.rows.map (·.outgoing)

/-- To put numbers in their places one after another is to sort them. -/
theorem ascending_eq :
  connection.ascending = connection.outgoing.insertionSort (· ≤ ·)
  := by
  have hplace : place = List.orderedInsert (· ≤ ·) := by
    funext number numbers
    induction numbers with
    | nil => rfl
    | cons first others ih => rw [place, List.orderedInsert_cons, ih]
  rw [ascending, hplace]
  rfl

theorem perm_ascending :
  connection.ascending.Perm connection.outgoing
  := by
  rw [ascending_eq]
  apply List.perm_insertionSort

theorem pairwise_ascending (apart : connection.outgoing.Nodup) :
  connection.ascending.Pairwise (· < ·)
  := by
  have sorted : connection.ascending.Pairwise (· ≤ ·) := by
    rw [ascending_eq]
    apply List.pairwise_insertionSort
  have nodup := perm_ascending.nodup_iff.mpr apart
  apply (sorted.and nodup).imp
  rintro a b ⟨hle, hne⟩
  exact UInt16.lt_of_le_of_ne hle hne

section Few

variable (few : connection.outgoing.length < 2 ^ 16)

include few

theorem few_ascending :
  (0 : UInt16).toNat + connection.ascending.length < 2 ^ 16
  := by
  rwa [UInt16.toNat_zero, Nat.zero_add, perm_ascending.length_eq]

/-- The broker does not send on a channel that is free. -/
theorem freeChannel_notMem (apart : connection.outgoing.Nodup) :
  connection.freeChannel ∉ connection.outgoing
  := by
  rw [← perm_ascending.mem_iff]
  apply firstGap_notMem (few_ascending few) (pairwise_ascending apart)
  exact fun _ _ => UInt16.zero_le

/-- The broker sends on every channel below the one that is free. -/
theorem mem_of_lt_freeChannel {number : UInt16} (below : number < connection.freeChannel) :
  number ∈ connection.outgoing
  := perm_ascending.mem_iff.mp (mem_of_lt_firstGap (few_ascending few) UInt16.zero_le below)

/-- The channel that is free is among the first, one more than there are sessions. -/
theorem toNat_freeChannel_le :
  connection.freeChannel.toNat ≤ connection.outgoing.length
  := by
  have hle := toNat_firstGap_le (few_ascending few)
  rwa [UInt16.toNat_zero, Nat.zero_add, perm_ascending.length_eq] at hle

/-- The search for a channel never goes past the last one. -/
theorem passed_ascending_lt :
  ∀ number ∈ passed 0 connection.ascending, number < 65535
  := passed_lt (few_ascending few)

end Few

end MessageBroker.Connection
