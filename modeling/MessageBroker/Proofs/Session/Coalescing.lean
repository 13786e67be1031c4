import Mathlib.Data.List.Range
import MessageBroker.Proofs.Session.Runs

/-!
# The fewest dispositions

What is told about deliveries in turn falls into runs: within a run each delivery is the next one
and the same is said of it.  A disposition tells one run at most, so that it takes as many
dispositions as there are runs, and those that settlements are told in are no more.
-/

namespace MessageBroker

namespace Disposition

/-- What is told of one delivery goes on with what is told of another: it is the next delivery, and
the same is said of it. -/
def GoesOn (before after : UInt32 × Bool × Option DeliveryState) : Prop :=
  before.1 + 1 = after.1 ∧ before.2 = after.2

instance (before after : UInt32 × Bool × Option DeliveryState) :
    Decidable (GoesOn before after) :=
  inferInstanceAs (Decidable (_ ∧ _))

/-- One disposition could tell what two tell: the second starts at the delivery after the last of
the first, and says the same. -/
def Joins (before after : Disposition) : Prop :=
  before.lastId + 1 = after.first ∧ before.settled = after.settled ∧ before.state = after.state

instance (before after : Disposition) : Decidable (before.Joins after) :=
  inferInstanceAs (Decidable (_ ∧ _ ∧ _))

/-- The number of runs in what is told. -/
def runs : List (UInt32 × Bool × Option DeliveryState) → Nat
  | [] => 0
  | [_] => 1
  | before :: after :: others =>
    runs (after :: others) + if GoesOn before after then 0 else 1

/-! ### Runs -/

theorem runs_of_isChain {told : List (UInt32 × Bool × Option DeliveryState)}
    (chain : told.IsChain GoesOn) :
  runs told = if told = [] then 0 else 1
  := by
  induction chain with
  | nil => rfl
  | singleton _ => rfl
  | cons_cons goesOn _ ih => rw [runs, ih, if_pos goesOn]; rfl

/-- A run may end where one list ends and another starts, or go on. -/
theorem runs_append (before : List (UInt32 × Bool × Option DeliveryState))
    (last first : UInt32 × Bool × Option DeliveryState)
    (after : List (UInt32 × Bool × Option DeliveryState)) :
  runs (before ++ last :: first :: after) + (if GoesOn last first then 1 else 0)
    = runs (before ++ [last]) + runs (first :: after)
  := by
  induction before with
  | nil =>
      change runs (first :: after) + _ + _ = 1 + runs (first :: after)
      split <;> omega
  | cons head before ih =>
      cases before with
      | nil =>
          simp only [List.nil_append, List.cons_append, runs] at ih ⊢
          omega
      | cons second before =>
          simp only [List.cons_append, runs] at ih ⊢
          omega

/-! ### What a disposition tells -/

/-- What a disposition tells starts with its first delivery. -/
theorem exists_told_eq_cons (disposition : Disposition) :
  ∃ others, disposition.told
    = (disposition.first, disposition.settled, disposition.state) :: others
  := by
  have here : disposition.first + UInt32.ofNat 0 = disposition.first := UInt32.add_zero _
  rw [told, ids, List.range_succ_eq_map, List.map_cons, List.map_cons, here]
  exact ⟨_, rfl⟩

/-- What a disposition tells ends with its last delivery. -/
theorem exists_told_eq_concat (disposition : Disposition) :
  ∃ others, disposition.told
    = others ++ [(disposition.lastId, disposition.settled, disposition.state)]
  := by
  rw [told, ids, List.range_succ, List.map_append, List.map_append, List.map_singleton,
    List.map_singleton, UInt32.ofNat_toNat, UInt32.add_comm, UInt32.sub_add_cancel]
  exact ⟨_, rfl⟩

/-- A disposition tells one run. -/
theorem runs_told (disposition : Disposition) :
  runs disposition.told = 1
  := by
  have chain : disposition.told.IsChain GoesOn := by
    rw [told, ids, List.map_map, List.isChain_map, List.isChain_range_succ]
    intro steps _
    exact ⟨by simp [UInt32.add_assoc], rfl⟩
  obtain ⟨others, heq⟩ := disposition.exists_told_eq_cons
  rw [runs_of_isChain chain, if_neg (by simp [heq])]

/-- What a disposition tells adds a run to what is told after it, unless the first run there goes
on with it. -/
theorem runs_told_append (disposition : Disposition)
    (first : UInt32 × Bool × Option DeliveryState)
    (after : List (UInt32 × Bool × Option DeliveryState)) :
  runs (disposition.told ++ first :: after)
      + (if GoesOn (disposition.lastId, disposition.settled, disposition.state) first then 1 else 0)
    = 1 + runs (first :: after)
  := by
  obtain ⟨others, heq⟩ := disposition.exists_told_eq_concat
  have runs_told := disposition.runs_told
  rw [heq] at runs_told
  rw [heq, List.append_assoc, List.singleton_append, runs_append, runs_told]

/-- It takes as many dispositions as there are runs. -/
theorem runs_le_length (dispositions : List Disposition) :
  runs (dispositions.flatMap told) ≤ dispositions.length
  := by
  induction dispositions with
  | nil => exact Nat.le_refl 0
  | cons disposition dispositions ih =>
      rw [List.flatMap_cons, List.length_cons]
      cases told_after : dispositions.flatMap told with
      | nil =>
          rw [List.append_nil, runs_told]
          omega
      | cons first after =>
          rw [told_after] at ih
          have := disposition.runs_told_append first after
          omega

/-- Dispositions none of which joins the one before it are as many as the runs they tell. -/
theorem runs_of_apart {dispositions : List Disposition}
    (apart : dispositions.IsChain fun before after => ¬ before.Joins after) :
  runs (dispositions.flatMap told) = dispositions.length
  := by
  induction apart with
  | nil => rfl
  | singleton disposition =>
      rw [List.flatMap_singleton, runs_told]
      rfl
  | @cons_cons before after others separate _ ih =>
      obtain ⟨rest, heq⟩ := after.exists_told_eq_cons
      have broken : ¬ GoesOn (before.lastId, before.settled, before.state)
          (after.first, after.settled, after.state) := by
        rintro ⟨next, same⟩
        exact separate ⟨next, congrArg Prod.fst same, congrArg Prod.snd same⟩
      have told_append := before.runs_told_append (after.first, after.settled, after.state)
        (rest ++ others.flatMap told)
      rw [if_neg broken] at told_append
      rw [List.flatMap_cons, heq, List.cons_append] at ih
      rw [List.flatMap_cons, List.flatMap_cons, heq, List.cons_append, List.length_cons]
      omega

end Disposition

namespace Settlement

variable {role : Role}

/-! ### Dispositions that settlements are told in -/

/-- The dispositions that tell settlements after those that another tells start where it starts and
say what it says. -/
theorem exists_coalesceAfter_eq_cons (role : Role) (others : List Settlement)
    (disposition : Disposition) :
  ∃ last after, coalesceAfter role disposition others = { disposition with last := last } :: after
  := by
  induction others generalizing disposition with
  | nil => exact ⟨_, _, rfl⟩
  | cons settlement others ih =>
      rw [coalesceAfter]
      split
      · obtain ⟨last, after, heq⟩ := ih { disposition with last := some settlement.id }
        exact ⟨last, after, heq⟩
      · exact ⟨_, _, rfl⟩

theorem role_coalesceAfter (others : List Settlement) (disposition : Disposition)
    (here : disposition.role = role) :
  ∀ told ∈ coalesceAfter role disposition others, told.role = role
  := by
  induction others generalizing disposition with
  | nil => simpa [coalesceAfter] using here
  | cons settlement others ih =>
      rw [coalesceAfter]
      split
      · exact ih { disposition with last := some settlement.id } here
      · exact List.forall_mem_cons.mpr ⟨here, ih (settlement.alone role) rfl⟩

/-- None of the dispositions that settlements are told in joins the one before it. -/
theorem isChain_coalesceAfter (others : List Settlement) (disposition : Disposition) :
  (coalesceAfter role disposition others).IsChain fun before after => ¬ before.Joins after
  := by
  induction others generalizing disposition with
  | nil => exact .singleton _
  | cons settlement others ih =>
      rw [coalesceAfter]
      split
      · apply ih
      · next apart =>
          have later := ih (settlement.alone role)
          obtain ⟨last, after, heq⟩ :=
            exists_coalesceAfter_eq_cons role others (settlement.alone role)
          rw [heq] at later ⊢
          exact .cons_cons (fun joins => apart (decide_eq_true joins)) later

/-- The dispositions that settlements are told in all have the role they are told in, tell each
settlement once and in order, and are the fewest that do: none joins the one before it, and any
that tell the same are as many or more. -/
theorem coalesce_fewest (role : Role) (settlements : List Settlement)
    (few : settlements.length < 2 ^ 32) :
  (coalesce role settlements).flatMap Disposition.told = settlements.map entry ∧
    (∀ disposition ∈ coalesce role settlements, disposition.role = role) ∧
    ((coalesce role settlements).IsChain fun before after => ¬ before.Joins after) ∧
    ∀ dispositions : List Disposition,
      dispositions.flatMap Disposition.told = settlements.map entry →
      (coalesce role settlements).length ≤ dispositions.length
  := by
  have told := told_coalesce role settlements few
  have apart : (coalesce role settlements).IsChain fun before after => ¬ before.Joins after := by
    cases settlements with
    | nil => exact .nil
    | cons settlement others => apply isChain_coalesceAfter
  refine ⟨told, ?_, apart, fun dispositions same => ?_⟩
  · cases settlements with
    | nil => exact fun _ absent => absurd absent List.not_mem_nil
    | cons settlement others => exact role_coalesceAfter others (settlement.alone role) rfl
  · rw [← Disposition.runs_of_apart apart, told, ← same]
    exact Disposition.runs_le_length dispositions

/-- The greatest delivery number and zero are told together; a gap, another outcome and a number
told again each take a disposition of their own. -/
theorem coalesce_fewest_of_broken :
  let settlements : List Settlement :=
    [⟨4294967295, true, .accepted⟩, ⟨0, true, .accepted⟩, ⟨2, true, .accepted⟩,
      ⟨3, true, .released⟩, ⟨3, true, .released⟩]
  settlements.length < 2 ^ 32 ∧
    coalesce .receiver settlements =
      [⟨.receiver, 4294967295, some 0, true, some .accepted, false⟩,
        ⟨.receiver, 2, none, true, some .accepted, false⟩,
        ⟨.receiver, 3, none, true, some .released, false⟩,
        ⟨.receiver, 3, none, true, some .released, false⟩] ∧
    ∀ dispositions : List Disposition,
      dispositions.flatMap Disposition.told = settlements.map entry → 4 ≤ dispositions.length
  := by
  intro settlements
  have few : settlements.length < 2 ^ 32 := by decide
  exact ⟨few, rfl, (coalesce_fewest .receiver settlements few).2.2.2⟩

end Settlement

end MessageBroker
