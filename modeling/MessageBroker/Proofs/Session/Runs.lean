import MessageBroker.Proofs.Session.Dispositions

/-!
# Runs of deliveries

A disposition tells the same about a run of deliveries.  Who writes it counts on from the greatest
delivery number to zero; who reads it compares numbers, and finds no delivery in a run that wraps.
The dispositions that tell settlements together tell each of them, once and in order; those that do
not wrap are read as they were written.
-/

namespace MessageBroker

namespace Disposition

variable {disposition : Disposition}

/-- The deliveries from the first to the last, going on from the greatest number to zero. -/
def ids (disposition : Disposition) : List UInt32 :=
  (List.range ((disposition.lastId - disposition.first).toNat + 1)).map
    fun steps => disposition.first + UInt32.ofNat steps

/-- What is told about each of these deliveries. -/
def told (disposition : Disposition) : List (UInt32 × Bool × Option DeliveryState) :=
  disposition.ids.map fun id => (id, disposition.settled, disposition.state)

/-- The run goes on from the greatest number to zero. -/
def Wraps (disposition : Disposition) : Prop :=
  2 ^ 32 < disposition.first.toNat + disposition.ids.length

@[simp]
theorem length_ids :
  disposition.ids.length = (disposition.lastId - disposition.first).toNat + 1
  := by
  rw [ids, List.length_map, List.length_range]

theorem wraps_iff :
  disposition.Wraps ↔ disposition.lastId < disposition.first
  := by
  have first_lt := disposition.first.toNat_lt
  have last_lt := disposition.lastId.toNat_lt
  rw [Wraps, length_ids, UInt32.lt_iff_toNat_lt, UInt32.toNat_sub]
  omega

theorem mem_ids {id : UInt32} :
  id ∈ disposition.ids
    ↔ (id - disposition.first).toNat ≤ (disposition.lastId - disposition.first).toNat
  := by
  rw [ids, List.mem_map]
  constructor
  · rintro ⟨steps, hsteps, rfl⟩
    rw [List.mem_range] at hsteps
    rw [UInt32.add_comm, UInt32.add_sub_cancel, UInt32.toNat_ofNat']
    exact Nat.le_trans (Nat.mod_le _ _) (Nat.le_of_lt_succ hsteps)
  · intro h
    refine ⟨(id - disposition.first).toNat, List.mem_range.mpr (Nat.lt_succ_of_le h), ?_⟩
    rw [UInt32.ofNat_toNat, UInt32.add_comm, UInt32.sub_add_cancel]

/-- Who reads a disposition finds the deliveries of its run, unless the run wraps. -/
theorem covers_iff {id : UInt32} :
  Session.covers disposition id = true ↔ ¬ disposition.Wraps ∧ id ∈ disposition.ids
  := by
  have first_lt := disposition.first.toNat_lt
  have last_lt := disposition.lastId.toNat_lt
  have id_lt := id.toNat_lt
  rw [Session.covers, decide_eq_true_iff, wraps_iff, mem_ids, UInt32.lt_iff_toNat_lt,
    UInt32.le_iff_toNat_le, UInt32.le_iff_toNat_le, UInt32.toNat_sub, UInt32.toNat_sub]
  omega

/-- A run with the next delivery, unless it has all the numbers. -/
theorem ids_extended {id : UInt32} (next : disposition.lastId + 1 = id)
    (room : disposition.ids.length < 2 ^ 32) :
  ({ disposition with last := some id } : Disposition).ids = disposition.ids ++ [id]
  := by
  have steps : (id - disposition.first).toNat
      = (disposition.lastId - disposition.first).toNat + 1 := by
    have first_lt := disposition.first.toNat_lt
    have last_lt := disposition.lastId.toNat_lt
    rw [length_ids, UInt32.toNat_sub] at room
    rw [← next, UInt32.toNat_sub, UInt32.toNat_sub, UInt32.toNat_add, UInt32.toNat_one]
    omega
  have there : disposition.first + UInt32.ofNat ((id - disposition.first).toNat) = id := by
    rw [UInt32.ofNat_toNat, UInt32.add_comm, UInt32.sub_add_cancel]
  rw [steps] at there
  change (List.range ((id - disposition.first).toNat + 1)).map _ = _
  rw [steps, List.range_succ, List.map_append, List.map_singleton, there]
  rfl

end Disposition

namespace Settlement

variable {role : Role} {disposition : Disposition}

/-- What a settlement tells. -/
def entry (settlement : Settlement) : UInt32 × Bool × Option DeliveryState :=
  (settlement.id, settlement.settled, some settlement.state)

theorem ids_alone (settlement : Settlement) :
  (settlement.alone role).ids = [settlement.id]
  := by
  have here : settlement.id - settlement.id = 0 := UInt32.sub_self _
  change (List.range ((settlement.id - settlement.id).toNat + 1)).map _ = _
  rw [here]
  simp [alone]

theorem told_alone (settlement : Settlement) :
  (settlement.alone role).told = [settlement.entry]
  := by
  rw [Disposition.told, ids_alone]
  rfl

/-- A disposition that tells a settlement too. -/
theorem told_extended {settlement : Settlement} (follows : settlement.follows disposition = true)
    (room : disposition.ids.length < 2 ^ 32) :
  ({ disposition with last := some settlement.id } : Disposition).told
    = disposition.told ++ [settlement.entry]
  := by
  obtain ⟨next, settled, state⟩ := of_decide_eq_true follows
  rw [Disposition.told, Disposition.ids_extended next room, List.map_append, Disposition.told,
    entry, ← settled, ← state]
  rfl

/-- Each settlement is told once, and in order, unless there are more than numbers. -/
theorem told_coalesceAfter (others : List Settlement) (disposition : Disposition)
    (few : disposition.ids.length + others.length ≤ 2 ^ 32) :
  (coalesceAfter role disposition others).flatMap Disposition.told
    = disposition.told ++ others.map entry
  := by
  induction others generalizing disposition with
  | nil => simp [coalesceAfter]
  | cons settlement others ih =>
      rw [List.length_cons] at few
      rw [coalesceAfter]
      split
      · next follows =>
          have room : disposition.ids.length < 2 ^ 32 := by omega
          have extended := Disposition.ids_extended (of_decide_eq_true follows).1 room
          rw [ih, told_extended follows room, List.append_assoc]
          · rfl
          · rw [extended, List.length_append, List.length_singleton]
            omega
      · rw [List.flatMap_cons, ih, told_alone]
        · rfl
        · rw [ids_alone, List.length_singleton]
          omega

/-- Dispositions tell each settlement once, and in order. -/
theorem told_coalesce (role : Role) (settlements : List Settlement)
    (few : settlements.length < 2 ^ 32) :
  (coalesce role settlements).flatMap Disposition.told = settlements.map entry
  := by
  cases settlements with
  | nil => rfl
  | cons settlement others =>
      rw [List.length_cons] at few
      rw [coalesce, told_coalesceAfter, told_alone]
      · rfl
      · rw [ids_alone, List.length_singleton]
        omega

/-- What is told last is said of the last settlement. -/
theorem exists_getLast?_coalesceAfter (disposition : Disposition) (settlements : List Settlement)
    (last : Settlement) :
  ∃ told, (coalesceAfter role disposition (settlements ++ [last])).getLast? = some told
    ∧ told.settled = last.settled
  := by
  induction settlements generalizing disposition with
  | nil =>
      rw [List.nil_append, coalesceAfter]
      split
      · next follows => exact ⟨_, rfl, (of_decide_eq_true follows).2.1⟩
      · exact ⟨last.alone role, rfl, rfl⟩
  | cons settlement settlements ih =>
      rw [List.cons_append, coalesceAfter]
      split
      · apply ih
      · obtain ⟨told, htold, hsettled⟩ := ih (settlement.alone role)
        exact ⟨told, by rw [List.getLast?_cons, htold, Option.getD_some], hsettled⟩

theorem exists_getLast?_coalesce (role : Role) (settlements : List Settlement)
    (last : Settlement) :
  ∃ told, (coalesce role (settlements ++ [last])).getLast? = some told
    ∧ told.settled = last.settled
  := by
  cases settlements with
  | nil => exact ⟨last.alone role, rfl, rfl⟩
  | cons settlement settlements => apply exists_getLast?_coalesceAfter

theorem ids_coalesce (role : Role) (settlements : List Settlement)
    (few : settlements.length < 2 ^ 32) :
  (coalesce role settlements).flatMap Disposition.ids = settlements.map (·.id)
  := by
  have told := congrArg (List.map (·.1)) (told_coalesce role settlements few)
  rw [List.map_flatMap, List.map_map] at told
  apply Eq.trans _ told
  congr 1
  funext disposition
  rw [Disposition.told, List.map_map]
  exact (List.map_id _).symm

end Settlement

/-! ### Dispositions that are read -/

namespace Session

variable {session : Session} {disposition : Disposition}

theorem get?_incomingUnsettled_forget (session : Session) (id other : UInt32) :
  (session.forget id).incomingUnsettled.get? other
    = if other = id then none else session.incomingUnsettled.get? other
  := by
  rw [forget]
  split
  · exact Table.get?_erase _ id other
  · next absent =>
      split
      · next same => rw [same, absent]
      · rfl

theorem get?_incomingUnsettled_foldl_forget (ids : List UInt32) (session : Session)
    (other : UInt32) :
  (ids.foldl forget session).incomingUnsettled.get? other
    = if other ∈ ids then none else session.incomingUnsettled.get? other
  := by
  induction ids generalizing session with
  | nil => simp
  | cons id ids ih =>
      rw [List.foldl_cons, ih, get?_incomingUnsettled_forget]
      simp only [List.mem_cons]
      grind

/-- A session forgets the deliveries that a disposition settles and that it finds in it. -/
theorem get?_incomingUnsettled_onSenderDisposition (session : Session)
    (settled : disposition.settled = true) (id : UInt32) :
  (session.onSenderDisposition disposition).incomingUnsettled.get? id
    = if covers disposition id then none else session.incomingUnsettled.get? id
  := by
  rw [onSenderDisposition, if_pos settled, get?_incomingUnsettled_foldl_forget]
  by_cases covered : covers disposition id = true
  · rw [if_pos covered]
    split
    · rfl
    · next absent =>
        apply Table.get?_eq_none_iff.mpr
        intro present
        exact absent (List.mem_filter.mpr ⟨present, covered⟩)
  · rw [if_neg covered, if_neg]
    intro present
    exact covered (List.mem_filter.mp present).2

/-- The deliveries that a disposition settles, unless its state is no outcome, are those sent that
are found in it. -/
theorem mem_decided_iff (session : Session) (settled : disposition.settled = true)
    (terminal : ∀ state, disposition.state = some state → state.isTerminal = true) (id : UInt32) :
  id ∈ (session.decided disposition).map (·.1)
    ↔ id ∈ session.outgoingUnsettled.keys ∧ covers disposition id = true
  := by
  have rows := congrArg Table.keys (@deliveries_verdicts session _ settled terminal)
  have keys : (session.decided disposition).map (·.1)
      = Table.keys (session.covered disposition) := by
    rw [← rows, verdicts, Table.keys, List.map_map]
    rfl
  rw [keys, covered, Table.keys, Table.keys]
  simp only [List.mem_map, List.mem_filter]
  grind

end Session

/-- The peer's outcomes for a run that wraps are not carried out. -/
theorem Operation.onReceiverDisposition_of_wraps {disposition : Disposition}
    (wraps : disposition.Wraps) (s : Serving) :
  Operation.onReceiverDisposition disposition s = .ok () s
  := by
  rw [Operation.onReceiverDisposition, if_pos (Disposition.wraps_iff.mp wraps)]
  rfl

/-- The runs that settlements are told in hold just these settlements, in order.  A run that does
not wrap is read as it was written: the deliveries in it, and no others, are settled.  In one that
wraps no delivery is found. -/
theorem Settlement.coalesce_as_read (role : Role) (settlements : List Settlement)
    (few : settlements.length < 2 ^ 32) :
  (coalesce role settlements).flatMap Disposition.ids = settlements.map (·.id) ∧
    ((∀ disposition ∈ coalesce role settlements, ¬ disposition.Wraps) →
      ∀ id, (∃ disposition ∈ coalesce role settlements, Session.covers disposition id = true)
        ↔ id ∈ settlements.map (·.id)) ∧
    ∀ disposition ∈ coalesce role settlements,
      (∀ id, Session.covers disposition id = true
        ↔ ¬ disposition.Wraps ∧ id ∈ disposition.ids) ∧
      (disposition.settled = true → ∀ session : Session, ∀ id,
        (session.onSenderDisposition disposition).incomingUnsettled.has id = true
          ↔ session.incomingUnsettled.has id = true
            ∧ (disposition.Wraps ∨ id ∉ disposition.ids)) ∧
      (disposition.settled = true →
        (∀ state, disposition.state = some state → state.isTerminal = true) →
        ∀ session : Session, ∀ id, id ∈ (session.decided disposition).map (·.1)
          ↔ id ∈ session.outgoingUnsettled.keys
            ∧ ¬ disposition.Wraps ∧ id ∈ disposition.ids) ∧
      (disposition.Wraps → ∀ s : Serving,
        Operation.onReceiverDisposition disposition s = .ok () s)
  := by
  have told := ids_coalesce role settlements few
  refine ⟨told, fun straight id => ?_, fun disposition _ => ⟨fun id => ?_, ?_, ?_, ?_⟩⟩
  · rw [← told, List.mem_flatMap]
    constructor
    · rintro ⟨disposition, hmem, hcovers⟩
      exact ⟨disposition, hmem, (Disposition.covers_iff.mp hcovers).2⟩
    · rintro ⟨disposition, hmem, hid⟩
      exact ⟨disposition, hmem, Disposition.covers_iff.mpr ⟨straight disposition hmem, hid⟩⟩
  · apply Disposition.covers_iff
  · intro settled session id
    rw [Table.has, session.get?_incomingUnsettled_onSenderDisposition settled, Table.has]
    have covers := @Disposition.covers_iff disposition id
    split
    · next covered => simp [covers.mp covered]
    · next uncovered =>
        have outside := mt covers.mpr uncovered
        grind
  · intro settled terminal session id
    rw [session.mem_decided_iff settled terminal, Disposition.covers_iff]
  · exact Operation.onReceiverDisposition_of_wraps

/-- The greatest delivery number and zero are told in one run, in which neither is found. -/
theorem Settlement.coalesce_as_read_of_wrapped :
  let settlements : List Settlement := [⟨4294967295, true, .accepted⟩, ⟨0, true, .accepted⟩]
  let run : Disposition := ⟨.sender, 4294967295, some 0, true, some .accepted, false⟩
  settlements.length < 2 ^ 32 ∧ coalesce .sender settlements = [run] ∧
    run.Wraps ∧ [run].flatMap Disposition.ids = [4294967295, 0] ∧
    Session.covers run 4294967295 = false ∧ Session.covers run 0 = false
  := by
  intro settlements run
  have few : settlements.length < 2 ^ 32 := by decide
  have one : coalesce .sender settlements = [run] := rfl
  have wraps : run.Wraps := Disposition.wraps_iff.mpr (by decide)
  obtain ⟨told, -, read⟩ := coalesce_as_read .sender settlements few
  rw [one] at told read
  have unread (id : UInt32) : Session.covers run id = false := by
    apply Bool.eq_false_iff.mpr
    intro covers
    exact ((read run (List.mem_singleton_self run)).1 id |>.mp covers).1 wraps
  exact ⟨few, one, wraps, told, unread _, unread _⟩

end MessageBroker
