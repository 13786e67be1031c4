import MessageBroker.Link.Unsettled
import MessageBroker.Proofs.Table

/-!
# Laws of unsettled deliveries

The deliveries of a link are kept twice, by tag and by number.  The two accounts agree, and no tag
is carried by two deliveries, as long as no number is used again while its delivery is unsettled.
-/

namespace MessageBroker.Unsettled

variable {unsettled : Unsettled} {tag : Bytes} {id : UInt32}

/-- The tags in use are those of the deliveries that are unsettled, each that of one delivery. -/
structure Agrees (unsettled : Unsettled) : Prop where
  /-- A tag is in use if an unsettled delivery carries it. -/
  used : ∀ tag, unsettled.hasTag tag = true ↔ ∃ id, unsettled.byId.get? id = some tag
  /-- No two deliveries carry one tag. -/
  single : ∀ tag id id', unsettled.byId.get? id = some tag → unsettled.byId.get? id' = some tag →
    id = id'

theorem Agrees.empty :
  empty.Agrees
  := by
  constructor
  · intro tag
    constructor
    · intro used
      contradiction
    · rintro ⟨id, h⟩
      contradiction
  · intro tag id id' h
    contradiction

/-- A tag that is in use may not be used again. -/
theorem insert_of_used (used : unsettled.hasTag tag = true) (id : UInt32) :
  ∃ report, report.condition = Condition.illegalState.symbol
    ∧ unsettled.insert tag id = .error report
  := by
  rw [insert, if_pos used]
  exact ⟨_, rfl, rfl⟩

/-! ### What is found afterwards -/

theorem get?_insert {unsettled' : Unsettled} (h : unsettled.insert tag id = .ok unsettled')
    (other : UInt32) :
  unsettled'.byId.get? other = if other = id then some tag else unsettled.byId.get? other
  := by
  rw [insert] at h
  split at h
  · contradiction
  · cases h
    apply Table.get?_put

theorem get?_settle (unsettled : Unsettled) (id other : UInt32) :
  (unsettled.settle id).2.byId.get? other
    = if other = id then none else unsettled.byId.get? other
  := by
  rw [settle]
  split
  · apply Table.get?_erase
  · next absent =>
      split
      · next same => rw [same, absent]
      · rfl

/-! ### Deliveries are only settled -/

/-- Deliveries are settled, and none is added: a tag that is in use then was so before, and is that
of the deliveries that carried it. -/
structure Fades (unsettled unsettled' : Unsettled) : Prop where
  /-- A tag that is in use was in use before. -/
  used : ∀ tag, unsettled'.hasTag tag = true → unsettled.hasTag tag = true
  /-- A tag that is in use is carried by the deliveries that carried it. -/
  carried : ∀ tag id, unsettled'.hasTag tag = true → unsettled.byId.get? id = some tag →
    unsettled'.byId.get? id = some tag

theorem Fades.refl (unsettled : Unsettled) :
  unsettled.Fades unsettled
  := ⟨fun _ h => h, fun _ _ _ h => h⟩

theorem Fades.trans {unsettled' unsettled'' : Unsettled} (h : unsettled.Fades unsettled')
    (h' : unsettled'.Fades unsettled'') :
  unsettled.Fades unsettled''
  := by
  constructor
  · exact fun tag hused => h.used tag (h'.used tag hused)
  · intro tag id hused hcarried
    exact h'.carried tag id hused (h.carried tag id (h'.used tag hused) hcarried)

/-- The tags in use once a delivery was settled. -/
theorem hasTag_settle (unsettled : Unsettled) (id : UInt32) (tag : Bytes) :
  (unsettled.settle id).2.hasTag tag
    = (unsettled.hasTag tag && decide (unsettled.byId.get? id ≠ some tag))
  := by
  rw [settle]
  cases hcarried : unsettled.byId.get? id with
  | none => simp
  | some other =>
      simp only [hasTag, List.any_filter]
      rw [Bool.eq_iff_iff]
      simp only [List.any_eq_true, Bool.and_eq_true, decide_eq_true_eq]
      grind

theorem fades_settle (unsettled : Unsettled) (id : UInt32) :
  unsettled.Fades (unsettled.settle id).2
  := by
  constructor
  · intro tag hused
    rw [hasTag_settle, Bool.and_eq_true] at hused
    exact hused.1
  · intro tag other hused hcarried
    rw [hasTag_settle, Bool.and_eq_true, decide_eq_true_eq] at hused
    rw [get?_settle, if_neg, hcarried]
    rintro rfl
    exact hused.2 hcarried

/-! ### The tag of a delivery that arrives -/

/-- A tag is reserved for a delivery: it is free if the delivery was refused, and otherwise no other
delivery carries it, as long as the peer has not settled the delivery. -/
structure Reserves (refused settled : Bool) (id : UInt32) (tag : Bytes) (unsettled : Unsettled) :
    Prop where
  /-- The tag is that of the delivery, if it is in use. -/
  own : refused = false → settled = false → unsettled.hasTag tag = true →
    unsettled.byId.get? id = some tag
  /-- The tag is not in use once the delivery was refused. -/
  free : refused = true → unsettled.hasTag tag = false

theorem reserves_insert {unsettled' : Unsettled} (h : unsettled.insert tag id = .ok unsettled') :
  unsettled'.Reserves false false id tag
  := by
  refine ⟨fun _ _ _ => ?_, fun refused => by contradiction⟩
  rw [get?_insert h, if_pos rfl]

namespace Reserves

variable {unsettled' : Unsettled} {refused settled : Bool}

theorem of_fades (reserves : unsettled.Reserves refused settled id tag)
    (fades : unsettled.Fades unsettled') :
  unsettled'.Reserves refused settled id tag
  := by
  constructor
  · intro kept unsettled used
    exact fades.carried tag id used (reserves.own kept unsettled (fades.used tag used))
  · intro gone
    have unused := reserves.free gone
    by_contra used
    rw [fades.used tag (by simpa using used)] at unused
    contradiction

theorem of_settled {settled' : Bool} (reserves : unsettled.Reserves refused settled id tag)
    (more : settled' = false → settled = false) :
  unsettled.Reserves refused settled' id tag
  := ⟨fun kept h => reserves.own kept (more h), reserves.free⟩

/-- The tag is free when the delivery is settled. -/
theorem settle (reserves : unsettled.Reserves false false id tag) :
  (unsettled.settle id).2.hasTag tag = false
  := by
  rw [hasTag_settle]
  cases used : unsettled.hasTag tag with
  | false => rfl
  | true => simp [reserves.own rfl rfl used]

end Reserves

/-! ### The accounts agree -/

theorem Agrees.insert {unsettled' : Unsettled} (agrees : unsettled.Agrees)
    (new : unsettled.byId.get? id = none) (h : unsettled.insert tag id = .ok unsettled') :
  unsettled'.Agrees
  := by
  have found := get?_insert h
  rw [Unsettled.insert] at h
  split at h
  · contradiction
  · next unused =>
      have untold (other : UInt32) : unsettled.byId.get? other ≠ some tag :=
        fun hother => unused ((agrees.used tag).mpr ⟨other, hother⟩)
      obtain rfl := Except.ok.inj h
      constructor
      · intro other
        have used := agrees.used other
        have tags : hasTag ⟨unsettled.byTag ++ [(tag, id)], unsettled.byId.put id tag⟩ other = true
            ↔ unsettled.hasTag other = true ∨ tag = other := by
          simp [hasTag]
        rw [tags, used]
        constructor
        · rintro (⟨number, hnumber⟩ | rfl)
          · refine ⟨number, ?_⟩
            rw [found, if_neg, hnumber]
            rintro rfl
            rw [new] at hnumber
            contradiction
          · exact ⟨id, by rw [found, if_pos rfl]⟩
        · rintro ⟨number, hnumber⟩
          rw [found] at hnumber
          split at hnumber
          · exact .inr (Option.some.inj hnumber)
          · exact .inl ⟨number, hnumber⟩
      · intro other number number' hnumber hnumber'
        rw [found] at hnumber hnumber'
        split at hnumber
        · obtain rfl := Option.some.inj hnumber
          split at hnumber'
          · next h h' => rw [h, h']
          · exact absurd hnumber' (untold number')
        · split at hnumber'
          · obtain rfl := Option.some.inj hnumber'
            exact absurd hnumber (untold number)
          · exact agrees.single other number number' hnumber hnumber'

theorem Agrees.settle (agrees : unsettled.Agrees) (id : UInt32) :
  (unsettled.settle id).2.Agrees
  := by
  have found := get?_settle unsettled id
  constructor
  · intro other
    cases hcarried : unsettled.byId.get? id with
    | none =>
        have same : (unsettled.settle id).2 = unsettled := by rw [Unsettled.settle, hcarried]
        rw [same]
        exact agrees.used other
    | some tag =>
        have tags : (unsettled.settle id).2.hasTag other = true
            ↔ unsettled.hasTag other = true ∧ other ≠ tag := by
          rw [hasTag_settle, hcarried, Bool.and_eq_true, decide_eq_true_eq, ne_eq,
            Option.some.injEq, ← ne_eq, ne_comm]
        rw [tags, agrees.used other]
        constructor
        · rintro ⟨⟨number, hnumber⟩, differs⟩
          refine ⟨number, ?_⟩
          rw [found, if_neg, hnumber]
          rintro rfl
          rw [hcarried] at hnumber
          exact differs (Option.some.inj hnumber).symm
        · rintro ⟨number, hnumber⟩
          rw [found] at hnumber
          split at hnumber
          · contradiction
          · next differs =>
              refine ⟨⟨number, hnumber⟩, ?_⟩
              rintro rfl
              exact differs (agrees.single other number id hnumber hcarried)
  · intro other number number' hnumber hnumber'
    rw [found] at hnumber hnumber'
    split at hnumber
    · contradiction
    · split at hnumber'
      · contradiction
      · exact agrees.single other number number' hnumber hnumber'

end MessageBroker.Unsettled
