import MessageBroker.Proofs.Link.Unsettled
import MessageBroker.Proofs.Lists

/-!
# Unsettled deliveries by tag and by number

A delivery is added under its tag and under its number, but only the tag is looked at before.  If
the number is that of a delivery that is not settled, that delivery is overtaken: its number then
leads to the other one, and its tag stays in use with no number left that would free it.  Apart from
overtaken deliveries the two accounts are inverse to each other.
-/

namespace MessageBroker.Unsettled

/-! ### Runs -/

/-- What is done with unsettled deliveries. -/
inductive Act where
  /-- A delivery is added. -/
  | insert (tag : Bytes) (id : UInt32)
  /-- A delivery is settled. -/
  | settle (id : UInt32)
  /-- All deliveries are forgotten. -/
  | clear
  deriving DecidableEq

/-- Unsettled deliveries after something was done; a delivery that is refused changes nothing. -/
def step (unsettled : Unsettled) : Act → Unsettled
  | .insert tag id =>
    match unsettled.insert tag id with
    | .ok unsettled => unsettled
    | .error _ => unsettled
  | .settle id => (unsettled.settle id).2
  | .clear => empty

/-- What is unsettled after some acts, one after another. -/
def run (acts : List Act) : Unsettled :=
  acts.foldl step empty

theorem run_concat (acts : List Act) (act : Act) :
  run (acts ++ [act]) = (run acts).step act
  := List.foldl_concat step empty act acts

/-- The number of the delivery that carries a tag. -/
def idOf? (unsettled : Unsettled) (tag : Bytes) : Option UInt32 :=
  Table.get? unsettled.byTag tag

/-- A delivery was not settled when another one was added under its number. -/
def Overtaken (acts : List Act) (tag : Bytes) (id : UInt32) : Prop :=
  Since (fun before act => ∃ other, act = .insert other id
    ∧ (run before).byId.get? id = some tag ∧ (run before).hasTag other = false) (· ≠ .clear) acts

section

variable {unsettled : Unsettled} {tag other : Bytes} {id number : UInt32}

/-! ### By tag -/

theorem hasTag_eq_isSome (unsettled : Unsettled) (tag : Bytes) :
  unsettled.hasTag tag = (unsettled.idOf? tag).isSome
  := by
  rw [hasTag, idOf?, Table.get?, Option.isSome_map, List.isSome_find?]

theorem hasTag_iff :
  unsettled.hasTag tag = true ↔ ∃ id, unsettled.idOf? tag = some id
  := by
  rw [hasTag_eq_isSome, Option.isSome_iff_exists]

theorem insert_of_unused (unused : unsettled.hasTag tag = false) (id : UInt32) :
  unsettled.insert tag id = .ok ⟨unsettled.byTag ++ [(tag, id)], unsettled.byId.put id tag⟩
  := by
  rw [insert, unused]
  rfl

theorem step_insert_of_used (used : unsettled.hasTag tag = true) (id : UInt32) :
  unsettled.step (.insert tag id) = unsettled
  := by
  obtain ⟨report, -, refused⟩ := insert_of_used used id
  rw [step, refused]

theorem get?_step_insert (unused : unsettled.hasTag tag = false) (id number : UInt32) :
  (unsettled.step (.insert tag id)).byId.get? number
    = if number = id then some tag else unsettled.byId.get? number
  := by
  have added := insert_of_unused unused id
  rw [step, added, ← get?_insert added]

theorem idOf?_step_insert (unused : unsettled.hasTag tag = false) (id : UInt32) (other : Bytes) :
  (unsettled.step (.insert tag id)).idOf? other
    = if other = tag then some id else unsettled.idOf? other
  := by
  rw [step, insert_of_unused unused, idOf?, Table.get?, List.find?_append, Option.map_or]
  by_cases same : other = tag
  · have free : unsettled.idOf? other = none := by
      rwa [hasTag_eq_isSome, ← same, Option.isSome_eq_false_iff, Option.isNone_iff_eq_none]
        at unused
    change (unsettled.idOf? other).or _ = _
    rw [free, if_pos same]
    simp [same]
  · change (unsettled.idOf? other).or _ = _
    rw [if_neg same]
    simp [Ne.symm same]

theorem step_settle_of_none (absent : unsettled.byId.get? id = none) :
  unsettled.step (.settle id) = unsettled
  := by
  rw [step, settle, absent]

theorem idOf?_step_settle (carried : unsettled.byId.get? id = some tag) (other : Bytes) :
  (unsettled.step (.settle id)).idOf? other
    = if other = tag then none else unsettled.idOf? other
  := by
  rw [step, settle, carried]
  exact Table.get?_erase unsettled.byTag tag other

/-! ### Overtaken deliveries -/

theorem overtaken_concat (acts : List Act) (act : Act) (tag : Bytes) (id : UInt32) :
  Overtaken (acts ++ [act]) tag id
    ↔ Overtaken acts tag id ∧ act ≠ .clear ∨ ∃ other, act = .insert other id
      ∧ (run acts).byId.get? id = some tag ∧ (run acts).hasTag other = false
  := since_concat

/-- What is found by tag is what is found by number, and what was overtaken; and no delivery is
found by number that was overtaken. -/
structure Tells (acts : List Act) : Prop where
  /-- A tag leads to the number of the delivery that carries it, or carried it when it was
  overtaken. -/
  byTag : ∀ tag id, (run acts).idOf? tag = some id
    ↔ (run acts).byId.get? id = some tag ∨ Overtaken acts tag id
  /-- A delivery that was overtaken is not found by its number. -/
  apart : ∀ tag id, (run acts).byId.get? id = some tag → ¬ Overtaken acts tag id

variable {acts : List Act}

theorem Tells.nil :
  Tells []
  := by
  have untouched (tag : Bytes) (id : UInt32) : ¬ Overtaken [] tag id := by
    rintro ⟨before, act, later, split, -⟩
    exact List.cons_ne_nil _ _ (List.append_eq_nil_iff.mp split.symm).2
  constructor
  · intro tag id
    constructor
    · intro found
      contradiction
    · rintro (found | overtaken)
      · contradiction
      · exact absurd overtaken (untouched tag id)
  · intro tag id _
    exact untouched tag id

namespace Tells

theorem hasTag_of_overtaken (tells : Tells acts) (overtaken : Overtaken acts tag id) :
  (run acts).hasTag tag = true
  := hasTag_iff.mpr ⟨id, (tells.byTag tag id).mpr (.inr overtaken)⟩

/-- A tag that leads somewhere leads to one number. -/
theorem eq_of_byTag (tells : Tells acts) (carried : (run acts).byId.get? id = some tag)
    (told : (run acts).byId.get? number = some tag ∨ Overtaken acts tag number) :
  number = id
  := by
  have there := (tells.byTag tag id).mpr (.inl carried)
  rw [(tells.byTag tag number).mpr told] at there
  exact Option.some.inj there

/-- A delivery that is refused overtakes none. -/
theorem insert_of_used (tells : Tells acts) (used : (run acts).hasTag tag = true) (id : UInt32) :
  Tells (acts ++ [.insert tag id])
  := by
  have same : run (acts ++ [.insert tag id]) = run acts := by
    rw [run_concat, step_insert_of_used used]
  have overtaken (other : Bytes) (number : UInt32) :
      Overtaken (acts ++ [.insert tag id]) other number ↔ Overtaken acts other number := by
    rw [overtaken_concat]
    constructor
    · rintro (⟨overtaken, -⟩ | ⟨_, ⟨⟩, -, unused⟩)
      · exact overtaken
      · rw [used] at unused
        contradiction
    · exact fun overtaken => .inl ⟨overtaken, by simp⟩
  constructor
  · intro other number
    rw [same, overtaken]
    exact tells.byTag other number
  · intro other number
    rw [same, overtaken]
    exact tells.apart other number

/-- A delivery that is added overtakes the one that was found by its number, if there was one. -/
theorem insert_of_unused (tells : Tells acts) (unused : (run acts).hasTag tag = false)
    (id : UInt32) :
  Tells (acts ++ [.insert tag id])
  := by
  have overtaken (other : Bytes) (number : UInt32) :
      Overtaken (acts ++ [.insert tag id]) other number
        ↔ Overtaken acts other number ∨ number = id ∧ (run acts).byId.get? id = some other := by
    rw [overtaken_concat]
    constructor
    · rintro (⟨overtaken, -⟩ | ⟨_, ⟨⟩, carried, -⟩)
      · exact .inl overtaken
      · exact .inr ⟨rfl, carried⟩
    · rintro (overtaken | ⟨rfl, carried⟩)
      · exact .inl ⟨overtaken, by simp⟩
      · exact .inr ⟨tag, rfl, carried, unused⟩
  -- The tag is new, so nothing is told about it.
  have untold (number : UInt32) : ¬ ((run acts).byId.get? number = some tag
      ∨ Overtaken acts tag number) := by
    rw [← tells.byTag, ← Option.mem_def]
    intro found
    rw [hasTag_iff.mpr ⟨number, found⟩] at unused
    contradiction
  constructor
  · intro other number
    rw [run_concat, idOf?_step_insert unused, get?_step_insert unused, overtaken]
    by_cases sameTag : other = tag
    · subst sameTag
      have nowhere := untold number
      have free := untold id
      grind
    · have told := tells.byTag other number
      grind
  · intro other number
    rw [run_concat, get?_step_insert unused, overtaken]
    have nowhere := untold number
    have free := untold id
    have apart := tells.apart other number
    grind

theorem insert (tells : Tells acts) (tag : Bytes) (id : UInt32) :
  Tells (acts ++ [.insert tag id])
  := by
  cases known : (run acts).hasTag tag with
  | true => exact tells.insert_of_used known id
  | false => exact tells.insert_of_unused known id

theorem settle (tells : Tells acts) (id : UInt32) :
  Tells (acts ++ [.settle id])
  := by
  have overtaken (tag : Bytes) (number : UInt32) :
      Overtaken (acts ++ [.settle id]) tag number ↔ Overtaken acts tag number := by
    rw [overtaken_concat]
    simp
  have carried (number : UInt32) := get?_settle (run acts) id number
  constructor
  · intro tag number
    rw [overtaken, run_concat]
    cases found : (run acts).byId.get? id with
    | none =>
        rw [step_settle_of_none found]
        exact tells.byTag tag number
    | some other =>
        have left := carried number
        have told := tells.byTag tag number
        rw [idOf?_step_settle found, step, left]
        by_cases sameTag : tag = other
        · subst sameTag
          -- The tag led to the number that is settled, and to no other one.
          have one : (run acts).byId.get? number = some tag ∨ Overtaken acts tag number →
              number = id := tells.eq_of_byTag found
          have apart := tells.apart tag id found
          grind
        · grind
  · intro tag number still
    rw [run_concat, step, carried] at still
    rw [overtaken]
    split at still
    · contradiction
    · exact tells.apart tag number still

theorem clear (acts : List Act) :
  Tells (acts ++ [.clear])
  := by
  have overtaken (tag : Bytes) (number : UInt32) :
      ¬ Overtaken (acts ++ [.clear]) tag number := by
    rw [overtaken_concat]
    simp
  constructor
  · intro tag number
    rw [run_concat]
    have gone := overtaken tag number
    simp only [gone, or_false]
    constructor <;> intro found <;> contradiction
  · intro tag number _
    exact overtaken tag number

end Tells

theorem tells (acts : List Act) :
  Tells acts
  := by
  induction acts using List.reverseRecOn with
  | nil => exact .nil
  | append_singleton acts act ih =>
      cases act with
      | insert tag id => exact ih.insert tag id
      | settle id => exact ih.settle id
      | clear => exact .clear acts

/-! ### Every delivery settled -/

theorem get?_run_settle (acts : List Act) (ids : List UInt32) (number : UInt32) :
  (run (acts ++ ids.map .settle)).byId.get? number
    = if number ∈ ids then none else (run acts).byId.get? number
  := by
  induction ids using List.reverseRecOn with
  | nil => simp
  | append_singleton ids id ih =>
      rw [List.map_append, ← List.append_assoc, List.map_singleton, run_concat, step, get?_settle,
        ih]
      by_cases same : number = id <;> simp [same]

theorem overtaken_settle (acts : List Act) (ids : List UInt32) (tag : Bytes) (id : UInt32) :
  Overtaken (acts ++ ids.map .settle) tag id ↔ Overtaken acts tag id
  := by
  induction ids using List.reverseRecOn with
  | nil => simp
  | append_singleton ids last ih =>
      rw [List.map_append, ← List.append_assoc, List.map_singleton, overtaken_concat, ih]
      simp

/-- Once every delivery was settled that is found by its number, only the tags of those are in use
that were overtaken. -/
theorem hasTag_run_settle (acts : List Act) (tag : Bytes) :
  (run (acts ++ (run acts).ids.map .settle)).hasTag tag = true ↔ ∃ id, Overtaken acts tag id
  := by
  have gone (id : UInt32) :
      (run (acts ++ (run acts).ids.map .settle)).byId.get? id = none := by
    rw [get?_run_settle]
    split
    · rfl
    · next absent => exact Table.get?_eq_none_iff.mpr absent
  rw [hasTag_iff]
  simp only [(tells _).byTag, gone, overtaken_settle, reduceCtorEq, false_or]

/-- A tag is refused exactly if it is in use. -/
theorem insert_eq_error_iff (unsettled : Unsettled) (tag : Bytes) (id : UInt32) :
  (∃ report, unsettled.insert tag id = .error report) ↔ unsettled.hasTag tag = true
  := by
  constructor
  · rintro ⟨report, refused⟩
    by_contra unused
    rw [insert_of_unused (by simpa using unused)] at refused
    contradiction
  · intro used
    obtain ⟨report, -, refused⟩ := insert_of_used used id
    exact ⟨report, refused⟩

theorem hasTag_run (acts : List Act) (tag : Bytes) :
  (run acts).hasTag tag = true
    ↔ (∃ id ∈ (run acts).ids, (run acts).byId.get? id = some tag) ∨ ∃ id, Overtaken acts tag id
  := by
  simp only [hasTag_iff, (tells acts).byTag, exists_or]
  constructor
  · rintro (⟨id, carried⟩ | overtaken)
    · exact .inl ⟨id, Table.mem_keys_of_get? carried, carried⟩
    · exact .inr overtaken
  · rintro (⟨id, -, carried⟩ | overtaken)
    · exact .inl ⟨id, carried⟩
    · exact .inr overtaken

end

/-- By tag and by number the same deliveries are found, but for those that were overtaken: these are
found by tag alone.  A tag is refused if a delivery that is found by its number carries it, or one
that was overtaken; when all those that are found by number are settled, just the tags of the
overtaken ones stay in use, and they do so whatever happens until all is forgotten. -/
theorem inverse_unless_overtaken (acts : List Act) :
  (∀ tag id, (run acts).idOf? tag = some id
      ↔ (run acts).byId.get? id = some tag ∨ Overtaken acts tag id)
    ∧ (∀ tag id, (run acts).byId.get? id = some tag
      ↔ (run acts).idOf? tag = some id ∧ ¬ Overtaken acts tag id)
    ∧ (∀ tag, (run acts).hasTag tag = true
      ↔ (∃ id ∈ (run acts).ids, (run acts).byId.get? id = some tag) ∨ ∃ id, Overtaken acts tag id)
    ∧ (∀ tag id, (∃ report, (run acts).insert tag id = .error report)
      ↔ (run acts).hasTag tag = true)
    ∧ (∀ tag, (run (acts ++ (run acts).ids.map .settle)).hasTag tag = true
      ↔ ∃ id, Overtaken acts tag id)
    ∧ ∀ tag id, Overtaken acts tag id → ∀ more, .clear ∉ more →
      (run (acts ++ more)).hasTag tag = true
  := by
  have told := tells acts
  refine ⟨told.byTag, fun tag id => ⟨fun carried => ?_, fun ⟨found, kept⟩ => ?_⟩, hasTag_run acts,
    insert_eq_error_iff (run acts), hasTag_run_settle acts, fun tag id overtaken more kept => ?_⟩
  · exact ⟨(told.byTag tag id).mpr (.inl carried), told.apart tag id carried⟩
  · exact ((told.byTag tag id).mp found).resolve_right kept
  · apply (tells _).hasTag_of_overtaken
    exact Since.append overtaken fun act member same => kept (same ▸ member)

/-- The second delivery is added under the number of the first one, and settled. -/
theorem inverse_unless_overtaken_of_reused :
  let acts : List Act := [.insert [0x61] 0, .insert [0x62] 0]
  Overtaken acts [0x61] 0 ∧ (run (acts ++ [.settle 0])).ids = []
    ∧ (run (acts ++ [.settle 0])).hasTag [0x61] = true
  := by
  intro acts
  have overtaken : Overtaken acts [0x61] 0 :=
    ⟨[.insert [0x61] 0], .insert [0x62] 0, [], rfl, ⟨[0x62], rfl, by decide, by decide⟩, by simp⟩
  obtain ⟨-, -, -, -, -, lasts⟩ := inverse_unless_overtaken acts
  exact ⟨overtaken, by decide, lasts [0x61] 0 overtaken [.settle 0] (by decide)⟩

end MessageBroker.Unsettled
