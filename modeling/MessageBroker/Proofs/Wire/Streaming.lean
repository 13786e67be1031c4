import MessageBroker.Proofs.Wire.Taking

/-!
# Readers of a stream

The octets that a reader is given may be the first of a stream whose other octets have not arrived.
A reader streams if it can be run on what has arrived: what it finds, and why it refuses, stays the
same when further octets arrive; and where it finds too few octets it asks for no more than are
missing.  Readers that stream do so when they are run one after another.
-/

namespace MessageBroker

namespace Reader

variable {α β : Type} {takesAll : Prop}

theorem bind_of_error {reader : Reader α} {next : α → Reader β} {cursor cursor' : Cursor}
    {error : DecodeError} (h : reader cursor = .error error cursor') :
  (reader >>= next) cursor = .error error cursor'
  := by
  change EStateM.bind reader next cursor = .error error cursor'
  rw [EStateM.bind, h]

/-- A reader that has a result after another one did so on what the other one left. -/
theorem exists_of_bind_ok {reader : Reader α} {next : α → Reader β} {cursor cursor' : Cursor}
    {b : β} (h : (reader >>= next) cursor = .ok b cursor') :
  ∃ a middle, reader cursor = .ok a middle ∧ next a middle = .ok b cursor'
  := by
  cases hfirst : reader cursor with
  | ok a middle =>
      rw [bind_of_ok hfirst] at h
      exact ⟨a, middle, rfl, h⟩
  | error error middle =>
      rw [bind_of_error hfirst] at h
      contradiction

/-! ### Octets that a reader looks at -/

/-- The reader finds `a` at the front of `bytes`.  It looks at the octets up to `reach`, and takes
those up to `taken`. -/
structure Finds (reader : Reader α) (position : Nat) (bytes : Bytes) (a : α) (taken reach : Nat) :
    Prop where
  /-- What it takes it looks at. -/
  taken_le : taken ≤ reach
  /-- The octets that it looks at are there. -/
  reach_le : reach ≤ bytes.length
  /-- Wherever these octets are in front, it finds the same. -/
  found : ∀ octets, bytes.take reach <+: octets →
    reader ⟨position, octets⟩ = .ok a ⟨position + taken, octets.drop taken⟩
  /-- Where some of them are missing, it asks for no more than those. -/
  starved : ∀ cut < reach, ∃ needed cursor,
    reader ⟨position, bytes.take cut⟩ = .error (.insufficientData needed) cursor
      ∧ 0 < needed ∧ cut + needed ≤ reach

namespace Finds

variable {reader : Reader α} {next : α → Reader β} {position : Nat} {bytes : Bytes} {a : α} {b : β}
  {taken taken' reach reach' : Nat}

theorem here (finds : Finds reader position bytes a taken reach) :
  reader ⟨position, bytes⟩ = .ok a ⟨position + taken, bytes.drop taken⟩
  := finds.found bytes (List.take_prefix reach bytes)

/-- The reader leaves the octets after those that it takes. -/
theorem left (finds : Finds reader position bytes a taken reach) {a' : α} {cursor : Cursor}
    (h : reader ⟨position, bytes⟩ = .ok a' cursor) :
  cursor = ⟨position + taken, bytes.drop taken⟩
  := by
  rw [finds.here] at h
  cases h
  rfl

/-- Two readers, one after another, look as far as either of them. -/
theorem bind (first : Finds reader position bytes a taken reach)
    (second : Finds (next a) (position + taken) (bytes.drop taken) b taken' reach') :
  Finds (reader >>= next) position bytes b (taken + taken') (max reach (taken + reach'))
  := by
  have taken_le := first.taken_le
  have reach_le := first.reach_le
  have reach'_le := second.reach_le
  rw [List.length_drop] at reach'_le
  constructor
  case taken_le =>
    have taken'_le := second.taken_le
    omega
  case reach_le => omega
  case found =>
    intro octets infront
    have here := first.found octets
      ((List.take_prefix_take_left (Nat.le_max_left _ _)).trans infront)
    rw [bind_of_ok here, second.found, List.drop_drop, Nat.add_assoc]
    obtain ⟨more, rfl⟩ := infront
    rw [List.drop_append_of_le_length (by rw [List.length_take]; omega), List.drop_take]
    exact (List.take_prefix_take_left (by omega)).trans (List.prefix_append _ _)
  case starved =>
    intro cut short
    by_cases enough : reach ≤ cut
    · have here := first.found (bytes.take cut) (List.take_prefix_take_left enough)
      rw [List.drop_take] at here
      obtain ⟨needed, cursor, hstarved, hpositive, hbound⟩ :=
        second.starved (cut - taken) (by omega)
      refine ⟨needed, cursor, ?_, hpositive, by omega⟩
      rw [bind_of_ok here, hstarved]
    · obtain ⟨needed, cursor, hstarved, hpositive, hbound⟩ := first.starved cut (by omega)
      refine ⟨needed, cursor, ?_, hpositive, by omega⟩
      rw [bind_of_error hstarved]

/-- What is computed from the thing found needs no further octets. -/
theorem map (f : α → β) (finds : Finds reader position bytes a taken reach) :
  Finds (f <$> reader) position bytes (f a) taken reach
  := by
  rw [map_eq_pure_bind]
  refine ⟨finds.taken_le, finds.reach_le, fun octets infront => ?_, fun cut short => ?_⟩
  · exact bind_of_ok (finds.found octets infront)
  · obtain ⟨needed, cursor, hstarved, hneeded⟩ := finds.starved cut short
    exact ⟨needed, cursor, bind_of_error hstarved, hneeded⟩

end Finds

/-- What the reader finds without looking at octets. -/
theorem finds_of_none {reader : Reader α} {position : Nat} {a : α}
    (h : ∀ octets, reader ⟨position, octets⟩ = .ok a ⟨position, octets⟩) (bytes : Bytes) :
  Finds reader position bytes a 0 0
  := ⟨Nat.le_refl 0, Nat.zero_le _, fun octets _ => h octets, by simp⟩

/-! ### Readers that stream -/

/-- The reader can be run on the first octets of a stream.  It is told whether it takes all the
octets that it looks at. -/
structure Streams (takesAll : Prop) (reader : Reader α) : Prop where
  /-- What it finds it finds on any stream that begins with the octets it looks at. -/
  finds : ∀ {position bytes a cursor}, reader ⟨position, bytes⟩ = .ok a cursor →
    ∃ taken reach, Finds reader position bytes a taken reach ∧ (takesAll → reach = taken)
  /-- Unless octets are missing, what it refuses it refuses whatever comes after. -/
  refuses : ∀ {position bytes error cursor}, reader ⟨position, bytes⟩ = .error error cursor →
    (∀ needed, error ≠ .insufficientData needed) →
    ∀ more, ∃ cursor', reader ⟨position, bytes ++ more⟩ = .error error cursor'

namespace Streams

variable {reader : Reader α} {next : α → Reader β} {position : Nat}
  {bytes : Bytes} {a : α} {cursor : Cursor}

theorem loosen (streams : Streams True reader) :
  Streams takesAll reader
  := by
  constructor
  · intro position bytes a cursor h
    obtain ⟨taken, reach, finds, all⟩ := streams.finds h
    exact ⟨taken, reach, finds, fun _ => all trivial⟩
  · exact streams.refuses

/-- A reader that streams leaves what is after the octets that it takes. -/
theorem exists_finds (streams : Streams takesAll reader)
    (h : reader ⟨position, bytes⟩ = .ok a cursor) :
  ∃ taken reach, Finds reader position bytes a taken reach ∧ (takesAll → reach = taken)
    ∧ cursor = ⟨position + taken, bytes.drop taken⟩
  := by
  obtain ⟨taken, reach, finds, all⟩ := streams.finds h
  exact ⟨taken, reach, finds, all, finds.left h⟩

/-- A reader that streams takes octets from the front. -/
theorem length_rest_le {cursor' : Cursor} (streams : Streams takesAll reader)
    (h : reader cursor = .ok a cursor') :
  cursor'.rest.length ≤ cursor.rest.length
  := by
  obtain ⟨taken, reach, -, -, rfl⟩ := streams.exists_finds h
  rw [List.length_drop]
  omega

theorem bind (first : Streams takesAll reader) (second : ∀ a, Streams takesAll (next a)) :
  Streams takesAll (reader >>= next)
  := by
  constructor
  case finds =>
    intro position bytes b cursor h
    obtain ⟨a, middle, hfirst, hsecond⟩ := exists_of_bind_ok h
    obtain ⟨taken, reach, finds, all, rfl⟩ := first.exists_finds hfirst
    obtain ⟨taken', reach', finds', all'⟩ := (second a).finds hsecond
    refine ⟨_, _, finds.bind finds', fun takes => ?_⟩
    rw [all takes, all' takes]
    omega
  case refuses =>
    intro position bytes error cursor h refused more
    cases hfirst : reader ⟨position, bytes⟩ with
    | error error' middle =>
        rw [bind_of_error hfirst] at h
        cases h
        obtain ⟨cursor', hmore⟩ := first.refuses hfirst refused more
        exact ⟨cursor', bind_of_error hmore⟩
    | ok a middle =>
        obtain ⟨taken, reach, finds, -, rfl⟩ := first.exists_finds hfirst
        rw [bind_of_ok hfirst] at h
        obtain ⟨cursor', hmore⟩ := (second a).refuses h refused more
        refine ⟨cursor', ?_⟩
        have there : taken ≤ bytes.length := Nat.le_trans finds.taken_le finds.reach_le
        rw [bind_of_ok (finds.found _ ((List.take_prefix _ _).trans (List.prefix_append _ _))),
          List.drop_append_of_le_length there, hmore]

/-- A reader that looks at no octets, and has a result. -/
theorem of_none (h : ∀ position, ∃ a, ∀ octets,
    reader ⟨position, octets⟩ = .ok a ⟨position, octets⟩) :
  Streams takesAll reader
  := by
  constructor
  · intro position bytes a cursor hok
    obtain ⟨a', hreader⟩ := h position
    rw [hreader] at hok
    cases hok
    exact ⟨0, 0, finds_of_none hreader bytes, fun _ => rfl⟩
  · intro position bytes error cursor herror
    obtain ⟨a', hreader⟩ := h position
    rw [hreader] at herror
    contradiction

theorem pure (a : α) :
  Streams takesAll (Pure.pure a)
  := of_none fun _ => ⟨a, fun _ => rfl⟩

theorem place :
  Streams takesAll Reader.position
  := of_none fun position => ⟨position, fun _ => rfl⟩

/-- A reader that always fails for the same reason. -/
theorem throw (error : DecodeError) :
  Streams takesAll (throw error : Reader α)
  := by
  constructor
  · intro position bytes a cursor hok
    contradiction
  · intro position bytes error' cursor herror _ more
    cases herror
    exact ⟨_, rfl⟩

theorem malformed (defect : Defect) :
  Streams takesAll (Reader.malformed defect : Reader α)
  := throw _

theorem map (f : α → β) (streams : Streams takesAll reader) :
  Streams takesAll (f <$> reader)
  := by
  rw [map_eq_pure_bind]
  apply streams.bind
  intro a
  apply Streams.pure

end Streams

/-! ### Octets and numbers -/

section Take

variable {n : Nat} {bytes : Bytes} (position : Nat)

theorem need_of_lt (h : bytes.length < n) :
  need n ⟨position, bytes⟩ = .error (.insufficientData (n - bytes.length)) ⟨position, bytes⟩
  := by
  have few : (bytes.take n).length = bytes.length := by
    rw [List.length_take, Nat.min_eq_right (Nat.le_of_lt h)]
  simp [need, few, h]

theorem there_of_need {cursor : Cursor} (h : need n ⟨position, bytes⟩ = .ok () cursor) :
  n ≤ bytes.length
  := by
  apply Nat.le_of_not_lt
  intro few
  rw [need_of_lt position few] at h
  contradiction

theorem take_of_le (h : n ≤ bytes.length) :
  take n ⟨position, bytes⟩ = .ok (bytes.take n) ⟨position + n, bytes.drop n⟩
  := bind_of_ok (need_of_le h)

theorem take_of_lt (h : bytes.length < n) :
  take n ⟨position, bytes⟩ = .error (.insufficientData (n - bytes.length)) ⟨position, bytes⟩
  := bind_of_error (need_of_lt position h)

/-- Needing octets is looking at them without taking them. -/
theorem finds_need (there : n ≤ bytes.length) :
  Finds (need n) position bytes () 0 n
  := by
  constructor
  case taken_le => apply Nat.zero_le
  case reach_le => exact there
  case found =>
    intro octets infront
    apply need_of_le
    have length := infront.length_le
    rwa [List.length_take, Nat.min_eq_left there] at length
  case starved =>
    intro cut short
    have length : (bytes.take cut).length = cut := by
      rw [List.length_take]
      omega
    refine ⟨n - cut, ⟨position, bytes.take cut⟩, ?_, by omega, by omega⟩
    rw [need_of_lt position (by rwa [length]), length]

theorem finds_take (there : n ≤ bytes.length) :
  Finds (take n) position bytes (bytes.take n) n n
  := by
  have needs := finds_need position there
  constructor
  case taken_le => apply Nat.le_refl
  case reach_le => exact there
  case found =>
    intro octets infront
    have same := List.prefix_iff_eq_take.mp infront
    have length := infront.length_le
    rw [List.length_take, Nat.min_eq_left there] at same length
    rw [take_of_le position length, same]
  case starved =>
    intro cut short
    obtain ⟨needed, cursor, hstarved, hneeded⟩ := needs.starved cut short
    exact ⟨needed, cursor, bind_of_error hstarved, hneeded⟩

end Take

theorem streams_need (n : Nat) :
  Streams False (need n)
  := by
  constructor
  case finds =>
    intro position bytes a cursor h
    exact ⟨0, n, finds_need position (there_of_need position h), False.elim⟩
  case refuses =>
    intro position bytes error cursor h refused
    by_cases there : n ≤ bytes.length
    · rw [(finds_need position there).here] at h
      contradiction
    · rw [need_of_lt position (Nat.lt_of_not_le there)] at h
      cases h
      exact absurd rfl (refused _)

theorem streams_take (n : Nat) :
  Streams takesAll (take n)
  := by
  constructor
  case finds =>
    intro position bytes a cursor h
    by_cases there : n ≤ bytes.length
    · rw [take_of_le position there] at h
      cases h
      exact ⟨n, n, finds_take position there, fun _ => rfl⟩
    · rw [take_of_lt position (Nat.lt_of_not_le there)] at h
      contradiction
  case refuses =>
    intro position bytes error cursor h refused
    by_cases there : n ≤ bytes.length
    · rw [take_of_le position there] at h
      contradiction
    · rw [take_of_lt position (Nat.lt_of_not_le there)] at h
      cases h
      exact absurd rfl (refused _)

theorem streams_number (width : Nat) :
  Streams takesAll (number width)
  := (streams_take width).map _

/-- A number takes its octets and looks at no others. -/
theorem finds_number {width n position : Nat} {bytes : Bytes} {cursor : Cursor}
    (h : number width ⟨position, bytes⟩ = .ok n cursor) :
  Finds (number width) position bytes n width width ∧ cursor = ⟨position + width, bytes.drop width⟩
  := by
  rw [number, map_eq_pure_bind] at h
  obtain ⟨octets, middle, htake, hpure⟩ := exists_of_bind_ok h
  cases hpure
  by_cases there : width ≤ bytes.length
  · rw [take_of_le position there] at htake
    cases htake
    exact ⟨(finds_take position there).map ofBigEndian, rfl⟩
  · rw [take_of_lt position (Nat.lt_of_not_le there)] at htake
    contradiction

/-- An octet is a byte string of one octet. -/
theorem octet_eq :
  octet = (fun bytes => bytes.headD 0) <$> take 1
  := by
  funext cursor
  obtain ⟨position, rest⟩ := cursor
  cases rest <;> rfl

theorem streams_octet :
  Streams takesAll octet
  := by
  rw [octet_eq]
  apply (streams_take 1).map

/-! ### Things one after another -/

theorem streams_manyAfter {item : Reader α} (each : Streams takesAll item) (count : Nat)
    (done : List α) :
  Streams takesAll (manyAfter item count done)
  := by
  induction count generalizing done with
  | zero => apply Streams.pure
  | succ count ih =>
      apply each.bind
      intro a
      apply ih

theorem streams_many {item : Reader α} (each : Streams takesAll item) (count : Nat) :
  Streams takesAll (many item count)
  := streams_manyAfter each count []

/-! ### Whole byte strings -/

section RunOn

variable {reader : Reader α} {bytes : Bytes}

theorem runOn_eq_ok_iff {a : α} {size : Nat} :
  reader.runOn bytes = .ok (a, size) ↔ ∃ rest, reader ⟨0, bytes⟩ = .ok a ⟨size, rest⟩
  := by
  rw [runOn, Cursor.start]
  cases reader ⟨0, bytes⟩ with
  | ok a' cursor =>
      obtain ⟨position, rest⟩ := cursor
      simp
  | error error cursor => simp

theorem runOn_eq_error_iff {error : DecodeError} :
  reader.runOn bytes = .error error ↔ ∃ cursor, reader ⟨0, bytes⟩ = .error error cursor
  := by
  rw [runOn, Cursor.start]
  cases reader ⟨0, bytes⟩ <;> simp

end RunOn

/-! ### Readers that agree where few octets are left -/

/-- The two readers do the same wherever fewer than `n` octets are left. -/
def Agree (n : Nat) (reader reader' : Reader α) : Prop :=
  ∀ cursor, cursor.rest.length < n → reader cursor = reader' cursor

/-- What the reader finds leaves fewer octets than there were. -/
def Advances (reader : Reader α) : Prop :=
  ∀ {cursor a cursor'}, reader cursor = .ok a cursor' → cursor'.rest.length < cursor.rest.length

theorem advances_octet :
  Advances octet
  := by
  intro cursor code cursor' h
  cases hrest : cursor.rest with
  | nil =>
      simp only [octet, hrest] at h
      contradiction
  | cons code' rest =>
      simp only [octet, hrest] at h
      cases h
      exact Nat.lt_succ_self _

theorem advances_number {width : Nat} (wide : 0 < width) :
  Advances (number width)
  := by
  intro cursor n cursor' h
  obtain ⟨finds, rfl⟩ := finds_number h
  have there := finds.reach_le
  rw [List.length_drop]
  omega

namespace Agree

variable {n : Nat} {reader reader' : Reader α} {next next' : α → Reader β}

theorem refl (n : Nat) (reader : Reader α) :
  Agree n reader reader
  := fun _ _ => rfl

theorem bind (first : Agree n reader reader') (streams : Streams takesAll reader)
    (second : ∀ a, Agree n (next a) (next' a)) :
  Agree n (reader >>= next) (reader' >>= next')
  := by
  intro cursor short
  have same := first cursor short
  cases hfirst : reader cursor with
  | error error middle => rw [bind_of_error hfirst, bind_of_error (same.symm.trans hfirst)]
  | ok a middle =>
      rw [bind_of_ok hfirst, bind_of_ok (same.symm.trans hfirst)]
      exact second a middle (Nat.lt_of_le_of_lt (streams.length_rest_le hfirst) short)

/-- After a reader that takes an octet there is one octet less. -/
theorem after (advances : Advances reader) (second : ∀ a, Agree n (next a) (next' a)) :
  Agree (n + 1) (reader >>= next) (reader >>= next')
  := by
  intro cursor short
  cases hfirst : reader cursor with
  | error error middle => rw [bind_of_error hfirst, bind_of_error hfirst]
  | ok a middle =>
      rw [bind_of_ok hfirst, bind_of_ok hfirst]
      exact second a middle (Nat.lt_of_lt_of_le (advances hfirst) (Nat.le_of_lt_succ short))

theorem map (f : α → β) (agree : Agree n reader reader') (streams : Streams takesAll reader) :
  Agree n (f <$> reader) (f <$> reader')
  := by
  rw [map_eq_pure_bind, map_eq_pure_bind]
  exact agree.bind streams fun _ => refl n _

theorem manyAfter (agree : Agree n reader reader') (streams : Streams takesAll reader)
    (count : Nat) (done : List α) :
  Agree n (manyAfter reader count done) (manyAfter reader' count done)
  := by
  induction count generalizing done with
  | zero => apply refl
  | succ count ih =>
      apply agree.bind streams
      intro a
      apply ih

theorem many (agree : Agree n reader reader') (streams : Streams takesAll reader) (count : Nat) :
  Agree n (many reader count) (many reader' count)
  := agree.manyAfter streams count []

end Agree

end Reader

end MessageBroker
