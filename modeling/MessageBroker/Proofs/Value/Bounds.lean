import MessageBroker.Proofs.Value.Forms
import MessageBroker.Proofs.Value.Streaming

/-!
# Bounds of decoded values

The members of a list or of a map take at least one octet each, so that what is decoded holds no
more of them than octets were taken.  The members of an array share their constructor, and where
that tells the whole value they take no octets at all: ten octets can stand for an array of any
count that can be written.
-/

namespace MessageBroker

theorem ofBigEndian_lt (bytes : Bytes) :
  ofBigEndian bytes < 256 ^ bytes.length
  := by
  have read := ofBigEndian_bigEndian bytes.length (ofBigEndian bytes)
  rw [bigEndian_ofBigEndian] at read
  rw [read]
  exact Nat.mod_lt _ (Nat.pow_pos (by decide))

/-! ### What readers give -/

namespace Reader

variable {α β : Type} {reader : Reader α} {next : α → Reader β} {property : Nat → α → Prop}

/-- What the reader gives has a property that may depend on the number of octets it took. -/
def Gives (property : Nat → α → Prop) (reader : Reader α) : Prop :=
  ∀ ⦃cursor a cursor'⦄, reader cursor = .ok a cursor' →
    ∃ taken, cursor'.position = cursor.position + taken ∧ property taken a

namespace Gives

theorem mono {property' : Nat → α → Prop} (gives : Gives property reader)
    (implies : ∀ {taken a}, property taken a → property' taken a) :
  Gives property' reader
  := by
  intro cursor a cursor' h
  obtain ⟨taken, moved, holds⟩ := gives h
  exact ⟨taken, moved, implies holds⟩

/-- A reader that takes no octets. -/
theorem of_none (h : ∀ {cursor a cursor'}, reader cursor = .ok a cursor' →
    cursor'.position = cursor.position ∧ property 0 a) :
  Gives property reader
  := fun _ _ _ run => ⟨0, h run⟩

theorem pure {a : α} (holds : property 0 a) :
  Gives property (Pure.pure a)
  := by
  apply of_none
  rintro cursor _ _ ⟨⟩
  exact ⟨rfl, holds⟩

theorem throw (error : DecodeError) :
  Gives property (throw error)
  := by
  intro cursor a cursor' h
  contradiction

theorem bind {property' : Nat → β → Prop} (first : Gives property reader)
    (second : ∀ {a taken}, property taken a →
      Gives (fun more b => property' (taken + more) b) (next a)) :
  Gives property' (reader >>= next)
  := by
  intro cursor b cursor' h
  obtain ⟨a, middle, hfirst, hsecond⟩ := exists_of_bind_ok h
  obtain ⟨taken, moved, holds⟩ := first hfirst
  obtain ⟨more, moved', holds'⟩ := second holds hsecond
  exact ⟨taken + more, by rw [moved', moved, Nat.add_assoc], holds'⟩

theorem map {property' : Nat → β → Prop} (f : α → β) (gives : Gives property reader)
    (implies : ∀ {taken a}, property taken a → property' taken (f a)) :
  Gives property' (f <$> reader)
  := by
  rw [map_eq_pure_bind]
  apply gives.bind
  intro a taken holds
  exact pure (implies holds)

/-- Things that take octets are no more than the octets they take. -/
theorem many (each : Gives (fun taken a => 0 < taken ∧ property taken a) reader)
    (more : ∀ {m n a}, m ≤ n → property m a → property n a) (count : Nat) :
  Gives (fun taken as => as.length ≤ taken ∧ ∀ a ∈ as, property taken a)
    (Reader.many reader count)
  := by
  induction count with
  | zero =>
      apply pure
      exact ⟨Nat.le_refl 0, List.forall_mem_nil _⟩
  | succ count ih =>
      apply each.bind
      rintro a taken ⟨positive, holds⟩
      rw [manyAfter_eq_map]
      apply ih.map
      rintro taken' as ⟨few, all⟩
      refine ⟨?_, List.forall_mem_cons.mpr ⟨more (Nat.le_add_right _ _) holds, fun b member => ?_⟩⟩
      · change as.length + 1 ≤ taken + taken'
        omega
      · exact more (Nat.le_add_left _ _) (all b member)

end Gives

theorem gives_octet :
  Gives (fun taken _ => taken = 1) octet
  := by
  intro cursor code cursor' h
  cases rest : cursor.rest with
  | nil =>
      rw [octet, rest] at h
      contradiction
  | cons _ _ =>
      rw [octet, rest] at h
      cases h
      exact ⟨1, rfl, rfl⟩

theorem gives_take (n : Nat) :
  Gives (fun taken bytes => taken = n ∧ bytes.length = n) (take n)
  := by
  intro cursor bytes cursor' h
  by_cases there : n ≤ cursor.rest.length
  · rw [take_of_le cursor.position there] at h
    cases h
    exact ⟨n, rfl, rfl, List.length_take_of_le there⟩
  · rw [take_of_lt cursor.position (Nat.lt_of_not_le there)] at h
    contradiction

/-- A number is smaller than those that its octets cannot tell. -/
theorem gives_number (width : Nat) :
  Gives (fun taken n => taken = width ∧ n < 256 ^ width) (number width)
  := by
  apply (gives_take width).map
  rintro taken bytes ⟨rfl, rfl⟩
  exact ⟨rfl, ofBigEndian_lt bytes⟩

theorem gives_need (n : Nat) :
  Gives (fun taken _ => taken = 0) (need n)
  := by
  apply Gives.of_none
  intro cursor _ cursor' h
  by_cases there : n ≤ cursor.rest.length
  · rw [need_of_le there] at h
    cases h
    exact ⟨rfl, rfl⟩
  · rw [need_of_lt cursor.position (Nat.lt_of_not_le there)] at h
    contradiction

theorem gives_position :
  Gives (fun taken _ => taken = 0) Reader.position
  := by
  apply Gives.of_none
  rintro cursor _ _ ⟨⟩
  exact ⟨rfl, rfl⟩

theorem many_pure (a : α) (count : Nat) :
  many (pure a) count = pure (List.replicate count a)
  := by
  induction count with
  | zero => rfl
  | succ count ih =>
      rw [many, manyAfter, pure_bind, manyAfter_eq_map, ih, map_pure]
      rfl

end Reader

open Reader

namespace Value

/-! ### What occurs in values -/

/-- A value occurs in another one: it is that value, or it is nested in it. -/
inductive Occurs (part : Value) : Value → Prop where
  | here : Occurs part part
  | item {items : List Value} {item : Value} (member : item ∈ items) (inner : Occurs part item) :
    Occurs part (.list items)
  | key {pairs : List (Value × Value)} {pair : Value × Value} (member : pair ∈ pairs)
    (inner : Occurs part pair.1) :
    Occurs part (.map pairs)
  | value {pairs : List (Value × Value)} {pair : Value × Value} (member : pair ∈ pairs)
    (inner : Occurs part pair.2) :
    Occurs part (.map pairs)
  | element {items : List Value} {item : Value} (member : item ∈ items)
    (inner : Occurs part item) :
    Occurs part (.array items)
  | described {descriptor : Descriptor} {value : Value} (inner : Occurs part value) :
    Occurs part (.described descriptor value)

/-- Whether other values may occur in a value. -/
def nests : Value → Bool
  | .list _ | .map _ | .array _ | .described .. => true
  | _ => false

/-- The value that is told by its constructor alone. -/
def octetless? : Constructor → Option Value
  | .null => some .null
  | .true => some (.bool true)
  | .false => some (.bool false)
  | .uint0 => some (.uint 0)
  | .ulong0 => some (.ulong 0)
  | .list0 => some (.list [])
  | _ => none

/-- The items are one value over and over, which is told by its constructor alone. -/
def Repeats (items : List Value) : Prop :=
  items.length < 2 ^ 32 ∧ ∃ constructor item descriptor, octetless? constructor = some item
    ∧ items = List.replicate items.length (sharing descriptor item)

/-- How many members a value has; those of a map are its pairs. -/
def breadth : Value → Nat
  | .list items => items.length
  | .map pairs => pairs.length
  | .array items => items.length
  | _ => 0

/-- A value that directly holds no more than a number of others, unless it repeats one. -/
def Bounded (bound : Nat) : Value → Prop
  | .list items => items.length ≤ bound
  | .map pairs => pairs.length * 2 ≤ bound
  | .array items => items.length ≤ bound ∨ Repeats items
  | _ => True

theorem Bounded.mono {m n : Nat} (le : m ≤ n) {item : Value} (bounded : item.Bounded m) :
  item.Bounded n
  := by
  cases item with
  | list items => exact Nat.le_trans bounded le
  | map pairs => exact Nat.le_trans bounded le
  | array items => exact bounded.imp_left (Nat.le_trans · le)
  | _ => trivial

theorem Bounded.breadth_le {bound : Nat} {item : Value} (bounded : item.Bounded bound)
    (short : ∀ items, item = .array items → Repeats items → items.length ≤ bound) :
  item.breadth ≤ bound
  := by
  cases item with
  | list items => exact bounded
  | map pairs => exact Nat.le_trans (Nat.le_mul_of_pos_right _ Nat.two_pos) bounded
  | array items => exact bounded.elim id (short items rfl)
  | _ => exact Nat.zero_le bound

/-- A value in which no value holds too many others. -/
def Within (bound : Nat) (item : Value) : Prop :=
  ∀ part, Occurs part item → part.Bounded bound

namespace Within

variable {m n bound : Nat}

theorem mono {item : Value} (le : m ≤ n) (within : item.Within m) :
  item.Within n
  := fun part occurs => (within part occurs).mono le

theorem of_not_nests {item : Value} (plain : item.nests = false) :
  item.Within bound
  := by
  intro part occurs
  cases occurs with
  | here =>
      cases item with
      | list | map | array | described => contradiction
      | _ => trivial
  | _ => contradiction

theorem list {items : List Value} (few : items.length ≤ bound)
    (each : ∀ item ∈ items, item.Within bound) :
  Within bound (.list items)
  := by
  intro part occurs
  cases occurs with
  | here => exact few
  | item member inner => exact each _ member part inner

theorem map {pairs : List (Value × Value)} (few : pairs.length * 2 ≤ bound)
    (each : ∀ pair ∈ pairs, pair.1.Within bound ∧ pair.2.Within bound) :
  Within bound (.map pairs)
  := by
  intro part occurs
  cases occurs with
  | here => exact few
  | key member inner => exact (each _ member).1 part inner
  | value member inner => exact (each _ member).2 part inner

theorem array {items : List Value} (few : items.length ≤ bound ∨ Repeats items)
    (each : ∀ item ∈ items, item.Within bound) :
  Within bound (.array items)
  := by
  intro part occurs
  cases occurs with
  | here => exact few
  | element member inner => exact each _ member part inner

theorem described {item : Value} (descriptor : Descriptor) (within : item.Within bound) :
  Within bound (.described descriptor item)
  := by
  intro part occurs
  cases occurs with
  | here => trivial
  | described inner => exact within part inner

theorem sharing {item : Value} (descriptor : Option Descriptor) (within : item.Within bound) :
  Within bound (sharing descriptor item)
  := by
  cases descriptor with
  | none => exact within
  | some descriptor => exact within.described descriptor

theorem octetless {constructor : Constructor} {item : Value}
    (alone : octetless? constructor = some item) :
  item.Within bound
  := by
  cases constructor <;> cases alone
  case list0 => exact list (Nat.zero_le _) (List.forall_mem_nil _)
  all_goals exact of_not_nests rfl

end Within

/-! ### Texts and compounds -/

section

variable {width : Nat}

theorem gives_readSized (wide : 0 < width) :
  Gives (fun taken _ => 0 < taken) (readSized width)
  := by
  apply (gives_number width).bind
  rintro size taken ⟨rfl, -⟩
  exact (gives_take size).mono fun _ => Nat.add_pos_left wide _

theorem gives_readText (wide : 0 < width) :
  Gives (fun taken _ => 0 < taken) (readText width)
  := by
  apply (gives_readSized wide).bind
  intro bytes taken positive
  split
  · exact Gives.pure positive
  · apply Gives.throw

theorem gives_readCompoundHeader (wide : 0 < width) :
  Gives (fun taken header => 0 < taken ∧ header.2 < 256 ^ width) (readCompoundHeader width)
  := by
  apply (gives_number width).bind
  rintro size taken ⟨rfl, -⟩
  split
  · apply Gives.throw
  · apply (gives_need size).bind
    rintro _ _ rfl
    apply (gives_number _).bind
    rintro count taken' ⟨rfl, small⟩
    apply gives_position.bind
    rintro position _ rfl
    exact Gives.pure ⟨by omega, small⟩

theorem gives_expectEnd (stop : Nat) :
  Gives (fun taken _ => taken = 0) (expectEnd stop)
  := by
  apply Gives.of_none
  rintro ⟨position, bytes⟩ _ cursor' h
  obtain ⟨-, rfl, -⟩ := finds_expectEnd h
  exact ⟨rfl, rfl⟩

/-- What a compound holds takes no more octets than the compound. -/
theorem gives_readCompound {α : Type} {property : Nat → α → Prop} {inner : Nat → Reader α}
    (wide : 0 < width) (more : ∀ {m n a}, m ≤ n → property m a → property n a)
    (held : ∀ count < 256 ^ width, Gives property (inner count)) :
  Gives (fun taken a => 0 < taken ∧ property taken a) (readCompound inner width)
  := by
  apply (gives_readCompoundHeader wide).bind
  rintro ⟨stop, count⟩ taken ⟨positive, small⟩
  apply (held count small).bind
  intro a taken' holds
  apply (gives_expectEnd stop).bind
  rintro _ _ rfl
  apply Gives.pure
  exact ⟨by omega, more (by omega) holds⟩

end

/-! ### Values -/

/-- The value that is read takes octets, and is within their number. -/
def Bears (reader : Reader Value) : Prop :=
  Gives (fun taken item => 0 < taken ∧ item.Within taken) reader

/-- What follows a constructor takes octets, unless the constructor tells the whole value. -/
def Settles (reader : Reader Value) : Prop :=
  Bears reader ∨ ∃ constructor item, octetless? constructor = some item ∧ reader = pure item

section

variable {value : Reader Value} {body : UInt8 → Reader Value} {width : Nat}

theorem gives_readItems (wide : 0 < width) (values : Bears value) :
  Gives (fun taken items => 0 < taken ∧ items.length ≤ taken ∧ ∀ item ∈ items, item.Within taken)
    (readItems value width)
  := by
  apply gives_readCompound wide
  · rintro m n items le ⟨few, each⟩
    exact ⟨Nat.le_trans few le, fun item member => (each item member).mono le⟩
  · intro count _
    exact Gives.many values Within.mono count

theorem eq_of_pairUp? {α : Type} {items : List α} {pairs : List (α × α)}
    (paired : pairUp? items = some pairs) :
  items = pairs.flatMap fun pair => [pair.1, pair.2]
  := by
  fun_induction pairUp? items generalizing pairs with
  | case1 =>
      cases paired
      rfl
  | case2 => contradiction
  | case3 key value others ih =>
      obtain ⟨rest, found, rfl⟩ := Option.map_eq_some_iff.mp paired
      rw [List.flatMap_cons, ← ih found]
      rfl

theorem gives_readPairs (wide : 0 < width) (values : Bears value) :
  Gives (fun taken pairs => 0 < taken ∧ Within taken (.map pairs)) (readPairs value width)
  := by
  apply (gives_readItems wide values).bind
  rintro items taken ⟨positive, few, each⟩
  split
  case h_2 => apply Gives.throw
  case h_1 pairs paired =>
    obtain rfl := eq_of_pairUp? paired
    apply Gives.pure
    refine ⟨positive, Within.map ?_ fun pair member => ⟨each _ ?_, each _ ?_⟩⟩
    · rw [List.length_flatMap] at few
      change (pairs.map fun _ => 2).sum ≤ taken at few
      rwa [List.map_const', List.sum_replicate_nat] at few
    · exact List.mem_flatMap_of_mem member (by simp)
    · exact List.mem_flatMap_of_mem member (by simp)

theorem gives_readDescriptor (values : Bears value) :
  Gives (fun _ _ => True) (readDescriptor value)
  := by
  apply values.bind
  intro item taken _
  split
  · exact Gives.pure trivial
  · split
    · exact Gives.pure trivial
    · apply Gives.throw

theorem gives_readMemberForm (values : Bears value) :
  Gives (fun _ _ => True) (readMemberForm value)
  := by
  apply gives_octet.bind
  intro code taken _
  split
  · apply (gives_readDescriptor values).bind
    intro descriptor _ _
    apply gives_octet.bind
    intro code _ _
    exact Gives.pure trivial
  · exact Gives.pure trivial

theorem gives_readUniform (values : Bears value) (bodies : ∀ code, Settles (body code))
    {count : Nat} (small : count < 2 ^ 32) :
  Gives (fun taken items => Within taken (.array items)) (readUniform value body count)
  := by
  apply (gives_readMemberForm values).bind
  rintro ⟨code, descriptor⟩ taken -
  -- Only where every member takes octets is their count bounded by those there are.
  obtain bears | ⟨constructor, item, alone, settled⟩ := bodies code
  · have each : Bears (sharing descriptor <$> body code) :=
      bears.map _ fun ⟨positive, within⟩ => ⟨positive, within.sharing descriptor⟩
    apply (Gives.many each Within.mono count).mono
    rintro taken' items ⟨few, within⟩
    exact (Within.array (.inl few) within).mono (Nat.le_add_left _ _)
  · change Gives _ (many (sharing descriptor <$> body code) count)
    rw [settled, map_pure, many_pure]
    apply Gives.pure
    apply Within.array
    · right
      rw [Repeats, List.length_replicate]
      exact ⟨small, constructor, item, descriptor, alone, rfl⟩
    · intro part member
      obtain rfl := List.eq_of_mem_replicate member
      exact (Within.octetless alone).sharing descriptor

theorem gives_readMembers (wide : 0 < width) (narrow : width ≤ 4) (values : Bears value)
    (bodies : ∀ code, Settles (body code)) :
  Gives (fun taken items => 0 < taken ∧ Within taken (.array items)) (readMembers value body width)
  := by
  rw [readMembers_eq]
  apply gives_readCompound wide
  · intro m n items
    exact Within.mono
  · intro count small
    apply gives_readUniform values bodies
    exact Nat.lt_of_lt_of_le small (Nat.pow_le_pow_right (by decide) narrow)

theorem readBodyOf_of_octetless {constructor : Constructor} {item : Value}
    (alone : octetless? constructor = some item) :
  readBodyOf value body constructor = pure item
  := by
  cases constructor <;> cases alone <;> rfl

theorem settles_readBodyOf (values : Bears value) (bodies : ∀ code, Settles (body code))
    (constructor : Constructor) :
  Settles (readBodyOf value body constructor)
  := by
  cases alone : octetless? constructor with
  | some item => exact .inr ⟨constructor, item, alone, readBodyOf_of_octetless alone⟩
  | none =>
      left
      cases constructor
      case null | true | false | uint0 | ulong0 | list0 => cases alone
      case ubyte | byte | smallUint | smallUlong | smallInt | smallLong | boolean =>
        apply gives_octet.bind
        rintro octet _ rfl
        exact Gives.pure ⟨Nat.one_pos, Within.of_not_nests rfl⟩
      case ushort | short | uint | int | ulong | long | timestamp | uuid =>
        apply (gives_number _).bind
        rintro n _ ⟨rfl, -⟩
        exact Gives.pure ⟨by decide, Within.of_not_nests rfl⟩
      case binary8 | binary32 =>
        apply (gives_readSized (by decide)).bind
        intro bytes taken positive
        exact Gives.pure ⟨positive, Within.of_not_nests rfl⟩
      case string8 | string32 | symbol8 | symbol32 =>
        apply (gives_readText (by decide)).bind
        intro text taken positive
        exact Gives.pure ⟨positive, Within.of_not_nests rfl⟩
      case list8 | list32 =>
        apply (gives_readItems (by decide) values).bind
        rintro items taken ⟨positive, few, each⟩
        exact Gives.pure ⟨positive, Within.list few each⟩
      case map8 | map32 =>
        apply (gives_readPairs (by decide) values).bind
        intro pairs taken within
        exact Gives.pure within
      case array8 | array32 =>
        apply (gives_readMembers (by decide) (by decide) values bodies).bind
        intro items taken within
        exact Gives.pure within

theorem settles_readCodedBody (values : Bears value) (bodies : ∀ code, Settles (body code))
    (code : UInt8) :
  Settles (readCodedBody value body code)
  := by
  rw [readCodedBody]
  split
  · exact settles_readBodyOf values bodies _
  · exact .inl (Gives.throw _)

theorem bears_readWith (values : Bears value) (bodies : ∀ code, Settles (body code)) :
  Bears (readWith value body)
  := by
  apply gives_octet.bind
  rintro code _ rfl
  split
  · apply (gives_readDescriptor values).bind
    intro descriptor taken _
    apply values.bind
    rintro item taken' ⟨-, within⟩
    apply Gives.pure
    exact ⟨by omega, (within.described descriptor).mono (by omega)⟩
  · obtain bears | ⟨constructor, item, alone, settled⟩ := bodies code
    · apply bears.mono
      rintro taken item ⟨-, within⟩
      exact ⟨by omega, within.mono (Nat.le_add_left _ _)⟩
    · rw [settled]
      exact Gives.pure ⟨Nat.one_pos, Within.octetless alone⟩

end

theorem bears_valueReader (depth : Nat) :
  Bears (valueReader depth) ∧ ∀ code, Settles (bodyReader depth code)
  := by
  have nothing : Bears readNothing := Gives.throw _
  induction depth with
  | zero =>
      refine ⟨nothing, fun code => ?_⟩
      rw [bodyReader_eq_zero]
      exact settles_readCodedBody nothing (fun _ => .inl nothing) code
  | succ depth ih =>
      obtain ⟨values, bodies⟩ := ih
      refine ⟨?_, fun code => ?_⟩
      · rw [valueReader_succ]
        exact bears_readWith values bodies
      · rw [bodyReader_eq_succ]
        exact settles_readCodedBody values bodies code

/-- Behind its constructor, a value over and over is written with no more octets. -/
theorem form_replicate {constructor : Constructor} {item : Value}
    (alone : octetless? constructor = some item) {count : Nat} (small : count < 2 ^ 32) :
  Form (.array (List.replicate count item))
    (Constructor.array32.code :: Width.wide.frame count [constructor.code])
  := by
  have body : Body constructor item [] := by
    cases constructor <;> cases alone <;> constructor <;> constructor
  have array := @Body.array .wide constructor (List.replicate count (item, []))
  rw [List.length_replicate, List.map_replicate, List.flatMap_replicate, List.flatten_replicate_nil]
    at array
  apply Form.primitive
  apply array
  · intro part member
    rw [List.eq_of_mem_replicate member]
    exact body
  · have room : 1 + 4 < 256 ^ 4 := by decide
    exact ⟨room, small⟩

/-- Whatever occurs in a decoded value holds no more than there were octets, unless it is an array
of one value over and over that is told by its constructor alone; so that nothing in it has too many
members exactly if these arrays have not.  Of such a value ten octets can stand for any count that
can be written. -/
theorem decode_bounded (bytes : Bytes) :
  (∀ value size, decode bytes = .ok (value, size) →
      (∀ part, Occurs part value → part.Bounded size)
        ∧ ((∀ part, Occurs part value → part.breadth ≤ size)
          ↔ ∀ items, Occurs (.array items) value → Repeats items → items.length ≤ size))
    ∧ ∀ constructor item, octetless? constructor = some item → ∀ count < 2 ^ 32,
      decode (Constructor.array32.code :: Width.wide.frame count [constructor.code] ++ bytes)
        = .ok (.array (List.replicate count item), 10)
  := by
  constructor
  · intro value size h
    obtain ⟨rest, found⟩ := runOn_eq_ok_iff.mp h
    obtain ⟨taken, moved, -, within⟩ := (bears_valueReader bytes.length).1 found
    rw [Nat.zero_add] at moved
    obtain rfl : size = taken := moved
    refine ⟨within, fun few items occurs _ => few _ occurs, fun short part occurs => ?_⟩
    apply (within part occurs).breadth_le
    rintro items rfl
    exact short items occurs
  · intro constructor item alone count small
    rw [decode_of_takes (form_replicate alone small).takes]
    rw [Width.frame, List.length_cons, List.length_append, List.length_append, length_bigEndian,
      length_bigEndian]
    rfl

/-- Nine absent values in four octets, and 2 ^ 32 - 1 of them in ten. -/
theorem decode_bounded_of_nulls :
  let few : Bytes := [0xe0, 2, 9, 0x40]
  let many : Bytes := [0xf0, 0, 0, 0, 5, 255, 255, 255, 255, 0x40]
  decode few = .ok (.array (List.replicate 9 .null), 4)
    ∧ Bounded 4 (.array (List.replicate 9 .null)) ∧ 4 < breadth (.array (List.replicate 9 .null))
    ∧ decode many = .ok (.array (List.replicate (2 ^ 32 - 1) .null), 10)
  := by
  intro few many
  have decoded : decode few = .ok (.array (List.replicate 9 .null), 4) := rfl
  obtain ⟨bounded, -⟩ := (decode_bounded few).1 _ _ decoded
  have octets : Constructor.array32.code :: Width.wide.frame (2 ^ 32 - 1) [Constructor.null.code]
      ++ [] = many := by
    decide
  have long := (decode_bounded []).2 .null .null rfl (2 ^ 32 - 1) (by decide)
  rw [octets] at long
  exact ⟨decoded, bounded _ .here, by decide, long⟩

end Value

end MessageBroker
