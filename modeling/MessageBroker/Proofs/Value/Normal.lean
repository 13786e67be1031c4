import Mathlib.Algebra.Group.Nat.Defs
import MessageBroker.Value.Encoding

/-!
# Normal values

An array whose members have no constructor in common is written as a list, so that nobody can
read it back as an array.  The normal form of a value has such lists in the place of such arrays,
and is written with the same octets.  A value fits if its texts, its byte strings and its
compounds are small enough for the widest constructors; whatever is written in less than 2 ^ 32
octets does.
-/

namespace MessageBroker

/-- A descriptor whose name is small enough to be written. -/
def Descriptor.Fits : Descriptor → Prop
  | .code _ => True
  | .symbol name => (Utf8.encode name.text).length < 2 ^ 32

namespace Value

/-! ### Sizes -/

/-- The octets that stand for the members of an array. -/
def arrayOctets (items : List Value) : Bytes :=
  match commonConstructor? items with
  | some constructor => constructor.code :: items.flatMap encodeMember
  | none => encodeAll items

theorem arrayOctets_of_some {items : List Value} {constructor : Constructor}
    (common : commonConstructor? items = some constructor) :
  arrayOctets items = constructor.code :: items.flatMap encodeMember
  := by
  rw [arrayOctets, common]

theorem arrayOctets_of_none {items : List Value} (apart : commonConstructor? items = none) :
  arrayOctets items = encodeAll items
  := by
  rw [arrayOctets, apart]

/-- A compound whose size and count can be written. -/
def CompoundFits (count : Nat) (members : Bytes) : Prop :=
  members.length + 4 < 2 ^ 32 ∧ count < 2 ^ 32

mutual

/-- A value whose texts, byte strings and compounds all have sizes and counts of at most 32
bits. -/
def Fits : Value → Prop
  | .binary bytes => bytes.length < 2 ^ 32
  | .string text => (Utf8.encode text).length < 2 ^ 32
  | .symbol name => (Utf8.encode name.text).length < 2 ^ 32
  | .list items => CompoundFits items.length (encodeAll items) ∧ FitAll items
  | .map pairs => CompoundFits (pairs.length * 2) (encodePairs pairs) ∧ FitPairs pairs
  | .array items => CompoundFits items.length (arrayOctets items) ∧ FitAll items
  | .described descriptor value => descriptor.Fits ∧ value.Fits
  | _ => True

/-- Values that all fit. -/
def FitAll : List Value → Prop
  | [] => True
  | first :: others => first.Fits ∧ FitAll others

/-- Keys and values that all fit. -/
def FitPairs : List (Value × Value) → Prop
  | [] => True
  | (key, value) :: others => key.Fits ∧ value.Fits ∧ FitPairs others

end

theorem fitAll_iff {items : List Value} :
  FitAll items ↔ ∀ item ∈ items, item.Fits
  := by
  induction items with
  | nil => simp [FitAll]
  | cons first others ih => simp [FitAll, ih]

/-! ### Compounds -/

/-- The constructor in common is the constructor of each. -/
theorem memberConstructor?_of_mem {items : List Value} {constructor : Constructor}
    (common : commonConstructor? items = some constructor) {item : Value} (h : item ∈ items) :
  item.memberConstructor? = some constructor
  := by
  cases items with
  | nil => cases common
  | cons first others =>
    cases own : first.memberConstructor? with
    | none => simp [commonConstructor?, own] at common
    | some code =>
      simp only [commonConstructor?, own] at common
      split at common
      case isTrue alike =>
        obtain rfl := Option.some.inj common
        obtain rfl | hmem := List.mem_cons.mp h
        · exact own
        · exact of_decide_eq_true (List.all_eq_true.mp alike item hmem)
      case isFalse => cases common

theorem encode_list_cons (first : Value) (others : List Value) :
  encode (.list (first :: others)) =
    encodeCompound .list8 .list32 (others.length + 1) (encodeAll (first :: others))
  := by
  rw [encode, encodeAll]

/-- An array whose members have a constructor in common is written as an array. -/
theorem encode_array_of_some {items : List Value} {constructor : Constructor}
    (common : commonConstructor? items = some constructor) :
  encode (.array items) = encodeCompound .array8 .array32 items.length (arrayOctets items)
  := by
  cases items with
  | nil => cases common
  | cons first others => simp only [encode, arrayOctets, common, List.length_cons]

/-- An array whose members have none is written as a list. -/
theorem encode_array_of_none {first : Value} {others : List Value}
    (apart : commonConstructor? (first :: others) = none) :
  encode (.array (first :: others)) =
    encodeCompound .list8 .list32 (others.length + 1) (arrayOctets (first :: others))
  := by
  simp only [encode, arrayOctets, apart, encodeAll]

theorem encode_array_cons (first : Value) (others : List Value) :
  ∃ narrow wide, encode (.array (first :: others)) =
    encodeCompound narrow wide (others.length + 1) (arrayOctets (first :: others))
  := by
  cases common : commonConstructor? (first :: others) with
  | some constructor => exact ⟨.array8, .array32, encode_array_of_some common⟩
  | none => exact ⟨.list8, .list32, encode_array_of_none common⟩

/-! ### How many octets -/

theorem length_encodeSized (narrow wide : Constructor) (data : Bytes) :
  data.length + 2 ≤ (encodeSized narrow wide data).length
  := by
  rw [encodeSized]
  split <;>
  · simp only [List.length_cons, List.length_append, length_bigEndian]
    omega

theorem length_encodeCompound (narrow wide : Constructor) (count : Nat) (members : Bytes) :
  members.length + 3 ≤ (encodeCompound narrow wide count members).length
  := by
  rw [encodeCompound]
  split <;>
  · simp only [List.length_cons, List.length_append, length_bigEndian]
    omega

theorem length_encodeUlong_pos (n : UInt64) :
  0 < (encodeUlong n).length
  := by
  rw [encodeUlong]
  split
  · simp
  · split
    · simp
    · simp

theorem length_encodeDescriptor_pos (descriptor : Descriptor) :
  0 < (encodeDescriptor descriptor).length
  := by
  cases descriptor with
  | code number => apply length_encodeUlong_pos
  | symbol name =>
    have sized := length_encodeSized .symbol8 .symbol32 (Utf8.encode name.text)
    change 0 < (encodeSymbol name).length
    rw [encodeSymbol]
    omega

/-- Every value is written with an octet at least. -/
theorem length_encode_pos (value : Value) :
  0 < (encode value).length
  := by
  cases value with
  | ulong n => apply length_encodeUlong_pos
  | binary bytes =>
    have sized := length_encodeSized .binary8 .binary32 bytes
    rw [encode]
    omega
  | string text =>
    have sized := length_encodeSized .string8 .string32 (Utf8.encode text)
    rw [encode]
    omega
  | symbol name =>
    have sized := length_encodeSized .symbol8 .symbol32 (Utf8.encode name.text)
    rw [encode, encodeSymbol]
    omega
  | list items =>
    cases items with
    | nil => simp [encode]
    | cons first others =>
      have sized := length_encodeCompound .list8 .list32 (others.length + 1)
        (encode first ++ encodeAll others)
      rw [encode]
      omega
  | map pairs =>
    have sized := length_encodeCompound .map8 .map32 (pairs.length * 2) (encodePairs pairs)
    rw [encode]
    omega
  | array items =>
    cases items with
    | nil => simp [encode]
    | cons first others =>
      obtain ⟨narrow, wide, h⟩ := encode_array_cons first others
      have sized := length_encodeCompound narrow wide (others.length + 1)
        (arrayOctets (first :: others))
      rw [h]
      omega
  | uint n =>
    rw [encode]
    split
    · simp
    · split
      · simp
      · simp
  | int n =>
    rw [encode]
    split
    · simp
    · simp
  | long n =>
    rw [encode]
    split
    · simp
    · simp
  | null | bool | ubyte | ushort | byte | short | timestamp | uuid | described => simp [encode]

theorem length_le_encodeAll (items : List Value) :
  items.length ≤ (encodeAll items).length
  := by
  induction items with
  | nil => simp
  | cons first others ih =>
    have some_octet := length_encode_pos first
    rw [encodeAll, List.length_append, List.length_cons]
    omega

theorem length_le_encodePairs (pairs : List (Value × Value)) :
  pairs.length * 2 ≤ (encodePairs pairs).length
  := by
  induction pairs with
  | nil => simp
  | cons pair others ih =>
    have of_key := length_encode_pos pair.1
    have of_value := length_encode_pos pair.2
    rw [encodePairs, List.length_append, List.length_append, List.length_cons]
    omega

theorem length_encodeMember_pos {item : Value} {constructor : Constructor}
    (h : item.memberConstructor? = some constructor) :
  0 < (encodeMember item).length
  := by
  cases item with
  | null | list | map | array | described => simp [memberConstructor?] at h
  | binary bytes =>
    simp only [encodeMember, List.length_append, length_bigEndian]
    omega
  | string text =>
    simp only [encodeMember, List.length_append, length_bigEndian]
    omega
  | symbol name =>
    simp only [encodeMember, List.length_append, length_bigEndian]
    omega
  | _ => simp [encodeMember]

theorem length_le_flatMap {α : Type} (write : α → Bytes) {items : List α} {item : α}
    (h : item ∈ items) :
  (write item).length ≤ (items.flatMap write).length
  := (List.sublist_flatten_of_mem (List.mem_map_of_mem h)).length_le

theorem length_le_arrayOctets (items : List Value) :
  items.length ≤ (arrayOctets items).length
  := by
  rw [arrayOctets]
  cases common : commonConstructor? items with
  | none => apply length_le_encodeAll
  | some constructor =>
    have each (item : Value) (h : item ∈ items) : 0 < (encodeMember item).length :=
      length_encodeMember_pos (memberConstructor?_of_mem common h)
    have counted : ∀ some_items : List Value, some_items ⊆ items →
        some_items.length ≤ (some_items.flatMap encodeMember).length := by
      intro some_items within
      induction some_items with
      | nil => simp
      | cons first others ih =>
        have some_octet := each first (within List.mem_cons_self)
        have fewer := ih fun _ h => within (List.mem_cons_of_mem first h)
        rw [List.flatMap_cons, List.length_append, List.length_cons]
        omega
    have all := counted items fun _ h => h
    rw [List.length_cons]
    omega

/-- A compound that is written in less than 2 ^ 32 octets fits. -/
theorem compoundFits_of_length_lt {narrow wide : Constructor} {count : Nat} {members : Bytes}
    (bounded : (encodeCompound narrow wide count members).length < 2 ^ 32)
    (counted : count ≤ members.length) :
  CompoundFits count members
  := by
  rw [encodeCompound] at bounded
  split at bounded
  case isTrue => exact ⟨by omega, by omega⟩
  case isFalse =>
    simp only [List.length_cons, List.length_append, length_bigEndian] at bounded
    exact ⟨by omega, by omega⟩

theorem fits_of_length_encodeMember_lt {item : Value} {constructor : Constructor}
    (h : item.memberConstructor? = some constructor)
    (bounded : (encodeMember item).length < 2 ^ 32) :
  item.Fits
  := by
  cases item with
  | null | list | map | array | described => simp [memberConstructor?] at h
  | binary bytes =>
    simp only [encodeMember, List.length_append, length_bigEndian] at bounded
    change bytes.length < 2 ^ 32
    omega
  | string text =>
    simp only [encodeMember, List.length_append, length_bigEndian] at bounded
    change (Utf8.encode text).length < 2 ^ 32
    omega
  | symbol name =>
    simp only [encodeMember, List.length_append, length_bigEndian] at bounded
    change (Utf8.encode name.text).length < 2 ^ 32
    omega
  | _ => trivial

theorem descriptor_fits_of_length_lt {descriptor : Descriptor}
    (bounded : (encodeDescriptor descriptor).length < 2 ^ 32) :
  descriptor.Fits
  := by
  cases descriptor with
  | code number => trivial
  | symbol name =>
    have sized := length_encodeSized .symbol8 .symbol32 (Utf8.encode name.text)
    change (encodeSymbol name).length < 2 ^ 32 at bounded
    rw [encodeSymbol] at bounded
    change (Utf8.encode name.text).length < 2 ^ 32
    omega

mutual

/-- Whatever is written in less than 2 ^ 32 octets fits. -/
theorem fits_of_length_lt : ∀ value : Value, (encode value).length < 2 ^ 32 → value.Fits
  | .binary bytes, bounded => by
    have sized := length_encodeSized .binary8 .binary32 bytes
    rw [encode] at bounded
    rw [Fits]
    omega
  | .string text, bounded => by
    have sized := length_encodeSized .string8 .string32 (Utf8.encode text)
    rw [encode] at bounded
    rw [Fits]
    omega
  | .symbol name, bounded => by
    have sized := length_encodeSized .symbol8 .symbol32 (Utf8.encode name.text)
    rw [encode, encodeSymbol] at bounded
    rw [Fits]
    omega
  | .list [], _ => by simp [Fits, CompoundFits, encodeAll, FitAll]
  | .list (first :: others), bounded => by
    rw [encode_list_cons] at bounded
    have longer := length_encodeCompound .list8 .list32 (others.length + 1)
      (encodeAll (first :: others))
    constructor
    · exact compoundFits_of_length_lt bounded (length_le_encodeAll (first :: others))
    · exact fitAll_of_length_lt (first :: others) (by omega)
  | .map pairs, bounded => by
    rw [encode] at bounded
    have longer := length_encodeCompound .map8 .map32 (pairs.length * 2) (encodePairs pairs)
    constructor
    · exact compoundFits_of_length_lt bounded (length_le_encodePairs pairs)
    · exact fitPairs_of_length_lt pairs (by omega)
  | .array [], _ => by simp [Fits, CompoundFits, arrayOctets, commonConstructor?, encodeAll, FitAll]
  | .array (first :: others), bounded => by
    obtain ⟨narrow, wide, h⟩ := encode_array_cons first others
    rw [h] at bounded
    have longer := length_encodeCompound narrow wide (others.length + 1)
      (arrayOctets (first :: others))
    constructor
    · exact compoundFits_of_length_lt bounded (length_le_arrayOctets (first :: others))
    · have octets : (arrayOctets (first :: others)).length < 2 ^ 32 := by omega
      cases common : commonConstructor? (first :: others) with
      | none =>
        rw [arrayOctets_of_none common] at octets
        exact fitAll_of_length_lt (first :: others) octets
      | some constructor =>
        rw [arrayOctets_of_some common, List.length_cons] at octets
        apply fitAll_iff.mpr
        intro item hitem
        have shorter := length_le_flatMap encodeMember hitem
        apply fits_of_length_encodeMember_lt (memberConstructor?_of_mem common hitem)
        omega
  | .described descriptor value, bounded => by
    rw [encode] at bounded
    simp only [List.length_cons, List.length_append] at bounded
    constructor
    · exact descriptor_fits_of_length_lt (by omega)
    · exact fits_of_length_lt value (by omega)
  | .null, _ | .bool _, _ | .ubyte _, _ | .ushort _, _ | .uint _, _ | .ulong _, _ | .byte _, _
  | .short _, _ | .int _, _ | .long _, _ | .timestamp _, _ | .uuid _, _ => trivial

theorem fitAll_of_length_lt : ∀ items : List Value,
    (encodeAll items).length < 2 ^ 32 → FitAll items
  | [], _ => trivial
  | first :: others, bounded => by
    rw [encodeAll, List.length_append] at bounded
    exact ⟨fits_of_length_lt first (by omega), fitAll_of_length_lt others (by omega)⟩

theorem fitPairs_of_length_lt : ∀ pairs : List (Value × Value),
    (encodePairs pairs).length < 2 ^ 32 → FitPairs pairs
  | [], _ => trivial
  | (key, value) :: others, bounded => by
    rw [encodePairs, List.length_append, List.length_append] at bounded
    exact ⟨fits_of_length_lt key (by omega), fits_of_length_lt value (by omega),
      fitPairs_of_length_lt others (by omega)⟩

end

/-! ### Normal forms -/

mutual

/-- The value with each array that is written as a list replaced by that list, at every depth. -/
def normal : Value → Value
  | .list items => .list (normalAll items)
  | .map pairs => .map (normalPairs pairs)
  | .array [] => .array []
  | .array (first :: others) =>
    match commonConstructor? (first :: others) with
    | some _ => .array (first :: others)
    | none => .list (normal first :: normalAll others)
  | .described descriptor value => .described descriptor (normal value)
  | value => value

/-- The normal forms of values. -/
def normalAll : List Value → List Value
  | [] => []
  | first :: others => normal first :: normalAll others

/-- The normal forms of keys and values. -/
def normalPairs : List (Value × Value) → List (Value × Value)
  | [] => []
  | (key, value) :: others => (normal key, normal value) :: normalPairs others

end

@[simp]
theorem length_normalAll (items : List Value) :
  (normalAll items).length = items.length
  := by
  induction items with
  | nil => rfl
  | cons first others ih => simp [normalAll, ih]

@[simp]
theorem length_normalPairs (pairs : List (Value × Value)) :
  (normalPairs pairs).length = pairs.length
  := by
  induction pairs with
  | nil => rfl
  | cons pair others ih => simp [normalPairs, ih]

mutual

/-- A value and its normal form are written alike. -/
theorem encode_normal : ∀ value : Value,
  encode (normal value) = encode value
  | .list [] => rfl
  | .list (first :: others) => by
    rw [normal, normalAll, encode, encode, encode_normal first, encodeAll_normalAll others,
      length_normalAll]
  | .map pairs => by
    rw [normal, encode, encode, encodePairs_normalPairs pairs, length_normalPairs]
  | .array [] => rfl
  | .array (first :: others) => by
    rw [normal]
    cases common : commonConstructor? (first :: others) with
    | some constructor => rfl
    | none =>
      simp only [encode, common, encode_normal first, encodeAll_normalAll others,
        length_normalAll]
  | .described descriptor value => by
    rw [normal, encode, encode, encode_normal value]
  | .null | .bool _ | .ubyte _ | .ushort _ | .uint _ | .ulong _ | .byte _ | .short _ | .int _
  | .long _ | .timestamp _ | .uuid _ | .binary _ | .string _ | .symbol _ => rfl

theorem encodeAll_normalAll : ∀ items : List Value,
  encodeAll (normalAll items) = encodeAll items
  | [] => rfl
  | first :: others => by
    rw [normalAll, encodeAll, encodeAll, encode_normal first, encodeAll_normalAll others]

theorem encodePairs_normalPairs : ∀ pairs : List (Value × Value),
  encodePairs (normalPairs pairs) = encodePairs pairs
  | [] => rfl
  | (key, value) :: others => by
    rw [normalPairs, encodePairs, encodePairs, encode_normal key, encode_normal value,
      encodePairs_normalPairs others]

end

end Value

end MessageBroker
