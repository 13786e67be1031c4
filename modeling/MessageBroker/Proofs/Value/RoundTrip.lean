import MessageBroker.Value.Decoding
import MessageBroker.Proofs.Value.Normal
import MessageBroker.Proofs.Wire.Taking

/-!
# Reading values back

The octets of a value, whatever follows them, are read as the normal form of the value and no
further.  The bodies of the scalars come first; then the frames of compounds, which tell the size
and the count of what they hold; then values, whose nesting the number of their octets bounds.
-/

namespace MessageBroker

open Reader

namespace Value

/-! ### Texts and byte strings -/

theorem takes_readSized (width : Nat) {bytes : Bytes} (small : bytes.length < 256 ^ width) :
  Takes (readSized width) (bigEndian width bytes.length ++ bytes) bytes
  := by
  apply (takes_number width small).bind
  apply takes_take

theorem takes_readText (width : Nat) {text : String}
    (small : (Utf8.encode text).length < 256 ^ width) :
  Takes (readText width) (bigEndian width (Utf8.encode text).length ++ Utf8.encode text) text
  := by
  apply (takes_readSized width small).bind_pure
  rw [Utf8.decode?_encode]
  apply Takes.pure

/-! ### Compounds -/

theorem readCompoundHeader_of_le (width : Nat) {size count : Nat}
    (sizeSmall : size + width < 256 ^ width) (countSmall : count < 256 ^ width)
    (position : Nat) {rest : Bytes} (there : size ≤ rest.length) :
  readCompoundHeader width
      ⟨position, bigEndian width (size + width) ++ (bigEndian width count ++ rest)⟩ =
    .ok (position + width + width + size, count) ⟨position + width + width, rest⟩
  := by
  have sized := takes_number width sizeSmall position (bigEndian width count ++ rest)
  have counted := takes_number width countSmall (position + width) rest
  rw [length_bigEndian] at sized counted
  have enough : size + width ≤
      (Cursor.mk (position + width) (bigEndian width count ++ rest)).rest.length := by
    rw [List.length_append, length_bigEndian]
    omega
  apply (bind_of_ok sized).trans
  rw [if_neg (by omega)]
  apply (bind_of_ok (need_of_le enough)).trans
  apply (bind_of_ok counted).trans
  apply (bind_of_ok (position_eq _)).trans
  rw [Nat.add_sub_cancel]
  rfl

theorem expectEnd_self (position : Nat) (rest : Bytes) :
  expectEnd position ⟨position, rest⟩ = .ok () ⟨position, rest⟩
  := by
  apply (bind_of_ok (position_eq _)).trans
  rw [if_pos rfl]
  rfl

/-- Takes a compound, whose size and count are numbers of `width` octets; `inner` takes what is
between these numbers and the end. -/
def readCompound {α : Type} (inner : Nat → Reader α) (width : Nat) : Reader α := do
  let (stop, count) ← readCompoundHeader width
  let a ← inner count
  expectEnd stop
  pure a

/-- Takes `count` members of an array after their constructor. -/
def readUniform (value : Reader Value) (body : UInt8 → Reader Value) (count : Nat) :
    Reader (List Value) := do
  let (code, descriptor) ← readMemberForm value
  many (sharing descriptor <$> body code) count

theorem readMembers_eq (value : Reader Value) (body : UInt8 → Reader Value) :
  readMembers value body = readCompound (readUniform value body)
  := by
  funext width
  simp only [readMembers, readCompound, readUniform, bind_assoc]

/-- A compound is taken if what it holds is. -/
theorem takes_readCompound {α : Type} (width : Nat) {inner : Nat → Reader α} {count : Nat}
    {members : Bytes} {a : α} (sizeSmall : members.length + width < 256 ^ width)
    (countSmall : count < 256 ^ width) (taken : Takes (inner count) members a) :
  Takes (readCompound inner width)
    (bigEndian width (members.length + width) ++ bigEndian width count ++ members) a
  := by
  intro position rest
  have there : members.length ≤ (members ++ rest).length := by simp
  have header := readCompoundHeader_of_le width sizeSmall countSmall position there
  rw [List.append_assoc, List.append_assoc]
  apply (bind_of_ok header).trans
  apply (bind_of_ok (taken (position + width + width) rest)).trans
  apply (bind_of_ok (expectEnd_self _ rest)).trans
  simp only [List.length_append, length_bigEndian, Nat.add_assoc]
  rfl

theorem pairUp?_flatMap (pairs : List (Value × Value)) :
  pairUp? (pairs.flatMap fun pair => [pair.1, pair.2]) = some pairs
  := by
  induction pairs with
  | nil => rfl
  | cons pair others ih => simp [pairUp?, ih]

theorem takes_readPairs {value : Reader Value} (width : Nat) {count : Nat} {members : Bytes}
    {pairs : List (Value × Value)} (sizeSmall : members.length + width < 256 ^ width)
    (countSmall : count < 256 ^ width)
    (taken : Takes (many value count) members (pairs.flatMap fun pair => [pair.1, pair.2])) :
  Takes (readPairs value width)
    (bigEndian width (members.length + width) ++ bigEndian width count ++ members) pairs
  := by
  apply (takes_readCompound width sizeSmall countSmall taken).bind_pure
  rw [pairUp?_flatMap]
  apply Takes.pure

/-- The members of an array come after their constructor, which is not the mark of a
descriptor. -/
theorem takes_readUniform (value : Reader Value) {body : UInt8 → Reader Value}
    {constructor : Constructor} {count : Nat} {members : Bytes} {items : List Value}
    (taken : Takes (many (body constructor.code) count) members items) :
  Takes (readUniform value body count) (constructor.code :: members) items
  := by
  have form : Takes (readMemberForm value) [constructor.code] (constructor.code, none) := by
    apply (takes_octet constructor.code).bind_pure
    rw [if_neg constructor.code_ne_describedMark]
    apply Takes.pure
  apply form.bind
  have alone : sharing none <$> body constructor.code = body constructor.code := by
    apply id_map
  change Takes (many (sharing none <$> body constructor.code) count) members items
  rw [alone]
  apply taken

/-! ### Scalars -/

variable {value : Reader Value} {body : UInt8 → Reader Value}

/-- A scalar in its widest form is read back. -/
theorem takes_encodeMember {item : Value} {constructor : Constructor}
    (h : item.memberConstructor? = some constructor) (fits : item.Fits) :
  Takes (readBodyOf value body constructor) (encodeMember item) item
  := by
  cases item with
  | null | list | map | array | described => simp [memberConstructor?] at h
  | bool flag =>
    obtain rfl := Option.some.inj h
    apply (takes_octet _).gives
    cases flag <;> rfl
  | ubyte n =>
    obtain rfl := Option.some.inj h
    apply (takes_octet n).gives rfl
  | ushort n =>
    obtain rfl := Option.some.inj h
    apply (takes_number 2 n.toNat_lt).gives
    rw [UInt16.ofNat_toNat]
  | uint n =>
    obtain rfl := Option.some.inj h
    apply (takes_number 4 n.toNat_lt).gives
    rw [UInt32.ofNat_toNat]
  | ulong n =>
    obtain rfl := Option.some.inj h
    apply (takes_number 8 n.toNat_lt).gives
    rw [UInt64.ofNat_toNat]
  | byte n =>
    obtain rfl := Option.some.inj h
    apply (takes_octet n.toUInt8).gives rfl
  | short n =>
    obtain rfl := Option.some.inj h
    apply (takes_number 2 n.toUInt16.toNat_lt).gives
    rw [UInt16.ofNat_toNat, Int16.toInt16_toUInt16]
  | int n =>
    obtain rfl := Option.some.inj h
    apply (takes_number 4 n.toUInt32.toNat_lt).gives
    rw [UInt32.ofNat_toNat, Int32.toInt32_toUInt32]
  | long n =>
    obtain rfl := Option.some.inj h
    apply (takes_number 8 n.toUInt64.toNat_lt).gives
    rw [UInt64.ofNat_toNat, Int64.toInt64_toUInt64]
  | timestamp n =>
    obtain rfl := Option.some.inj h
    apply (takes_number 8 n.toUInt64.toNat_lt).gives
    rw [UInt64.ofNat_toNat, Int64.toInt64_toUInt64]
  | uuid bits =>
    obtain rfl := Option.some.inj h
    apply (takes_number 16 bits.isLt).gives
    rw [BitVec.ofNat_toNat, BitVec.setWidth_eq]
  | binary bytes =>
    obtain rfl := Option.some.inj h
    apply (takes_readSized 4 fits).gives rfl
  | string text =>
    obtain rfl := Option.some.inj h
    apply (takes_readText 4 fits).gives rfl
  | symbol name =>
    obtain rfl := Option.some.inj h
    apply (takes_readText 4 fits).gives rfl

/-! ### Constructors -/

/-- The reader of values that nest at most `depth` deep. -/
def valueReader (depth : Nat) : Reader Value :=
  readWithin depth

/-- The reader of bodies of values that nest at most `depth` deep. -/
def bodyReader (depth : Nat) : UInt8 → Reader Value :=
  readBodyWithin depth

theorem valueReader_succ (depth : Nat) :
  valueReader (depth + 1) = readWith (valueReader depth) (bodyReader depth)
  := by
  funext cursor
  rw [valueReader, readWithin]
  rfl

theorem bodyReader_succ (depth : Nat) (constructor : Constructor) :
  bodyReader (depth + 1) constructor.code =
    readBodyOf (valueReader depth) (bodyReader depth) constructor
  := by
  funext cursor
  rw [bodyReader, readBodyWithin]
  simp only [readCodedBody, Constructor.ofCode?_code]
  rfl

theorem bodyReader_zero (constructor : Constructor) :
  bodyReader 0 constructor.code = readBodyOf readNothing (fun _ => readNothing) constructor
  := by
  funext cursor
  rw [bodyReader, readBodyWithin]
  simp only [readCodedBody, Constructor.ofCode?_code]

variable {depth : Nat} {constructor : Constructor} {bytes : Bytes} {item : Value}

/-- A body that nests nothing is taken at any depth. -/
theorem takes_bodyReader
    (taken : ∀ value body, Takes (readBodyOf value body constructor) bytes item) :
  Takes (bodyReader depth constructor.code) bytes item
  := by
  cases depth with
  | zero =>
    rw [bodyReader_zero]
    apply taken
  | succ depth =>
    rw [bodyReader_succ]
    apply taken

theorem takes_valueReader_succ (taken : Takes (bodyReader depth constructor.code) bytes item) :
  Takes (valueReader (depth + 1)) (constructor.code :: bytes) item
  := by
  rw [valueReader_succ]
  apply (takes_octet constructor.code).bind
  rw [if_neg constructor.code_ne_describedMark]
  apply taken

/-- A value that nests nothing. -/
theorem takes_plain (deep : 0 < depth)
    (taken : ∀ value body, Takes (readBodyOf value body constructor) bytes item) :
  Takes (valueReader depth) (constructor.code :: bytes) item
  := by
  obtain ⟨depth, rfl⟩ := Nat.exists_eq_add_of_lt deep
  rw [Nat.zero_add]
  exact takes_valueReader_succ (takes_bodyReader taken)

/-- A value that nests others, which are read two levels deeper. -/
theorem takes_nesting
    (taken : Takes (readBodyOf (valueReader depth) (bodyReader depth) constructor) bytes item) :
  Takes (valueReader (depth + 2)) (constructor.code :: bytes) item
  := by
  apply takes_valueReader_succ
  rw [bodyReader_succ]
  apply taken

/-- A scalar in its widest form, after its constructor. -/
theorem takes_widest (item : Value) (deep : 0 < depth)
    (h : item.memberConstructor? = some constructor)
    (fits : item.Fits) :
  Takes (valueReader depth) (constructor.code :: encodeMember item) item
  := by
  apply takes_plain deep
  intro value body
  exact takes_encodeMember h fits

/-- A body of any size, in the form that its size asks for. -/
theorem takes_encodeSized {narrow wide : Constructor} {data : Bytes}
    (reads : Nat → Reader Value) (deep : 0 < depth) (fits : data.length < 2 ^ 32)
    (narrowly : ∀ value body, readBodyOf value body narrow = reads 1)
    (widely : ∀ value body, readBodyOf value body wide = reads 4)
    (taken : ∀ width, data.length < 256 ^ width →
      Takes (reads width) (bigEndian width data.length ++ data) item) :
  Takes (valueReader depth) (encodeSized narrow wide data) item
  := by
  rw [encodeSized]
  split
  case isTrue small =>
    apply takes_plain deep
    intro value body
    rw [narrowly]
    apply taken 1
    omega
  case isFalse =>
    apply takes_plain deep
    intro value body
    rw [widely]
    apply taken 4
    omega

/-- The members of a compound, in the form that their size and their count ask for. -/
theorem takes_encodeCompound {narrow wide : Constructor} {count : Nat} {members : Bytes}
    (reads : Nat → Reader Value) (fits : CompoundFits count members)
    (narrowly : readBodyOf (valueReader depth) (bodyReader depth) narrow = reads 1)
    (widely : readBodyOf (valueReader depth) (bodyReader depth) wide = reads 4)
    (taken : ∀ width, members.length + width < 256 ^ width → count < 256 ^ width →
      Takes (reads width)
        (bigEndian width (members.length + width) ++ bigEndian width count ++ members) item) :
  Takes (valueReader (depth + 2)) (encodeCompound narrow wide count members) item
  := by
  obtain ⟨sizeSmall, countSmall⟩ := fits
  rw [encodeCompound]
  split
  case isTrue small =>
    apply takes_nesting
    rw [narrowly]
    apply taken 1
    · omega
    · omega
  case isFalse =>
    apply takes_nesting
    rw [widely]
    apply taken 4
    · omega
    · omega

/-! ### Compact scalars -/

theorem takes_encodeUlong (n : UInt64) (deep : 0 < depth) :
  Takes (valueReader depth) (encodeUlong n) (.ulong n)
  := by
  rw [encodeUlong]
  split
  case isTrue zero =>
    subst zero
    apply takes_plain deep
    exact fun _ _ => Takes.pure _
  case isFalse =>
    split
    case isTrue small =>
      apply takes_plain deep
      intro value body
      apply (takes_octet n.toUInt8).gives
      congr 1
      apply UInt64.toNat.inj
      simp only [UInt64.toUInt64_toUInt8, UInt64.toNat_mod, UInt64.reduceToNat]
      omega
    case isFalse =>
      exact takes_widest (.ulong n) deep rfl trivial

theorem takes_encode_uint (n : UInt32) (deep : 0 < depth) :
  Takes (valueReader depth) (encode (.uint n)) (.uint n)
  := by
  rw [encode]
  split
  case isTrue zero =>
    subst zero
    apply takes_plain deep
    exact fun _ _ => Takes.pure _
  case isFalse =>
    split
    case isTrue small =>
      apply takes_plain deep
      intro value body
      apply (takes_octet n.toUInt8).gives
      congr 1
      apply UInt32.toNat.inj
      simp only [UInt32.toUInt32_toUInt8, UInt32.toNat_mod, UInt32.reduceToNat]
      omega
    case isFalse =>
      exact takes_widest (.uint n) deep rfl trivial

theorem takes_encode_int (n : Int32) (deep : 0 < depth) :
  Takes (valueReader depth) (encode (.int n)) (.int n)
  := by
  rw [encode]
  split
  case isTrue small =>
    apply takes_plain deep
    intro value body
    apply (takes_octet n.toInt8.toUInt8).gives
    rw [Int8.toInt8_toUInt8, small]
  case isFalse =>
    exact takes_widest (.int n) deep rfl trivial

theorem takes_encode_long (n : Int64) (deep : 0 < depth) :
  Takes (valueReader depth) (encode (.long n)) (.long n)
  := by
  rw [encode]
  split
  case isTrue small =>
    apply takes_plain deep
    intro value body
    apply (takes_octet n.toInt8.toUInt8).gives
    rw [Int8.toInt8_toUInt8, small]
  case isFalse =>
    exact takes_widest (.long n) deep rfl trivial

theorem takes_encodeSymbol (name : Symbol) (deep : 0 < depth)
    (fits : (Utf8.encode name.text).length < 2 ^ 32) :
  Takes (valueReader depth) (encodeSymbol name) (.symbol name)
  := by
  apply takes_encodeSized (fun width => return .symbol ⟨← readText width⟩) deep fits
    (fun _ _ => rfl) (fun _ _ => rfl)
  intro width small
  exact (takes_readText width small).gives rfl

/-- A scalar in its most compact form. -/
theorem takes_encode_scalar {item : Value} (deep : 0 < depth)
    (h : item.memberConstructor? = some constructor) (fits : item.Fits) :
  Takes (valueReader depth) (encode item) item
  := by
  cases item with
  | null | list | map | array | described => simp [memberConstructor?] at h
  | bool flag =>
    have taken (value : Reader Value) (body : UInt8 → Reader Value) :
        Takes (readBodyOf value body (if flag then .true else .false)) [] (.bool flag) := by
      cases flag <;> apply Takes.pure
    have plain := takes_plain deep taken
    cases flag <;> exact plain
  | ubyte n => exact takes_widest (.ubyte n) deep rfl trivial
  | ushort n => exact takes_widest (.ushort n) deep rfl trivial
  | byte n => exact takes_widest (.byte n) deep rfl trivial
  | short n => exact takes_widest (.short n) deep rfl trivial
  | timestamp n => exact takes_widest (.timestamp n) deep rfl trivial
  | uuid bits => exact takes_widest (.uuid bits) deep rfl trivial
  | uint n => exact takes_encode_uint n deep
  | ulong n => exact takes_encodeUlong n deep
  | int n => exact takes_encode_int n deep
  | long n => exact takes_encode_long n deep
  | binary bytes =>
    apply takes_encodeSized (fun width => return .binary (← readSized width)) deep fits
      (fun _ _ => rfl) (fun _ _ => rfl)
    intro width small
    exact (takes_readSized width small).gives rfl
  | string text =>
    apply takes_encodeSized (fun width => return .string (← readText width)) deep fits
      (fun _ _ => rfl) (fun _ _ => rfl)
    intro width small
    exact (takes_readText width small).gives rfl
  | symbol name => exact takes_encodeSymbol name deep fits

theorem takes_readDescriptor {descriptor : Descriptor} (deep : 0 < depth)
    (fits : descriptor.Fits) :
  Takes (readDescriptor (valueReader depth)) (encodeDescriptor descriptor) descriptor
  := by
  cases descriptor with
  | code number =>
    apply (takes_encodeUlong number deep).bind_pure
    apply Takes.pure
  | symbol name =>
    apply (takes_encodeSymbol name deep fits).bind_pure
    apply Takes.pure

/-! ### Values -/

theorem takes_encode_list {count : Nat} {members : Bytes} {items : List Value}
    (fits : CompoundFits count members)
    (taken : Takes (many (valueReader depth) count) members items) :
  Takes (valueReader (depth + 2)) (encodeCompound .list8 .list32 count members) (.list items)
  := by
  apply takes_encodeCompound (fun width => return .list (← readItems (valueReader depth) width))
    fits rfl rfl
  intro width sizeSmall countSmall
  exact (takes_readCompound width sizeSmall countSmall taken).gives rfl

theorem takes_encode_map {count : Nat} {members : Bytes} {pairs : List (Value × Value)}
    (fits : CompoundFits count members)
    (taken : Takes (many (valueReader depth) count) members
      (pairs.flatMap fun pair => [pair.1, pair.2])) :
  Takes (valueReader (depth + 2)) (encodeCompound .map8 .map32 count members) (.map pairs)
  := by
  apply takes_encodeCompound (fun width => return .map (← readPairs (valueReader depth) width))
    fits rfl rfl
  intro width sizeSmall countSmall
  exact (takes_readPairs width sizeSmall countSmall taken).gives rfl

theorem takes_encode_array {items : List Value}
    (fits : CompoundFits items.length (arrayOctets items)) (fitAll : FitAll items)
    (common : commonConstructor? items = some constructor) :
  Takes (valueReader (depth + 2))
    (encodeCompound .array8 .array32 items.length (arrayOctets items)) (.array items)
  := by
  apply takes_encodeCompound
    (fun width => return .array (← readMembers (valueReader depth) (bodyReader depth) width))
    fits rfl rfl
  intro width sizeSmall countSmall
  have each (item : Value) (hitem : item ∈ items) :
      Takes (bodyReader depth constructor.code) (encodeMember item) item := by
    apply takes_bodyReader
    intro value body
    exact takes_encodeMember (memberConstructor?_of_mem common hitem)
      (fitAll_iff.mp fitAll item hitem)
  rw [arrayOctets_of_some common] at sizeSmall ⊢
  rw [readMembers_eq]
  have members := takes_readUniform (valueReader depth) (takes_many each)
  exact (takes_readCompound width sizeSmall countSmall members).gives rfl

/-- The empty array is written as one of absent values. -/
theorem takes_encode_array_nil :
  Takes (valueReader (depth + 2)) (encode (.array [])) (.array [])
  := by
  apply takes_nesting
  have members : Takes (readUniform (valueReader depth) (bodyReader depth) 0)
      [Constructor.null.code] [] := by
    apply takes_readUniform
    apply takes_many_zero
  have taken := takes_readCompound 1 (by simp) (by simp) members
  rw [← readMembers_eq] at taken
  exact taken.gives rfl

theorem takes_encode_described {descriptor : Descriptor} {described : Value} {octets : Bytes}
    (deep : 0 < depth) (fits : descriptor.Fits)
    (taken : Takes (valueReader depth) octets described) :
  Takes (valueReader (depth + 1))
    (Constructor.describedMark :: (encodeDescriptor descriptor ++ octets))
    (.described descriptor described)
  := by
  rw [valueReader_succ]
  apply (takes_octet Constructor.describedMark).bind
  rw [if_pos rfl]
  apply (takes_readDescriptor deep fits).bind
  exact taken.gives rfl

/-- A compound leaves room for what is nested in it. -/
theorem exists_inner_depth {narrow wide : Constructor} {count : Nat} {members : Bytes}
    (deep : (encodeCompound narrow wide count members).length ≤ depth) :
  ∃ inner, depth = inner + 2 ∧ members.length ≤ inner
  := by
  have longer := length_encodeCompound narrow wide count members
  exact ⟨depth - 2, by omega, by omega⟩

mutual

/-- The octets of a value are taken as its normal form, given as many levels as octets. -/
theorem takes_encode : ∀ (value : Value) {depth : Nat}, value.Fits →
    (encode value).length ≤ depth →
  Takes (valueReader depth) (encode value) (normal value)
  | .null, _, _, deep => takes_plain deep fun _ _ => Takes.pure _
  | .list [], _, _, deep => takes_plain deep fun _ _ => Takes.pure _
  | .list (first :: others), depth, fits, deep => by
    rw [encode_list_cons] at deep ⊢
    obtain ⟨inner, rfl, room⟩ := exists_inner_depth deep
    rw [normal]
    apply takes_encode_list fits.1
    exact takes_encodeAll (first :: others) fits.2 room
  | .map pairs, depth, fits, deep => by
    rw [encode] at deep ⊢
    obtain ⟨inner, rfl, room⟩ := exists_inner_depth deep
    rw [normal]
    apply takes_encode_map fits.1
    exact takes_encodePairs pairs fits.2 room
  | .array [], depth, _, deep => by
    obtain ⟨inner, rfl⟩ : ∃ inner, depth = inner + 2 := by
      simp only [encode, List.length_cons, List.length_nil] at deep
      exact ⟨depth - 2, by omega⟩
    apply takes_encode_array_nil
  | .array (first :: others), depth, fits, deep => by
    rw [normal]
    cases common : commonConstructor? (first :: others) with
    | some constructor =>
      rw [encode_array_of_some common] at deep ⊢
      obtain ⟨inner, rfl, room⟩ := exists_inner_depth deep
      exact takes_encode_array fits.1 fits.2 common
    | none =>
      rw [encode_array_of_none common] at deep ⊢
      obtain ⟨inner, rfl, room⟩ := exists_inner_depth deep
      apply takes_encode_list fits.1
      rw [arrayOctets_of_none common] at room ⊢
      exact takes_encodeAll (first :: others) fits.2 room
  | .described descriptor value, depth, fits, deep => by
    rw [encode] at deep ⊢
    have described := length_encodeDescriptor_pos descriptor
    simp only [List.length_cons, List.length_append] at deep
    obtain ⟨inner, rfl⟩ : ∃ inner, depth = inner + 1 := ⟨depth - 1, by omega⟩
    rw [normal]
    apply takes_encode_described (by omega) fits.1
    exact takes_encode value fits.2 (by omega)
  | .bool _, _, fits, deep | .ubyte _, _, fits, deep | .ushort _, _, fits, deep
  | .uint _, _, fits, deep | .ulong _, _, fits, deep | .byte _, _, fits, deep
  | .short _, _, fits, deep | .int _, _, fits, deep | .long _, _, fits, deep
  | .timestamp _, _, fits, deep | .uuid _, _, fits, deep | .binary _, _, fits, deep
  | .string _, _, fits, deep | .symbol _, _, fits, deep =>
    takes_encode_scalar (Nat.lt_of_lt_of_le (length_encode_pos _) deep) rfl fits

theorem takes_encodeAll : ∀ (items : List Value) {depth : Nat}, FitAll items →
    (encodeAll items).length ≤ depth →
  Takes (many (valueReader depth) items.length) (encodeAll items) (normalAll items)
  | [], _, _, _ => takes_many_zero _
  | first :: others, depth, fits, deep => by
    rw [encodeAll, List.length_append] at deep
    rw [encodeAll, normalAll]
    apply takes_many_succ
    · exact takes_encode first fits.1 (by omega)
    · exact takes_encodeAll others fits.2 (by omega)

theorem takes_encodePairs : ∀ (pairs : List (Value × Value)) {depth : Nat}, FitPairs pairs →
    (encodePairs pairs).length ≤ depth →
  Takes (many (valueReader depth) (pairs.length * 2)) (encodePairs pairs)
    ((normalPairs pairs).flatMap fun pair => [pair.1, pair.2])
  | [], _, _, _ => takes_many_zero _
  | (key, value) :: others, depth, fits, deep => by
    rw [encodePairs, List.length_append, List.length_append] at deep
    rw [encodePairs, normalPairs, List.append_assoc, List.length_cons, Nat.succ_mul]
    apply takes_many_succ
    · exact takes_encode key fits.1 (by omega)
    · apply takes_many_succ
      · exact takes_encode value fits.2.1 (by omega)
      · exact takes_encodePairs others fits.2.2 (by omega)

end

/-- What is taken as a value, given as many levels as octets, is decoded as that value. -/
theorem decode_of_takes {octets : Bytes} {item : Value}
    (taken : ∀ {depth : Nat}, octets.length ≤ depth → Takes (valueReader depth) octets item)
    (rest : Bytes) :
  decode (octets ++ rest) = .ok (item, octets.length)
  := by
  have room : octets.length ≤ (octets ++ rest).length := by simp
  have run : read (Cursor.start (octets ++ rest)) = .ok item ⟨0 + octets.length, rest⟩ :=
    taken room 0 rest
  simp [decode, Reader.runOn, run]

/-- A value in front of any further octets is read as its normal form. -/
theorem decode_append {value : Value} (fits : value.Fits) (rest : Bytes) :
  decode (encode value ++ rest) = .ok (normal value, (encode value).length)
  := decode_of_takes (takes_encode value fits) rest

/-- What stands in front of any further octets is read as its normal form, which is written with
the same octets. -/
theorem normal_round_trip (value : Value) (fits : value.Fits) :
  (∀ rest : Bytes, decode (encode value ++ rest) = .ok (normal value, (encode value).length)) ∧
    encode (normal value) = encode value
  := by
  constructor
  · exact decode_append fits
  · apply encode_normal

/-- A map whose value is an array of numbers of two widths is read back with a list. -/
theorem normal_round_trip_of_mixed :
  let mixed : Value := .map [(.symbol ⟨"sizes"⟩, .array [.ubyte 1, .ushort 2])]
  mixed.Fits ∧ normal mixed = .map [(.symbol ⟨"sizes"⟩, .list [.ubyte 1, .ushort 2])] ∧
    (∀ rest : Bytes, decode (encode mixed ++ rest) = .ok (normal mixed, (encode mixed).length)) ∧
    encode (normal mixed) = encode mixed
  := by
  intro mixed
  have fits : mixed.Fits := fits_of_length_lt mixed (by decide +kernel)
  exact ⟨fits, rfl, normal_round_trip mixed fits⟩

end Value

end MessageBroker
