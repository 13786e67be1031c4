import MessageBroker.Proofs.Value.RoundTrip

/-!
# Forms of values

A value can be written in many ways.  A number has constructors of several widths, a text or a
compound tells its size in one octet or in four, and the members of an array share any constructor
that holds each of them.  The widths are chosen at every place on its own.  Decoding reads the value
back from every form, whatever octets come after it.
-/

namespace MessageBroker.Value

open Reader

/-! ### Sizes -/

/-- How many octets the size of a text or of a compound is told in. -/
inductive Width where
  /-- One octet. -/
  | narrow
  /-- Four octets. -/
  | wide
  deriving DecidableEq, Repr

namespace Width

/-- The number of octets. -/
def octets : Width → Nat
  | narrow => 1
  | wide => 4

/-- The constructor of byte strings. -/
def binary : Width → Constructor
  | narrow => .binary8
  | wide => .binary32

/-- The constructor of texts. -/
def string : Width → Constructor
  | narrow => .string8
  | wide => .string32

/-- The constructor of symbols. -/
def symbol : Width → Constructor
  | narrow => .symbol8
  | wide => .symbol32

/-- The constructor of lists. -/
def list : Width → Constructor
  | narrow => .list8
  | wide => .list32

/-- The constructor of maps. -/
def map : Width → Constructor
  | narrow => .map8
  | wide => .map32

/-- The constructor of arrays. -/
def array : Width → Constructor
  | narrow => .array8
  | wide => .array32

/-- Octets after their number. -/
def sized (width : Width) (data : Bytes) : Bytes :=
  bigEndian width.octets data.length ++ data

/-- The number of octets fits. -/
def Holds (width : Width) (data : Bytes) : Prop :=
  data.length < 256 ^ width.octets

/-- The members of a compound after their number, and before that the number of all these
octets. -/
def frame (width : Width) (count : Nat) (members : Bytes) : Bytes :=
  bigEndian width.octets (members.length + width.octets) ++ bigEndian width.octets count ++ members

/-- The numbers of octets and of members fit. -/
def Frames (width : Width) (count : Nat) (members : Bytes) : Prop :=
  members.length + width.octets < 256 ^ width.octets ∧ count < 256 ^ width.octets

instance (width : Width) (data : Bytes) : Decidable (width.Holds data) :=
  inferInstanceAs (Decidable (data.length < 256 ^ width.octets))

instance (width : Width) (count : Nat) (members : Bytes) :
    Decidable (width.Frames count members) :=
  inferInstanceAs (Decidable (_ ∧ _))

end Width

/-! ### Forms -/

/-- What can stand after a constructor for a value that nests no others. -/
inductive SimpleBody : Constructor → Value → Bytes → Prop where
  | null : SimpleBody .null .null []
  | true : SimpleBody .true (.bool true) []
  | false : SimpleBody .false (.bool false) []
  | boolean (octet : UInt8) : SimpleBody .boolean (.bool (octet != 0)) [octet]
  | ubyte (n : UInt8) : SimpleBody .ubyte (.ubyte n) [n]
  | ushort (n : UInt16) : SimpleBody .ushort (.ushort n) (bigEndian 2 n.toNat)
  | uint0 : SimpleBody .uint0 (.uint 0) []
  | smallUint (n : UInt8) : SimpleBody .smallUint (.uint n.toUInt32) [n]
  | uint (n : UInt32) : SimpleBody .uint (.uint n) (bigEndian 4 n.toNat)
  | ulong0 : SimpleBody .ulong0 (.ulong 0) []
  | smallUlong (n : UInt8) : SimpleBody .smallUlong (.ulong n.toUInt64) [n]
  | ulong (n : UInt64) : SimpleBody .ulong (.ulong n) (bigEndian 8 n.toNat)
  | byte (n : Int8) : SimpleBody .byte (.byte n) [n.toUInt8]
  | short (n : Int16) : SimpleBody .short (.short n) (bigEndian 2 n.toUInt16.toNat)
  | smallInt (n : Int8) : SimpleBody .smallInt (.int n.toInt32) [n.toUInt8]
  | int (n : Int32) : SimpleBody .int (.int n) (bigEndian 4 n.toUInt32.toNat)
  | smallLong (n : Int8) : SimpleBody .smallLong (.long n.toInt64) [n.toUInt8]
  | long (n : Int64) : SimpleBody .long (.long n) (bigEndian 8 n.toUInt64.toNat)
  | timestamp (n : Int64) : SimpleBody .timestamp (.timestamp n) (bigEndian 8 n.toUInt64.toNat)
  | uuid (bits : BitVec 128) : SimpleBody .uuid (.uuid bits) (bigEndian 16 bits.toNat)
  | binary {width : Width} {bytes : Bytes} (holds : width.Holds bytes) :
    SimpleBody width.binary (.binary bytes) (width.sized bytes)
  | string {width : Width} {text : String} (holds : width.Holds (Utf8.encode text)) :
    SimpleBody width.string (.string text) (width.sized (Utf8.encode text))
  | symbol {width : Width} {name : Symbol} (holds : width.Holds (Utf8.encode name.text)) :
    SimpleBody width.symbol (.symbol name) (width.sized (Utf8.encode name.text))
  | list0 : SimpleBody .list0 (.list []) []

/-- The octets can stand for a descriptor: a number can be written with any unsigned type. -/
inductive DescriptorForm : Descriptor → Bytes → Prop where
  | code {constructor : Constructor} {value : Value} {octets : Bytes} {number : UInt64}
    (body : SimpleBody constructor value octets) (unsigned : value.toUnsigned? = some number) :
    DescriptorForm (.code number) (constructor.code :: octets)
  | symbol {constructor : Constructor} {name : Symbol} {octets : Bytes}
    (body : SimpleBody constructor (.symbol name) octets) :
    DescriptorForm (.symbol name) (constructor.code :: octets)

/-- A value with octets that are to stand for it. -/
abbrev Part := Value × Bytes

mutual

/-- The octets can stand for a value. -/
inductive Form : Value → Bytes → Prop where
  | primitive {constructor : Constructor} {value : Value} {octets : Bytes}
    (body : Body constructor value octets) :
    Form value (constructor.code :: octets)
  | described {descriptor : Descriptor} {name : Bytes} {value : Value} {octets : Bytes}
    (names : DescriptorForm descriptor name) (form : Form value octets) :
    Form (.described descriptor value) (Constructor.describedMark :: (name ++ octets))

/-- The octets can stand after a constructor for a value. -/
inductive Body : Constructor → Value → Bytes → Prop where
  | simple {constructor : Constructor} {value : Value} {octets : Bytes}
    (body : SimpleBody constructor value octets) :
    Body constructor value octets
  | list {width : Width} {parts : List Part} (forms : ∀ part ∈ parts, Form part.1 part.2)
    (frames : width.Frames parts.length (parts.flatMap (·.2))) :
    Body width.list (.list (parts.map (·.1)))
      (width.frame parts.length (parts.flatMap (·.2)))
  | map {width : Width} {pairs : List (Part × Part)}
    (keys : ∀ pair ∈ pairs, Form pair.1.1 pair.1.2)
    (values : ∀ pair ∈ pairs, Form pair.2.1 pair.2.2)
    (frames : width.Frames (pairs.length * 2) (pairs.flatMap fun pair => pair.1.2 ++ pair.2.2)) :
    Body width.map (.map (pairs.map fun pair => (pair.1.1, pair.2.1)))
      (width.frame (pairs.length * 2) (pairs.flatMap fun pair => pair.1.2 ++ pair.2.2))
  | array {width : Width} {member : Constructor} {parts : List Part}
    (bodies : ∀ part ∈ parts, Body member part.1 part.2)
    (frames : width.Frames parts.length (member.code :: parts.flatMap (·.2))) :
    Body width.array (.array (parts.map (·.1)))
      (width.frame parts.length (member.code :: parts.flatMap (·.2)))
  | describedArray {width : Width} {descriptor : Descriptor} {name : Bytes} {member : Constructor}
    {parts : List Part} (names : DescriptorForm descriptor name)
    (bodies : ∀ part ∈ parts, Body member part.1 part.2)
    (frames : width.Frames parts.length
      (Constructor.describedMark :: (name ++ member.code :: parts.flatMap (·.2)))) :
    Body width.array (.array (parts.map fun part => .described descriptor part.1))
      (width.frame parts.length
        (Constructor.describedMark :: (name ++ member.code :: parts.flatMap (·.2))))

end

variable {value : Reader Value} {body : UInt8 → Reader Value} {constructor : Constructor}
  {item : Value} {octets : Bytes} {depth : Nat}

/-! ### Bodies that nest nothing -/

theorem SimpleBody.takes (simple : SimpleBody constructor item octets) (value : Reader Value)
    (body : UInt8 → Reader Value) :
  Takes (readBodyOf value body constructor) octets item
  := by
  cases simple with
  | null | true | false | uint0 | ulong0 | list0 => apply Takes.pure
  | boolean octet => exact (takes_octet octet).gives rfl
  | smallUint n => exact (takes_octet n).gives rfl
  | smallUlong n => exact (takes_octet n).gives rfl
  | smallInt n => exact (takes_octet n.toUInt8).gives rfl
  | smallLong n => exact (takes_octet n.toUInt8).gives rfl
  | ubyte n => exact @takes_encodeMember value body (.ubyte n) _ rfl trivial
  | ushort n => exact @takes_encodeMember value body (.ushort n) _ rfl trivial
  | uint n => exact @takes_encodeMember value body (.uint n) _ rfl trivial
  | ulong n => exact @takes_encodeMember value body (.ulong n) _ rfl trivial
  | byte n => exact @takes_encodeMember value body (.byte n) _ rfl trivial
  | short n => exact @takes_encodeMember value body (.short n) _ rfl trivial
  | int n => exact @takes_encodeMember value body (.int n) _ rfl trivial
  | long n => exact @takes_encodeMember value body (.long n) _ rfl trivial
  | timestamp n => exact @takes_encodeMember value body (.timestamp n) _ rfl trivial
  | uuid bits => exact @takes_encodeMember value body (.uuid bits) _ rfl trivial
  | @binary width bytes holds =>
    cases width <;> exact (takes_readSized _ holds).gives rfl
  | @string width text holds =>
    cases width <;> exact (takes_readText _ holds).gives rfl
  | @symbol width name holds =>
    cases width <;> exact (takes_readText _ holds).gives rfl

theorem DescriptorForm.length_pos {descriptor : Descriptor}
    (names : DescriptorForm descriptor octets) :
  0 < octets.length
  := by
  cases names <;> apply Nat.succ_pos

theorem DescriptorForm.takes {descriptor : Descriptor} (names : DescriptorForm descriptor octets)
    (deep : 0 < depth) :
  Takes (readDescriptor (valueReader depth)) octets descriptor
  := by
  cases names with
  | @code constructor item octets number body unsigned =>
    apply (takes_plain deep body.takes).bind_pure
    split
    · contradiction
    · rw [unsigned]
      apply Takes.pure
  | symbol body =>
    apply (takes_plain deep body.takes).bind_pure
    apply Takes.pure

/-! ### Compounds -/

theorem Width.takes_list {width : Width} {parts : List Part}
    (each : ∀ part ∈ parts, Takes value part.2 part.1)
    (frames : width.Frames parts.length (parts.flatMap (·.2))) :
  Takes (readBodyOf value body width.list) (width.frame parts.length (parts.flatMap (·.2)))
    (.list (parts.map (·.1)))
  := by
  have taken := takes_readCompound width.octets frames.1 frames.2 (takes_many_map each)
  cases width <;> exact taken.gives rfl

theorem takes_many_pairs {pairs : List (Part × Part)}
    (keys : ∀ pair ∈ pairs, Takes value pair.1.2 pair.1.1)
    (values : ∀ pair ∈ pairs, Takes value pair.2.2 pair.2.1) :
  Takes (many value (pairs.length * 2)) (pairs.flatMap fun pair => pair.1.2 ++ pair.2.2)
    ((pairs.map fun pair => (pair.1.1, pair.2.1)).flatMap fun pair => [pair.1, pair.2])
  := by
  induction pairs with
  | nil => apply takes_many_zero
  | cons pair pairs ih =>
    rw [List.flatMap_cons, List.append_assoc, List.length_cons, Nat.succ_mul]
    apply takes_many_succ (keys pair List.mem_cons_self)
    apply takes_many_succ (values pair List.mem_cons_self)
    apply ih
    · exact fun other hother => keys other (List.mem_cons_of_mem pair hother)
    · exact fun other hother => values other (List.mem_cons_of_mem pair hother)

theorem Width.takes_map {width : Width} {pairs : List (Part × Part)}
    (keys : ∀ pair ∈ pairs, Takes value pair.1.2 pair.1.1)
    (values : ∀ pair ∈ pairs, Takes value pair.2.2 pair.2.1)
    (frames : width.Frames (pairs.length * 2) (pairs.flatMap fun pair => pair.1.2 ++ pair.2.2)) :
  Takes (readBodyOf value body width.map)
    (width.frame (pairs.length * 2) (pairs.flatMap fun pair => pair.1.2 ++ pair.2.2))
    (.map (pairs.map fun pair => (pair.1.1, pair.2.1)))
  := by
  have taken := takes_readPairs width.octets frames.1 frames.2 (takes_many_pairs keys values)
  cases width <;> exact taken.gives rfl

/-- An array is taken if its members are, whose constructor stands before them. -/
theorem Width.takes_array {width : Width} {count : Nat} {members : Bytes} {items : List Value}
    (frames : width.Frames count members)
    (taken : Takes (readUniform value body count) members items) :
  Takes (readBodyOf value body width.array) (width.frame count members) (.array items)
  := by
  have framed := takes_readCompound width.octets frames.1 frames.2 taken
  rw [← readMembers_eq] at framed
  cases width <;> exact framed.gives rfl

/-- The members of an array may share a descriptor, which stands before their constructor. -/
theorem takes_readUniform_described {descriptor : Descriptor} {name : Bytes} {count : Nat}
    {members : Bytes} {items : List Value} (named : Takes (readDescriptor value) name descriptor)
    (taken : Takes (many (.described descriptor <$> body constructor.code) count) members items) :
  Takes (readUniform value body count)
    (Constructor.describedMark :: (name ++ constructor.code :: members)) items
  := by
  have form : Takes (readMemberForm value)
      (Constructor.describedMark :: (name ++ [constructor.code]))
      (constructor.code, some descriptor) := by
    apply (takes_octet Constructor.describedMark).bind
    rw [if_pos rfl]
    apply named.bind
    exact (takes_octet constructor.code).gives rfl
  have both : Takes (readUniform value body count)
      (Constructor.describedMark :: (name ++ [constructor.code]) ++ members) items :=
    form.bind taken
  rwa [List.cons_append, List.append_assoc] at both

theorem Width.length_frame (width : Width) (count : Nat) (members : Bytes) :
  members.length + 1 < (width.frame count members).length
  := by
  rw [frame, List.length_append, List.length_append, length_bigEndian, length_bigEndian]
  cases width <;>
  · rw [octets]
    omega

/-- What is nested in a compound is read less deep. -/
theorem Width.takes_bodyReader {width : Width} {count : Nat} {members : Bytes}
    (room : (width.frame count members).length ≤ depth)
    (taken : ∀ inner, members.length ≤ inner →
      Takes (readBodyOf (valueReader inner) (bodyReader inner) constructor) octets item) :
  Takes (bodyReader depth constructor.code) octets item
  := by
  have longer := width.length_frame count members
  obtain ⟨inner, rfl⟩ : ∃ inner, depth = inner + 1 := ⟨depth - 1, by omega⟩
  rw [bodyReader_succ]
  exact taken inner (by omega)

/-! ### Values -/

mutual

/-- The octets that stand for a value are taken as the value, given as many levels as octets. -/
theorem Form.takes : ∀ {item : Value} {octets : Bytes} {depth : Nat}, Form item octets →
    octets.length ≤ depth →
  Takes (valueReader depth) octets item
  | _, _, 0, .primitive body, room => absurd room (by simp)
  | _, _, depth + 1, .primitive body, room => by
    apply takes_valueReader_succ
    exact body.takes (Nat.le_of_succ_le_succ room)
  | _, _, 0, .described names form, room => absurd room (by simp)
  | _, _, depth + 1, .described names form, room => by
    have named := names.length_pos
    rw [List.length_cons, List.length_append] at room
    rw [valueReader_succ]
    apply (takes_octet Constructor.describedMark).bind
    rw [if_pos rfl]
    apply (names.takes (by omega)).bind
    exact (form.takes (by omega)).gives rfl

/-- The octets that stand for a value after a constructor are taken as the value. -/
theorem Body.takes : ∀ {constructor : Constructor} {item : Value} {octets : Bytes} {depth : Nat},
    Body constructor item octets → octets.length ≤ depth →
  Takes (bodyReader depth constructor.code) octets item
  | _, _, _, _, .simple body, _ => takes_bodyReader body.takes
  | _, _, _, _, .list forms frames, room => by
    apply Width.takes_bodyReader room
    intro inner enough
    apply Width.takes_list _ frames
    intro part hpart
    apply (forms part hpart).takes
    exact Nat.le_trans (length_le_flatMap (·.2) hpart) enough
  | _, _, _, _, .map keys values frames, room => by
    apply Width.takes_bodyReader room
    intro inner enough
    have within {pair : Part × Part} (h : pair ∈ _) :=
      Nat.le_trans (length_le_flatMap (fun pair : Part × Part => pair.1.2 ++ pair.2.2) h) enough
    apply Width.takes_map _ _ frames
    · intro pair hpair
      apply (keys pair hpair).takes
      have shorter := within hpair
      rw [List.length_append] at shorter
      omega
    · intro pair hpair
      apply (values pair hpair).takes
      have shorter := within hpair
      rw [List.length_append] at shorter
      omega
  | _, _, _, _, .array bodies frames, room => by
    apply Width.takes_bodyReader room
    intro inner enough
    apply Width.takes_array frames
    apply takes_readUniform
    apply takes_many_map
    intro part hpart
    apply (bodies part hpart).takes
    have shorter := length_le_flatMap (fun part : Part => part.2) hpart
    rw [List.length_cons] at enough
    omega
  | _, _, _, _, .describedArray names bodies frames, room => by
    apply Width.takes_bodyReader room
    intro inner enough
    rw [List.length_cons, List.length_append, List.length_cons] at enough
    apply Width.takes_array frames
    apply takes_readUniform_described (names.takes (by omega))
    apply takes_many_map
    intro part hpart
    apply Takes.map
    apply (bodies part hpart).takes
    have shorter := length_le_flatMap (fun part : Part => part.2) hpart
    omega

end

/-- A value is read back from whatever octets can stand for it, and no further octets are taken. -/
theorem decode_of_form {value : Value} {octets : Bytes} (form : Form value octets) (rest : Bytes) :
  decode (octets ++ rest) = .ok (value, octets.length)
  := decode_of_takes form.takes rest

/-- A number is written wider than it needs to be, and an array with a descriptor that its members
share. -/
theorem decode_of_form_of_wide :
  let value : Value := .list [.uint 7,
    .array [.described (.code 7) (.list []), .described (.code 7) (.list [.bool true])]]
  let array : Bytes := [0xe0, 12, 2, 0x00, 0x60, 0, 7, 0xc0, 1, 0, 3, 1, 0x56, 1]
  let octets : Bytes := [0xd0, 0, 0, 0, 23, 0, 0, 0, 2, 0x70, 0, 0, 0, 7] ++ array
  Form value octets ∧ encode value ≠ octets ∧
    ∀ rest, decode (octets ++ rest) = .ok (value, octets.length)
  := by
  intro value array octets
  have flag : Form (.bool true) [0x56, 1] := .primitive (.simple (.boolean 1))
  have empty : Body .list8 (.list []) [1, 0] :=
    @Body.list .narrow [] (by simp) (by decide)
  have single : Body .list8 (.list [.bool true]) [3, 1, 0x56, 1] :=
    @Body.list .narrow [(_, _)] (List.forall_mem_singleton.mpr flag) (by decide)
  have described : Form (.array [.described (.code 7) (.list []),
      .described (.code 7) (.list [.bool true])]) array :=
    .primitive (@Body.describedArray .narrow _ _ .list8 [(_, _), (_, _)]
      (.code (.ushort 7) rfl)
      (List.forall_mem_cons.mpr ⟨empty, List.forall_mem_singleton.mpr single⟩) (by decide))
  have number : Form (.uint 7) [0x70, 0, 0, 0, 7] := .primitive (.simple (.uint 7))
  have form : Form value octets :=
    .primitive (@Body.list .wide [(_, _), (_, _)]
      (List.forall_mem_cons.mpr ⟨number, List.forall_mem_singleton.mpr described⟩) (by decide))
  exact ⟨form, by decide +kernel, decode_of_form form⟩

end MessageBroker.Value
