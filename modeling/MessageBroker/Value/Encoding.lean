import MessageBroker.Text.Utf8
import MessageBroker.Value.Basic
import MessageBroker.Value.Constructor

/-!
# Encoding of values

`Value.encode` writes a value with the most compact constructors.  The members of an array are
written with one constructor in common, the widest of their type; an array whose members have no
such constructor in common is written as a list.
-/

namespace MessageBroker

namespace Value

/-! ### Bodies -/

/-- A body of any size after its constructor and its size. -/
def encodeSized (narrow wide : Constructor) (data : Bytes) : Bytes :=
  if data.length ≤ 255 then narrow.code :: (bigEndian 1 data.length ++ data)
  else wide.code :: (bigEndian 4 data.length ++ data)

/-- The members of a compound after its constructor, its size and their count. -/
def encodeCompound (narrow wide : Constructor) (count : Nat) (members : Bytes) : Bytes :=
  if members.length < 255 ∧ count ≤ 255 then
    narrow.code :: (bigEndian 1 (members.length + 1) ++ bigEndian 1 count ++ members)
  else
    wide.code :: (bigEndian 4 (members.length + 4) ++ bigEndian 4 count ++ members)

/-! ### Members of arrays -/

/-- The constructor with which a value is written as a member of an array. -/
def memberConstructor? : Value → Option Constructor
  | .bool _ => some .boolean
  | .ubyte _ => some .ubyte
  | .ushort _ => some .ushort
  | .uint _ => some .uint
  | .ulong _ => some .ulong
  | .byte _ => some .byte
  | .short _ => some .short
  | .int _ => some .int
  | .long _ => some .long
  | .timestamp _ => some .timestamp
  | .uuid _ => some .uuid
  | .binary _ => some .binary32
  | .string _ => some .string32
  | .symbol _ => some .symbol32
  | _ => none

/-- The constructor that all members of an array have in common. -/
def commonConstructor? : List Value → Option Constructor
  | [] => none
  | first :: others =>
    match first.memberConstructor? with
    | some constructor =>
      if others.all fun item => item.memberConstructor? = some constructor then some constructor
      else none
    | none => none

/-- The body of a value as a member of an array, without a constructor of its own. -/
def encodeMember : Value → Bytes
  | .bool flag => [if flag then 1 else 0]
  | .ubyte n => [n]
  | .ushort n => bigEndian 2 n.toNat
  | .uint n => bigEndian 4 n.toNat
  | .ulong n => bigEndian 8 n.toNat
  | .byte n => [n.toUInt8]
  | .short n => bigEndian 2 n.toUInt16.toNat
  | .int n => bigEndian 4 n.toUInt32.toNat
  | .long n => bigEndian 8 n.toUInt64.toNat
  | .timestamp n => bigEndian 8 n.toUInt64.toNat
  | .uuid bits => bigEndian 16 bits.toNat
  | .binary bytes => bigEndian 4 bytes.length ++ bytes
  | .string text => bigEndian 4 (Utf8.encode text).length ++ Utf8.encode text
  | .symbol name => bigEndian 4 (Utf8.encode name.text).length ++ Utf8.encode name.text
  | _ => []

/-! ### Values -/

/-- An unsigned number of 64 bits. -/
def encodeUlong (n : UInt64) : Bytes :=
  if n = 0 then [Constructor.ulong0.code]
  else if n.toNat ≤ 255 then [Constructor.smallUlong.code, n.toUInt8]
  else Constructor.ulong.code :: bigEndian 8 n.toNat

/-- A symbol. -/
def encodeSymbol (name : Symbol) : Bytes :=
  encodeSized .symbol8 .symbol32 (Utf8.encode name.text)

/-- A descriptor. -/
def encodeDescriptor : Descriptor → Bytes
  | .code number => encodeUlong number
  | .symbol name => encodeSymbol name

mutual

/-- The encoding of a value. -/
def encode : Value → Bytes
  | .null => [Constructor.null.code]
  | .bool flag => [if flag then Constructor.true.code else Constructor.false.code]
  | .ubyte n => [Constructor.ubyte.code, n]
  | .ushort n => Constructor.ushort.code :: bigEndian 2 n.toNat
  | .uint n =>
    if n = 0 then [Constructor.uint0.code]
    else if n.toNat ≤ 255 then [Constructor.smallUint.code, n.toUInt8]
    else Constructor.uint.code :: bigEndian 4 n.toNat
  | .ulong n => encodeUlong n
  | .byte n => [Constructor.byte.code, n.toUInt8]
  | .short n => Constructor.short.code :: bigEndian 2 n.toUInt16.toNat
  | .int n =>
    if n.toInt8.toInt32 = n then [Constructor.smallInt.code, n.toInt8.toUInt8]
    else Constructor.int.code :: bigEndian 4 n.toUInt32.toNat
  | .long n =>
    if n.toInt8.toInt64 = n then [Constructor.smallLong.code, n.toInt8.toUInt8]
    else Constructor.long.code :: bigEndian 8 n.toUInt64.toNat
  | .timestamp n => Constructor.timestamp.code :: bigEndian 8 n.toUInt64.toNat
  | .uuid bits => Constructor.uuid.code :: bigEndian 16 bits.toNat
  | .binary bytes => encodeSized .binary8 .binary32 bytes
  | .string text => encodeSized .string8 .string32 (Utf8.encode text)
  | .symbol name => encodeSymbol name
  | .list [] => [Constructor.list0.code]
  | .list (first :: others) =>
    encodeCompound .list8 .list32 (others.length + 1) (encode first ++ encodeAll others)
  | .map pairs => encodeCompound .map8 .map32 (pairs.length * 2) (encodePairs pairs)
  | .array [] => [Constructor.array8.code, 2, 0, Constructor.null.code]
  | .array (first :: others) =>
    match commonConstructor? (first :: others) with
    | some constructor =>
      encodeCompound .array8 .array32 (others.length + 1)
        (constructor.code :: (first :: others).flatMap encodeMember)
    | none => encodeCompound .list8 .list32 (others.length + 1) (encode first ++ encodeAll others)
  | .described descriptor value =>
    Constructor.describedMark :: (encodeDescriptor descriptor ++ encode value)

/-- The encodings of values one after another. -/
def encodeAll : List Value → Bytes
  | [] => []
  | first :: others => encode first ++ encodeAll others

/-- The encodings of keys and values one after another. -/
def encodePairs : List (Value × Value) → Bytes
  | [] => []
  | (key, value) :: others => encode key ++ encode value ++ encodePairs others

end

end Value

end MessageBroker
