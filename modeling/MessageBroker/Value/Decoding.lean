import MessageBroker.Text.Utf8
import MessageBroker.Value.Basic
import MessageBroker.Value.Constructor
import MessageBroker.Wire.Reader

/-!
# Decoding of values

`Value.read` takes one value from the front of a byte string, whichever of the constructors of
its type it is written with.  Values nest, so reading is given a depth; a value never nests
deeper than it has octets, and with that many the depth is never felt.
-/

namespace MessageBroker.Value

/-! ### Bodies of a known type -/

/-- Takes a byte string after its size, which is a number of `width` octets. -/
def readSized (width : Nat) : Reader Bytes := do
  let size ← Reader.number width
  Reader.take size

/-- Takes a text after its size, which is a number of `width` octets. -/
def readText (width : Nat) : Reader String := do
  let bytes ← readSized width
  match Utf8.decode? bytes with
  | some text => pure text
  | none => Reader.malformed .invalidText

/-- Takes the size and the count of a compound, numbers of `width` octets each.  Gives the place
where its members end, and their count. -/
def readCompoundHeader (width : Nat) : Reader (Nat × Nat) := do
  let size ← Reader.number width
  if size < width then Reader.malformed .sizeBelowCount
  Reader.need size
  let count ← Reader.number width
  let position ← Reader.position
  pure (position + (size - width), count)

/-- Fails unless the place reached is `stop`. -/
def expectEnd (stop : Nat) : Reader Unit := do
  let position ← Reader.position
  if position = stop then pure () else Reader.malformed (.sizeMismatch position stop)

/-- The members of a list in twos; none if one is left over. -/
def pairUp? {α : Type} : List α → Option (List (α × α))
  | [] => some []
  | [_] => none
  | key :: value :: others => (pairUp? others).map ((key, value) :: ·)

/-- Takes the members of a list, whose size and count are numbers of `width` octets. -/
def readItems (value : Reader Value) (width : Nat) : Reader (List Value) := do
  let (stop, count) ← readCompoundHeader width
  let items ← Reader.many value count
  expectEnd stop
  pure items

/-- Takes the keys and values of a map, whose size and count are numbers of `width` octets. -/
def readPairs (value : Reader Value) (width : Nat) : Reader (List (Value × Value)) := do
  let items ← readItems value width
  match pairUp? items with
  | some pairs => pure pairs
  | none => Reader.malformed .unpairedKey

/-- Takes a descriptor. -/
def readDescriptor (value : Reader Value) : Reader Descriptor := do
  match ← value with
  | .symbol name => pure (.symbol name)
  | other =>
    match other.toUnsigned? with
    | some number => pure (.code number)
    | none => Reader.malformed .descriptorKind

/-- Takes the constructor of the members of an array, and the descriptor they share, if any. -/
def readMemberForm (value : Reader Value) : Reader (UInt8 × Option Descriptor) := do
  let code ← Reader.octet
  if code = Constructor.describedMark then
    let descriptor ← readDescriptor value
    let code ← Reader.octet
    pure (code, some descriptor)
  else pure (code, none)

/-- A member of an array whose members share a descriptor, if any. -/
def sharing (descriptor : Option Descriptor) (value : Value) : Value :=
  match descriptor with
  | some descriptor => .described descriptor value
  | none => value

/-- Takes the members of an array, whose size and count are numbers of `width` octets. -/
def readMembers (value : Reader Value) (body : UInt8 → Reader Value) (width : Nat) :
    Reader (List Value) := do
  let (stop, count) ← readCompoundHeader width
  let (code, descriptor) ← readMemberForm value
  let items ← Reader.many (sharing descriptor <$> body code) count
  expectEnd stop
  pure items

/-! ### Values -/

/-- Takes the body of a value with the given constructor; `value` and `body` read what is nested
in it. -/
def readBodyOf (value : Reader Value) (body : UInt8 → Reader Value) :
    Constructor → Reader Value
  | .null => pure .null
  | .true => pure (.bool true)
  | .false => pure (.bool false)
  | .uint0 => pure (.uint 0)
  | .ulong0 => pure (.ulong 0)
  | .list0 => pure (.list [])
  | .ubyte => return .ubyte (← Reader.octet)
  | .byte => return .byte (← Reader.octet).toInt8
  | .smallUint => return .uint (← Reader.octet).toUInt32
  | .smallUlong => return .ulong (← Reader.octet).toUInt64
  | .smallInt => return .int (← Reader.octet).toInt8.toInt32
  | .smallLong => return .long (← Reader.octet).toInt8.toInt64
  | .boolean => return .bool ((← Reader.octet) != 0)
  | .ushort => return .ushort (.ofNat (← Reader.number 2))
  | .short => return .short (UInt16.ofNat (← Reader.number 2)).toInt16
  | .uint => return .uint (.ofNat (← Reader.number 4))
  | .int => return .int (UInt32.ofNat (← Reader.number 4)).toInt32
  | .ulong => return .ulong (.ofNat (← Reader.number 8))
  | .long => return .long (UInt64.ofNat (← Reader.number 8)).toInt64
  | .timestamp => return .timestamp (UInt64.ofNat (← Reader.number 8)).toInt64
  | .uuid => return .uuid (.ofNat 128 (← Reader.number 16))
  | .binary8 => return .binary (← readSized 1)
  | .binary32 => return .binary (← readSized 4)
  | .string8 => return .string (← readText 1)
  | .string32 => return .string (← readText 4)
  | .symbol8 => return .symbol ⟨← readText 1⟩
  | .symbol32 => return .symbol ⟨← readText 4⟩
  | .list8 => return .list (← readItems value 1)
  | .list32 => return .list (← readItems value 4)
  | .map8 => return .map (← readPairs value 1)
  | .map32 => return .map (← readPairs value 4)
  | .array8 => return .array (← readMembers value body 1)
  | .array32 => return .array (← readMembers value body 4)

/-- Takes the body of a value with the constructor of the given octet. -/
def readCodedBody (value : Reader Value) (body : UInt8 → Reader Value) (code : UInt8) :
    Reader Value :=
  match Constructor.ofCode? code with
  | some constructor => readBodyOf value body constructor
  | none => throw (.invalidFormatCode code)

/-- Takes a value; `value` and `body` read what is nested in it. -/
def readWith (value : Reader Value) (body : UInt8 → Reader Value) : Reader Value := do
  let code ← Reader.octet
  if code = Constructor.describedMark then
    let descriptor ← readDescriptor value
    let described ← value
    pure (.described descriptor described)
  else body code

/-- Fails for lack of an octet. -/
def readNothing : Reader Value :=
  throw (.insufficientData 1)

mutual

/-- Takes a value that nests at most `depth` deep. -/
def readWithin (depth : Nat) (cursor : Cursor) : EStateM.Result DecodeError Cursor Value :=
  match depth with
  | 0 => readNothing cursor
  | depth + 1 => readWith (readWithin depth ·) (readBodyWithin depth · ·) cursor

/-- Takes the body of a value that nests at most `depth` deep. -/
def readBodyWithin (depth : Nat) (code : UInt8) (cursor : Cursor) :
    EStateM.Result DecodeError Cursor Value :=
  match depth with
  | 0 => readCodedBody readNothing (fun _ => readNothing) code cursor
  | depth + 1 => readCodedBody (readWithin depth ·) (readBodyWithin depth · ·) code cursor

end

/-- Takes a value. -/
def read : Reader Value := fun cursor =>
  readWithin cursor.rest.length cursor

/-- The value at the front of a byte string, and the number of its octets. -/
def decode (bytes : Bytes) : Except DecodeError (Value × Nat) :=
  read.runOn bytes

end MessageBroker.Value
