/-!
# Constructors

Every encoded value begins with a constructor octet, which tells its type and the width of its
body.  `Constructor` lists the constructors, `code` gives the octet of each, and `ofCode?` reads
an octet back.
-/

namespace MessageBroker

/-- The type and width of an encoded value. -/
inductive Constructor where
  | null
  | true
  | false
  | uint0
  | ulong0
  | list0
  | ubyte
  | byte
  | smallUint
  | smallUlong
  | smallInt
  | smallLong
  | boolean
  | ushort
  | short
  | uint
  | int
  | ulong
  | long
  | timestamp
  | uuid
  | binary8
  | string8
  | symbol8
  | binary32
  | string32
  | symbol32
  | list8
  | map8
  | list32
  | map32
  | array8
  | array32
  deriving DecidableEq, Repr

namespace Constructor

/-- The octet before a descriptor, in the place of a constructor. -/
def describedMark : UInt8 := 0x00

/-- The octet of a constructor. -/
def code : Constructor → UInt8
  | .null => 0x40
  | .true => 0x41
  | .false => 0x42
  | .uint0 => 0x43
  | .ulong0 => 0x44
  | .list0 => 0x45
  | .ubyte => 0x50
  | .byte => 0x51
  | .smallUint => 0x52
  | .smallUlong => 0x53
  | .smallInt => 0x54
  | .smallLong => 0x55
  | .boolean => 0x56
  | .ushort => 0x60
  | .short => 0x61
  | .uint => 0x70
  | .int => 0x71
  | .ulong => 0x80
  | .long => 0x81
  | .timestamp => 0x83
  | .uuid => 0x98
  | .binary8 => 0xa0
  | .string8 => 0xa1
  | .symbol8 => 0xa3
  | .binary32 => 0xb0
  | .string32 => 0xb1
  | .symbol32 => 0xb3
  | .list8 => 0xc0
  | .map8 => 0xc1
  | .list32 => 0xd0
  | .map32 => 0xd1
  | .array8 => 0xe0
  | .array32 => 0xf0

/-- The constructor with a given octet. -/
def ofCode? : UInt8 → Option Constructor
  | 0x40 => some .null
  | 0x41 => some .true
  | 0x42 => some .false
  | 0x43 => some .uint0
  | 0x44 => some .ulong0
  | 0x45 => some .list0
  | 0x50 => some .ubyte
  | 0x51 => some .byte
  | 0x52 => some .smallUint
  | 0x53 => some .smallUlong
  | 0x54 => some .smallInt
  | 0x55 => some .smallLong
  | 0x56 => some .boolean
  | 0x60 => some .ushort
  | 0x61 => some .short
  | 0x70 => some .uint
  | 0x71 => some .int
  | 0x80 => some .ulong
  | 0x81 => some .long
  | 0x83 => some .timestamp
  | 0x98 => some .uuid
  | 0xa0 => some .binary8
  | 0xa1 => some .string8
  | 0xa3 => some .symbol8
  | 0xb0 => some .binary32
  | 0xb1 => some .string32
  | 0xb3 => some .symbol32
  | 0xc0 => some .list8
  | 0xc1 => some .map8
  | 0xd0 => some .list32
  | 0xd1 => some .map32
  | 0xe0 => some .array8
  | 0xf0 => some .array32
  | _ => none

@[simp]
theorem ofCode?_code (constructor : Constructor) :
  ofCode? constructor.code = some constructor
  := by
  cases constructor <;> rfl

theorem code_ne_describedMark (constructor : Constructor) :
  constructor.code ≠ describedMark
  := by
  cases constructor <;> decide

end Constructor

end MessageBroker
