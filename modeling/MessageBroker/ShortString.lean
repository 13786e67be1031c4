import MessageBroker.Fault.Decoding
import MessageBroker.Text.Boundary
import MessageBroker.Text.Quoted

/-!
# Short strings

A short string is a byte string of at most 255 octets, written as one octet for its length and
then its octets.  A text that is too long can be cut at the end of a character and marked with
three points.  Reading gives no short string for the length zero: the empty one and none are
written alike.
-/

namespace MessageBroker

/-- A byte string of at most 255 octets. -/
structure ShortString where
  /-- The octets. -/
  octets : Bytes
  length_le : octets.length ≤ 255
  deriving DecidableEq

namespace ShortString

/-- The short string with the given octets, unless they are too many. -/
def ofBytes (octets : Bytes) : Except DecodeError ShortString :=
  if h : octets.length ≤ 255 then .ok ⟨octets, h⟩
  else .error (.shortStringTooLong octets.length)

/-- The short string of a text, unless it is too long. -/
def ofText (text : String) : Except DecodeError ShortString :=
  ofBytes (Utf8.encode text)

/-! ### Cutting texts -/

/-- The mark at the end of a text that was cut. -/
def ellipsis : Bytes :=
  [0x2e, 0x2e, 0x2e]

/-- The short string of a text; a text that is too long is cut, at the last boundary that leaves
room for the mark, and marked. -/
def truncated (text : String) : ShortString :=
  if h : (Utf8.encode text).length ≤ 255 then ⟨Utf8.encode text, h⟩
  else
    ⟨(Utf8.encode text).take (Utf8.boundaryUpTo (Utf8.encode text) 252) ++ ellipsis, by
      have := Utf8.boundaryUpTo_le (Utf8.encode text) 252
      simp only [List.length_append, List.length_take, ellipsis, List.length_cons, List.length_nil]
      omega⟩

/-! ### Wire form -/

/-- The wire form. -/
def encode (s : ShortString) : Bytes :=
  UInt8.ofNat s.octets.length :: s.octets

/-- The wire form of a short string that may be absent. -/
def encodeOptional : Option ShortString → Bytes
  | some s => s.encode
  | none => [0]

/-- The number of octets of the wire form. -/
def encodedSize (s : ShortString) : Nat :=
  1 + s.octets.length

/-- A run of octets whose length is one octet fits in a short string. -/
theorem length_take_toNat_le (size : UInt8) (bytes : Bytes) :
  (bytes.take size.toNat).length ≤ 255
  := by
  have := size.toNat_lt
  rw [List.length_take]
  omega

/-- Reads a short string from the front of a byte string: the short string, which is none for
the length zero, and the number of octets read. -/
def decode : Bytes → Except DecodeError (Option ShortString × Nat)
  | [] => .error (.insufficientData 1)
  | size :: rest =>
    if size = 0 then .ok (none, 1)
    else
      let octets := rest.take size.toNat
      if octets.length < size.toNat then .error (.insufficientData (size.toNat - octets.length))
      else
        .ok (some ⟨octets, length_take_toNat_le size rest⟩, 1 + size.toNat)

/-! ### Views -/

/-- The text, with U+FFFD for what is not UTF-8. -/
def text (s : ShortString) : String :=
  Utf8.lossy s.octets

/-- The text with its type and between quotation marks. -/
def inspect (s : ShortString) : String :=
  "ShortString(" ++ quotedText s.text ++ ")"

/-- A hash: the octets as the digits of a number in base 31, modulo 2³². -/
def hashCode (s : ShortString) : UInt32 :=
  s.octets.foldl (fun h octet => h * 31 + octet.toUInt32) 0

/-- Whether an octet occurs. -/
def contains (s : ShortString) (octet : UInt8) : Bool :=
  s.octets.contains octet

/-- The order of the first octets that differ; a shorter short string comes before its
continuations. -/
def order (s t : ShortString) : Ordering :=
  compareOfLessAndEq s.octets t.octets

end ShortString

end MessageBroker
