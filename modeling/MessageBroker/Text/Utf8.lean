import MessageBroker.Octets

/-!
# UTF-8

The UTF-8 form of a text as a byte string.  `decode?` accepts exactly the byte strings that
`encode` writes.  `lossy` reads any byte string: each maximal run of octets that begins a
character without completing one, and each octet that begins none, reads as U+FFFD.
-/

namespace MessageBroker.Utf8

/-- The UTF-8 form of a text. -/
def encode (text : String) : Bytes :=
  text.toByteArray.data.toList

/-- The text whose UTF-8 form is given, if there is one. -/
def decode? (bytes : Bytes) : Option String :=
  String.fromUTF8? ⟨bytes.toArray⟩

@[simp]
theorem decode?_encode (text : String) :
  decode? (encode text) = some text
  := by
  have h : (⟨text.toByteArray.data.toList.toArray⟩ : ByteArray) = text.toByteArray := by simp
  simp only [decode?, encode, h, String.fromUTF8?, dif_pos text.isValidUTF8]
  rfl

theorem encode_of_decode? {bytes : Bytes} {text : String} (h : decode? bytes = some text) :
  encode text = bytes
  := by
  simp only [decode?, String.fromUTF8?] at h
  split at h
  · cases h
    simp [encode, String.fromUTF8]
  · cases h

/-! ### Reading with replacement -/

/-- What a character's first octet promises: the number of octets to follow, the bounds of the
first of them, and the bits of the character that the octet carries. -/
structure Lead where
  /-- Octets to follow. -/
  count : Nat
  /-- Least value of the first octet to follow. -/
  low : UInt8
  /-- Greatest value of the first octet to follow. -/
  high : UInt8
  /-- Bits of the character in the first octet. -/
  bits : Nat

/-- The promise of a first octet; none if no character begins with it. -/
def Lead.of? (octet : UInt8) : Option Lead :=
  let n := octet.toNat
  if n < 0x80 then some ⟨0, 0x80, 0xbf, n⟩
  else if n < 0xc2 then none
  else if n < 0xe0 then some ⟨1, 0x80, 0xbf, n - 0xc0⟩
  else if n = 0xe0 then some ⟨2, 0xa0, 0xbf, 0⟩
  else if n = 0xed then some ⟨2, 0x80, 0x9f, 0x0d⟩
  else if n < 0xf0 then some ⟨2, 0x80, 0xbf, n - 0xe0⟩
  else if n = 0xf0 then some ⟨3, 0x90, 0xbf, 0⟩
  else if n < 0xf4 then some ⟨3, 0x80, 0xbf, n - 0xf0⟩
  else if n = 0xf4 then some ⟨3, 0x80, 0x8f, 4⟩
  else none

/-- Reads the octets that a first octet promised: the character's code point, or none if one of
them is missing, and the octets after the last one that was as promised. -/
def readTail (bits : Nat) : Nat → UInt8 → UInt8 → Bytes → Option Nat × Bytes
  | 0, _, _, rest => (some bits, rest)
  | _ + 1, _, _, [] => (none, [])
  | count + 1, low, high, octet :: rest =>
    if low ≤ octet ∧ octet ≤ high then
      readTail (bits * 64 + (octet.toNat - 0x80)) count 0x80 0xbf rest
    else (none, octet :: rest)

theorem length_readTail_le (bits count : Nat) (low high : UInt8) (rest : Bytes) :
  (readTail bits count low high rest).2.length ≤ rest.length
  := by
  fun_induction readTail bits count low high rest with
  | case1 => simp
  | case2 => simp
  | case3 _ _ _ _ _ _ _ ih => simp; omega
  | case4 => simp

/-- The character that stands for octets that are none. -/
def replacement : Char := Char.ofNat 0xfffd

/-- The characters of a byte string, with U+FFFD for what is not UTF-8. -/
def lossyChars : Bytes → List Char
  | [] => []
  | octet :: rest =>
    match Lead.of? octet with
    | none => replacement :: lossyChars rest
    | some lead =>
      let tail := readTail lead.bits lead.count lead.low lead.high rest
      (tail.1.map Char.ofNat).getD replacement :: lossyChars tail.2
termination_by bytes => bytes.length
decreasing_by
  · simp
  · exact Nat.lt_succ_of_le (length_readTail_le _ _ _ _ _)

/-- The text of a byte string, with U+FFFD for what is not UTF-8. -/
def lossy (bytes : Bytes) : String :=
  String.ofList (lossyChars bytes)

end MessageBroker.Utf8
