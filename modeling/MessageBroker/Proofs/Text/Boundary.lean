import MessageBroker.Text.Boundary

/-!
# Boundaries in the form of a text

The form of a character is an octet that goes on with no character, and then octets that do.  So
the boundaries in the form of a text are the places where the form of a text that it begins with
ends, and the search for a boundary finds where the longest of these ends that still fits.  Fewer
than four octets are left over then, as no character has more than four.
-/

namespace MessageBroker.Utf8

/-! ### Forms of characters -/

theorem continues_iff {octet : UInt8} :
  continues octet ↔ 128 ≤ octet.toNat ∧ octet.toNat < 192
  := by
  rw [continues, Bool.and_eq_true, decide_eq_true_iff, decide_eq_true_iff,
    UInt8.le_iff_toNat_le, UInt8.lt_iff_toNat_lt]
  rfl

theorem not_continues_ofNat {n : Nat} (small : n < 256) (lead : n < 128 ∨ 192 ≤ n) :
  ¬ continues (UInt8.ofNat n)
  := by
  rw [continues_iff, UInt8.toNat_ofNat_of_lt' small]
  omega

theorem continues_ofNat (n : Nat) :
  continues (UInt8.ofNat (n % 64 + 128))
  := by
  have small : n % 64 + 128 < 256 := by omega
  rw [continues_iff, UInt8.toNat_ofNat_of_lt' small]
  omega

/-- The first octet of a character's form goes on with no character, the others do. -/
theorem exists_utf8EncodeChar_eq (c : Char) :
  ∃ lead others, String.utf8EncodeChar c = lead :: others ∧ ¬ continues lead
    ∧ ∀ octet ∈ others, continues octet
  := by
  fun_cases String.utf8EncodeChar c with
  | case1 => exact ⟨_, _, rfl, not_continues_ofNat (by omega) (by omega), by simp⟩
  | case2 | case3 | case4 =>
      refine ⟨_, _, rfl, not_continues_ofNat (by omega) (by omega), ?_⟩
      simp only [List.forall_mem_cons, continues_ofNat, List.not_mem_nil, false_implies,
        implies_true, and_self]

/-! ### Forms of texts -/

/-- The form of a list of characters. -/
def octetsOf (chars : List Char) : Bytes :=
  chars.flatMap String.utf8EncodeChar

theorem encode_eq_octetsOf (text : String) :
  encode text = octetsOf text.toList
  := by
  rw [encode, ← String.utf8Encode_toList, List.utf8Encode, List.toList_data_toByteArray, octetsOf]

theorem encode_ofList (chars : List Char) :
  encode (String.ofList chars) = octetsOf chars
  := by
  rw [encode_eq_octetsOf, String.toList_ofList]

theorem octetsOf_cons (c : Char) (chars : List Char) :
  octetsOf (c :: chars) = String.utf8EncodeChar c ++ octetsOf chars
  := List.flatMap_cons

theorem octetsOf_append (chars others : List Char) :
  octetsOf (chars ++ others) = octetsOf chars ++ octetsOf others
  := List.flatMap_append

theorem encode_append (text other : String) :
  encode (text ++ other) = encode text ++ encode other
  := by
  rw [encode_eq_octetsOf, String.toList_append, octetsOf_append, ← encode_eq_octetsOf,
    ← encode_eq_octetsOf]

theorem encode_eq_nil_iff {text : String} :
  encode text = [] ↔ text = ""
  := by
  constructor
  · intro empty
    have read := decode?_encode text
    rw [empty] at read
    exact (Option.some_inj.mp read).symm
  · rintro rfl
    rfl

/-- No text goes on with a character at its front. -/
theorem not_continues_of_octetsOf_eq {chars : List Char} {octet : UInt8} {rest : Bytes}
    (h : octetsOf chars = octet :: rest) :
  ¬ continues octet
  := by
  cases chars with
  | nil => contradiction
  | cons c chars =>
      obtain ⟨lead, others, form, starts, -⟩ := exists_utf8EncodeChar_eq c
      rw [octetsOf_cons, form] at h
      cases h
      exact starts

/-! ### Boundaries -/

theorem isBoundary_iff {bytes : Bytes} {place : Nat} :
  isBoundary bytes place ↔ place = 0 ∨ place = bytes.length
    ∨ ∃ octet, bytes[place]? = some octet ∧ ¬ continues octet
  := by
  rw [isBoundary, Bool.or_eq_true, beq_iff_eq]
  apply or_congr_right
  cases found : bytes[place]? with
  | none => simp
  | some octet =>
      have inside := (List.getElem?_eq_some_iff.mp found).1
      simp [Nat.ne_of_lt inside]

/-- Within the form of a character, no place but the front is a boundary. -/
theorem eq_zero_of_isBoundary {c : Char} {more : Bytes} {place : Nat}
    (inside : place < (String.utf8EncodeChar c).length)
    (boundary : isBoundary (String.utf8EncodeChar c ++ more) place) :
  place = 0
  := by
  obtain ⟨lead, others, form, -, goOn⟩ := exists_utf8EncodeChar_eq c
  rw [form] at inside boundary
  rcases isBoundary_iff.mp boundary with front | atEnd | ⟨octet, found, starts⟩
  · exact front
  · rw [List.length_append] at atEnd
    omega
  · cases place with
    | zero => rfl
    | succ place =>
        rw [List.getElem?_append_left inside, List.getElem?_cons_succ] at found
        exact absurd (goOn octet (List.mem_of_getElem? found)) starts

/-- The boundaries in the form of a text stay such behind other octets. -/
theorem isBoundary_append_iff {bytes : Bytes} {chars : List Char} {place : Nat} :
  isBoundary (bytes ++ octetsOf chars) (bytes.length + place)
    ↔ isBoundary (octetsOf chars) place
  := by
  rw [isBoundary_iff, isBoundary_iff, List.getElem?_append_right (Nat.le_add_right _ _),
    Nat.add_sub_cancel_left, List.length_append, Nat.add_right_inj]
  cases place with
  | zero =>
      cases form : octetsOf chars with
      | nil => simp
      | cons octet rest => simp [not_continues_of_octetsOf_eq form]
  | succ place => simp

/-- The boundaries in the form of a text are the ends of the forms of those that it begins with. -/
theorem isBoundary_octetsOf_iff {chars : List Char} {place : Nat} :
  isBoundary (octetsOf chars) place ↔ ∃ start, start <+: chars ∧ (octetsOf start).length = place
  := by
  induction chars generalizing place with
  | nil => simp [isBoundary_iff, octetsOf, eq_comm (a := 0)]
  | cons c chars ih =>
      simp only [List.prefix_cons_iff, octetsOf_cons]
      constructor
      · intro boundary
        -- Only past the first character does a boundary come from one of the others.
        rcases Nat.lt_or_ge place (String.utf8EncodeChar c).length with inside | past
        · exact ⟨[], .inl rfl, (eq_zero_of_isBoundary inside boundary).symm⟩
        · obtain ⟨place, rfl⟩ := Nat.exists_eq_add_of_le past
          obtain ⟨start, starts, rfl⟩ := ih.mp (isBoundary_append_iff.mp boundary)
          exact ⟨c :: start, .inr ⟨start, rfl, starts⟩, by rw [octetsOf_cons, List.length_append]⟩
      · rintro ⟨start, rfl | ⟨start, rfl, starts⟩, rfl⟩
        · rfl
        · rw [octetsOf_cons, List.length_append, isBoundary_append_iff]
          exact ih.mpr ⟨start, starts, rfl⟩

theorem isBoundary_encode_iff {text : String} {place : Nat} :
  isBoundary (encode text) place
    ↔ ∃ start : String, start.toList <+: text.toList ∧ (encode start).length = place
  := by
  rw [encode_eq_octetsOf, isBoundary_octetsOf_iff]
  constructor
  · rintro ⟨start, starts, ends⟩
    exact ⟨String.ofList start, by rwa [String.toList_ofList], by rwa [encode_ofList]⟩
  · rintro ⟨start, starts, ends⟩
    exact ⟨start.toList, starts, by rwa [← encode_eq_octetsOf]⟩

/-! ### The longest text to begin with -/

/-- A text that another begins with, of at most so many octets, and the longest of those. -/
structure LongestStart (text : String) (room : Nat) (start : String) : Prop where
  starts : start.toList <+: text.toList
  fits : (encode start).length ≤ room
  longest : ∀ other : String, other.toList <+: text.toList → (encode other).length ≤ room →
    (encode other).length ≤ (encode start).length

/-- The form of a text begins with the forms of those that the text begins with. -/
theorem take_length_encode {text start : String} (starts : start.toList <+: text.toList) :
  (encode text).take (encode start).length = encode start
  := by
  obtain ⟨rest, parts⟩ := starts
  rw [encode_eq_octetsOf text, ← parts, octetsOf_append, encode_eq_octetsOf start, List.take_left]

/-- The search for a boundary ends where the longest text to begin with does. -/
theorem exists_longestStart (text : String) (room : Nat) :
  ∃ start, LongestStart text room start
    ∧ boundaryUpTo? (encode text) room = some (encode start).length
  := by
  have search := boundaryUpTo?_eq (encode text) room
  obtain ⟨boundary, le, last⟩ := boundaryUpTo?_eq_some search
  obtain ⟨start, starts, ends⟩ := isBoundary_encode_iff.mp boundary
  rw [← ends] at le last search
  refine ⟨start, ⟨starts, le, fun other begins fits => ?_⟩, search⟩
  exact last _ fits (isBoundary_encode_iff.mpr ⟨other, begins, rfl⟩)

/-- The next character would have fitted if it had had room for its four octets. -/
theorem LongestStart.room_lt {text start : String} {room : Nat}
    (longestStart : LongestStart text room start) (long : room < (encode text).length) :
  room < (encode start).length + 4
  := by
  obtain ⟨⟨rest, parts⟩, fits, longest⟩ := longestStart
  cases rest with
  | nil =>
      rw [List.append_nil] at parts
      rw [encode_eq_octetsOf, ← parts, ← encode_eq_octetsOf] at long
      omega
  | cons c rest =>
      have size := c.utf8Size_le_four
      have positive := c.utf8Size_pos
      have length : (encode (String.ofList (start.toList ++ [c]))).length
          = (encode start).length + c.utf8Size := by
        rw [encode_ofList, octetsOf_append, ← encode_eq_octetsOf, List.length_append, octetsOf,
          List.flatMap_singleton, String.length_utf8EncodeChar]
      have begins : (String.ofList (start.toList ++ [c])).toList <+: text.toList := by
        rw [String.toList_ofList, ← parts]
        exact (List.prefix_append_right_inj _).mpr (List.prefix_append [c] rest)
      -- With the next character it is still a text to begin with, so that only room was missing.
      have tooLong : ¬ (encode start).length + c.utf8Size ≤ room := by
        intro more
        have := longest _ begins (by rw [length]; exact more)
        omega
      omega

end MessageBroker.Utf8
