import MessageBroker.Proofs.Text.Boundary
import MessageBroker.ShortString

/-!
# Cutting and reading short strings

A text that is cut for a short string keeps its characters whole, and keeps as many of them as
leave room for the mark.  What is written of a short string is read back, whatever follows it; only
the empty one is read as none.
-/

namespace MessageBroker.ShortString

/-! ### Wire form -/

theorem length_encode (s : ShortString) :
  s.encode.length = s.encodedSize
  := by
  rw [encode, List.length_cons, encodedSize, Nat.add_comm]

/-- A short string is read back, whatever follows it; the empty one is read as none. -/
theorem decode_encode_append (s : ShortString) (rest : Bytes) :
  decode (s.encode ++ rest) = .ok (if s.octets = [] then none else some s, s.encodedSize)
  := by
  obtain ⟨octets, length_le⟩ := s
  have size : (UInt8.ofNat octets.length).toNat = octets.length :=
    UInt8.toNat_ofNat_of_lt' (Nat.lt_succ_of_le length_le)
  cases octets with
  | nil => rfl
  | cons octet octets =>
      have filled : UInt8.ofNat (octet :: octets).length ≠ 0 := by
        intro zero
        rw [zero, List.length_cons] at size
        contradiction
      simp only [encode, List.cons_append, decode, if_neg filled, size]
      rw [← List.cons_append, if_neg (List.cons_ne_nil octet octets)]
      simp only [List.take_left, Nat.lt_irrefl, if_false]
      rfl

/-! ### Cutting texts -/

theorem octets_truncated_of_short {text : String} (short : (Utf8.encode text).length ≤ 255) :
  (truncated text).octets = Utf8.encode text
  := by
  rw [truncated, dif_pos short]

/-- A text that is cut keeps the longest text to begin with that leaves room for the mark. -/
theorem exists_octets_truncated_of_long {text : String} (long : 255 < (Utf8.encode text).length) :
  ∃ start, Utf8.LongestStart text 252 start
    ∧ Utf8.boundaryUpTo? (Utf8.encode text) 252 = some (Utf8.encode start).length
    ∧ (truncated text).octets = Utf8.encode (start ++ "...")
  := by
  obtain ⟨start, longest, search⟩ := Utf8.exists_longestStart text 252
  refine ⟨start, longest, search, ?_⟩
  rw [Utf8.boundaryUpTo?_eq, Option.some_inj] at search
  rw [truncated, dif_neg (Nat.not_le_of_lt long)]
  change (Utf8.encode text).take (Utf8.boundaryUpTo (Utf8.encode text) 252) ++ ellipsis = _
  rw [search, Utf8.take_length_encode longest.starts, Utf8.encode_append]
  rfl

/-- Cutting leaves a text, which is empty only if the text was. -/
theorem exists_octets_truncated_eq (text : String) :
  ∃ shown, (truncated text).octets = Utf8.encode shown ∧ (shown = "" ↔ text = "")
  := by
  rcases Nat.lt_or_ge 255 (Utf8.encode text).length with long | short
  · obtain ⟨start, -, -, cut⟩ := exists_octets_truncated_of_long long
    refine ⟨start ++ "...", cut, ?_⟩
    constructor
    · intro empty
      simp at empty
    · rintro rfl
      contradiction
  · exact ⟨text, octets_truncated_of_short short, Iff.rfl⟩

theorem octets_truncated_eq_nil_iff {text : String} :
  (truncated text).octets = [] ↔ text = ""
  := by
  obtain ⟨shown, cut, empty⟩ := exists_octets_truncated_eq text
  rw [cut, Utf8.encode_eq_nil_iff, empty]

/-- The short string of a text that fits holds the text.  For a text that does not, the search for
a boundary ends, at most three octets back, and the short string holds the longest text to begin
with, which ends there, and the mark.  Either way it holds a text of at most 255 octets and is read
back as it is written, whatever follows it; only that of the empty text is read as none. -/
theorem truncated_at_boundary (text : String) :
  (truncated text).octets.length ≤ 255
    ∧ (∃ shown, Utf8.decode? (truncated text).octets = some shown)
    ∧ ((Utf8.encode text).length ≤ 255 → (truncated text).octets = Utf8.encode text)
    ∧ (255 < (Utf8.encode text).length →
      ∃ start, Utf8.LongestStart text 252 start
        ∧ 249 ≤ (Utf8.encode start).length
        ∧ Utf8.boundaryUpTo? (Utf8.encode text) 252 = some (Utf8.encode start).length
        ∧ (truncated text).octets = Utf8.encode (start ++ "..."))
    ∧ (truncated text).encode.length = (truncated text).encodedSize
    ∧ ∀ rest, decode ((truncated text).encode ++ rest)
        = .ok (if text = "" then none else some (truncated text), (truncated text).encodedSize)
  := by
  refine ⟨(truncated text).length_le, ?_, octets_truncated_of_short, fun long => ?_,
    length_encode _, fun rest => ?_⟩
  · obtain ⟨shown, cut, -⟩ := exists_octets_truncated_eq text
    exact ⟨shown, by rw [cut, Utf8.decode?_encode]⟩
  · obtain ⟨start, longest, search, cut⟩ := exists_octets_truncated_of_long long
    have room := longest.room_lt (by omega)
    exact ⟨start, longest, by omega, search, cut⟩
  · rw [decode_encode_append]
    simp only [octets_truncated_eq_nil_iff]

/-- The search goes back all of three octets where the room ends before the last octet of a
character that has four. -/
theorem truncated_at_boundary_of_inside :
  let text := String.ofList ('x' :: List.replicate 100 '😀')
  255 < (Utf8.encode text).length
    ∧ ∃ start, Utf8.LongestStart text 252 start
      ∧ (Utf8.encode start).length = 249
      ∧ (truncated text).octets = Utf8.encode (start ++ "...")
  := by
  intro text
  have long : 255 < (Utf8.encode text).length := by decide +kernel
  have ends : Utf8.boundaryUpTo? (Utf8.encode text) 252 = some 249 := by decide +kernel
  obtain ⟨start, longest, -, search, cut⟩ := (truncated_at_boundary text).2.2.2.1 long
  rw [ends, Option.some_inj] at search
  exact ⟨long, start, longest, search.symm, cut⟩

end MessageBroker.ShortString
